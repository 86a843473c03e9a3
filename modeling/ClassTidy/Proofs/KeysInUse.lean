import ClassTidy.Proofs.Labels
import ClassTidy.Proofs.LongestStem
import ClassTidy.Proofs.Partition

/-!
# Keys that are in use

A taxonomy may declare more than the classes at hand need. A key whose stem begins none of their
lookup keys owns none of them, and a key that has been declared before in its category shares the
bucket of the first one. What remains are the `keysInUse`: for each category that has such keys its
position, and the keys in their order.

Positions change when a category is put in, so an owner is told by the position of its category and
by its key (`owningKey?`), and a taxonomy is compared with another one after its positions have been
sent elsewhere. The owner of a class is found among the keys in use, and the lines are packed from
the buckets of these keys alone:

> `owningKey?_eq_longestKey?`: the owner is the first key in use of those with the longest stem;
> `lines_eq_of_keysInUse`: taxonomies with the same keys in use make the same lines.

So all that is left to see is what becomes of the keys in use when something is put into a taxonomy:

> `unused_keys_ignored`: categories and entries without a class, and repeats, do not show.
-/

namespace ClassTidy

/-- The stem of the key begins the text. -/
def stemBegins (text key : String) : Bool :=
  (stem key).toList.isPrefixOf text.toList

theorem stemBegins_iff {text key : String} :
    stemBegins text key = true ↔ (stem key).toList <+: text.toList :=
  List.isPrefixOf_iff_prefix

/-- The stem of the key begins the lookup key of one of the classes. -/
def InUse (viewports classes : List String) (key : String) : Prop :=
  ∃ cls ∈ classes, (stem key).toList <+: (lookupKey viewports cls).toList

instance (viewports classes : List String) : DecidablePred (InUse viewports classes) :=
  fun _ => inferInstanceAs (Decidable (∃ cls ∈ classes, _))

/-- The distinct keys of the category that are in use. -/
def Category.keysInUse (c : Category) (viewports classes : List String) : List String :=
  c.keys.filter (InUse viewports classes ·)

/-- The position and the keys in use of each category that has any, in order. -/
def Taxonomy.keysInUse (t : Taxonomy) (viewports classes : List String) :
    List (Nat × List String) :=
  (t.zipIdx.map fun (c, i) => (i, c.keysInUse viewports classes)).filter (·.2 ≠ [])

variable {t t' : Taxonomy} {viewports classes : List String} {cls key : String}

theorem InUse.mono {classes' : List String} (h : InUse viewports classes key)
    (hsub : classes ⊆ classes') : InUse viewports classes' key := by
  obtain ⟨cls, hcls, hbegins⟩ := h
  exact ⟨cls, hsub hcls, hbegins⟩

/-! ## Owners among the keys in use -/

/-- The position of the category that owns a class, and the key that does. -/
def owningKey? (t : Taxonomy) (viewports : List String) (cls : String) : Option (Nat × String) :=
  (owner? t.ranking viewports cls).map fun e => (e.category, e.key)

/-- The keys one by one, each with the position of its category. -/
def keyPairs (placed : List (Nat × List String)) : List (Nat × String) :=
  placed.flatMap fun (i, keys) => keys.map fun key => (i, key)

/-- The first of the keys with the longest stem that begins the text, and its category. -/
def longestKey? (keys : List (Nat × String)) (text : String) : Option (Nat × String) :=
  (sortBy (fun p => OrderDual.toDual (stem p.2).length)
    (keys.filter fun p => stemBegins text p.2)).head?

theorem ownedBy_eq_owningKey? (i : Nat) (key cls : String) :
    ownedBy t viewports i key cls = decide (owningKey? t viewports cls = some (i, key)) := by
  unfold ownedBy owningKey?
  cases owner? t.ranking viewports cls with
  | none => rfl
  | some e => exact Bool.eq_iff_iff.mpr (by simp)

theorem unowned_eq_owningKey? (cls : String) :
    unowned t viewports cls = (owningKey? t viewports cls).isNone := by
  unfold unowned owningKey?
  rw [Option.isNone_map]

/-- The owner is found among the declarations, with repeats. -/
theorem owningKey?_eq_longestKey?_declared : owningKey? t viewports cls
    = longestKey? (keyPairs (t.zipIdx.map fun (c, i) => (i, c.declared)))
        (lookupKey viewports cls) := by
  have hpairs : keyPairs (t.zipIdx.map fun (c, i) => (i, c.declared))
      = t.entries.map fun e => (e.category, e.key) := by
    simp only [keyPairs, Taxonomy.entries, Category.entries, List.flatMap_map, List.map_flatMap,
      List.map_map, Function.comp_def]
  unfold owningKey? longestKey?
  rw [hpairs, List.filter_map, sortBy_map, List.head?_map, Taxonomy.owner?_eq_head?_sortBy]
  rfl

/-- A category without keys in use may be kept if it adds nothing. -/
theorem flatMap_keysInUse {α : Type} {f : Nat × List String → List α} (hf : ∀ i, f (i, []) = []) :
    (t.keysInUse viewports classes).flatMap f
      = t.zipIdx.flatMap fun (c, i) => f (i, c.keysInUse viewports classes) := by
  unfold Taxonomy.keysInUse
  induction t.zipIdx with
  | nil => rfl
  | cons p rest ih =>
    obtain ⟨c, i⟩ := p
    rw [List.map_cons, List.filter_cons, List.flatMap_cons, ← ih]
    by_cases hnone : c.keysInUse viewports classes = []
    · simp [hnone, hf]
    · simp [hnone]

/-- The keys that begin a class of the list are in use. -/
theorem filter_keysInUse (hcls : cls ∈ classes) (c : Category) :
    (c.keysInUse viewports classes).filter (stemBegins (lookupKey viewports cls))
      = (c.declared.filter (stemBegins (lookupKey viewports cls))).eraseDups := by
  rw [Category.keysInUse, List.filter_filter, eraseDups_filter]
  apply List.filter_congr
  intro key _
  by_cases hbegins : stemBegins (lookupKey viewports cls) key = true
  · have huse : InUse viewports classes key := ⟨cls, hcls, stemBegins_iff.mp hbegins⟩
    rw [hbegins, decide_eq_true huse, Bool.true_and]
  · rw [Bool.eq_false_of_not_eq_true hbegins, Bool.false_and]

private theorem find?_flatMap_congr {α β : Type} {f g : α → List β} {p : β → Bool} {l : List α}
    (h : ∀ a ∈ l, (f a).find? p = (g a).find? p) :
    (l.flatMap f).find? p = (l.flatMap g).find? p := by
  induction l with
  | nil => rfl
  | cons a l ih =>
    rw [List.flatMap_cons, List.flatMap_cons, List.find?_append, List.find?_append,
      h a (List.mem_cons_self ..), ih fun b hb => h b (List.mem_cons_of_mem _ hb)]

/-- **The owner of a class is found among the keys in use.** -/
theorem owningKey?_eq_longestKey? (hcls : cls ∈ classes) : owningKey? t viewports cls
    = longestKey? (keyPairs (t.keysInUse viewports classes)) (lookupKey viewports cls) := by
  rw [owningKey?_eq_longestKey?_declared]
  unfold longestKey? keyPairs
  apply head?_sortBy_congr
  intro p
  rw [flatMap_keysInUse fun _ => rfl, List.flatMap_map, List.filter_flatMap, List.filter_flatMap]
  -- A repeat is never found, so it does not matter that the keys are distinct.
  apply find?_flatMap_congr
  rintro ⟨c, i⟩ -
  have hkeys : ∀ keys : List String,
      ((keys.map fun key => (i, key)).filter fun q => stemBegins (lookupKey viewports cls) q.2)
        = (keys.filter (stemBegins (lookupKey viewports cls))).map fun key => (i, key) := by
    intro keys
    rw [List.filter_map]
    rfl
  rw [hkeys, hkeys, filter_keysInUse hcls, List.find?_map, List.find?_map, find?_eraseDups]

theorem keyPairs_map (place : Nat → Nat) (placed : List (Nat × List String)) :
    keyPairs (placed.map (Prod.map place id)) = (keyPairs placed).map (Prod.map place id) := by
  simp only [keyPairs, List.flatMap_map, List.map_flatMap, List.map_map, Function.comp_def,
    Prod.map, id]

/-- Where the categories stand does not matter for which key is the longest. -/
theorem longestKey?_map (place : Nat → Nat) (placed : List (Nat × List String)) (text : String) :
    longestKey? (keyPairs (placed.map (Prod.map place id))) text
      = (longestKey? (keyPairs placed) text).map (Prod.map place id) := by
  unfold longestKey?
  rw [keyPairs_map, List.filter_map, sortBy_map, List.head?_map]
  rfl

/-! ## Lines from the keys in use -/

/-- A key that owns one of the classes is in use. -/
theorem InUse.of_ownedBy {i : Nat} (hcls : cls ∈ classes)
    (h : ownedBy t viewports i key cls = true) : InUse viewports classes key := by
  obtain ⟨e, howner, hkey⟩ := (Option.any_eq_true _ _).mp h
  rw [Bool.and_eq_true, beq_iff_eq, beq_iff_eq] at hkey
  refine ⟨cls, hcls, ?_⟩
  rw [← hkey.2]
  exact Taxonomy.stem_begins_of_owner howner

/-- Lists without members are not packed. -/
theorem pack_congr {width : String → Nat} {limit : Nat} {groups groups' : List (List String)}
    (h : groups.filter (!·.isEmpty) = groups'.filter (!·.isEmpty)) :
    pack width limit groups = pack width limit groups' := by
  rw [pack, pack, h]

namespace Sorted

/-- The lines on the shelves, made from the buckets of the keys in use. -/
theorem flatMap_pack_filled (width : String → Nat) (limit : Nat) :
    ((filled t viewports classes).shelves.flatMap fun shelf => pack width limit shelf.groups)
      = (t.keysInUse viewports classes).flatMap fun p =>
          pack width limit (p.2.map fun key => classes.filter (ownedBy t viewports p.1 key)) := by
  have hnone : pack width limit [] = [] := by
    rw [pack, List.filter_nil, Packing.cut, List.map_nil]
  rw [flatMap_keysInUse fun _ => hnone]
  unfold filled
  rw [List.flatMap_map]
  apply List.flatMap_congr
  rintro ⟨c, i⟩ hci
  have hi : t[i]? = some c := List.mem_zipIdx_iff_getElem?.mp hci
  apply pack_congr
  simp only [Shelf.groups, List.map_map, Function.comp_def, List.filter_filter, Bool.and_self]
  rw [map_filter_ownedAt hi, Category.keysInUse, List.filter_map, List.filter_map,
    List.filter_filter]
  apply congrArg
  apply List.filter_congr
  intro key _
  -- A bucket with a class is the bucket of a key in use.
  by_cases huse : InUse viewports classes key
  · rw [decide_eq_true huse, Bool.and_true]
  · have hempty : classes.filter (ownedBy t viewports i key) = [] := by
      rw [List.filter_eq_nil_iff]
      intro cls hcls howned
      exact huse (InUse.of_ownedBy hcls howned)
    rw [Function.comp_apply, hempty]
    rfl

/-- **The keys in use make the lines.** Taxonomies with the same keys in use make the same lines,
wherever the categories of these keys stand. -/
theorem lines_eq_of_keysInUse {place : Nat → Nat} (hplace : Function.Injective place) (ht : t ≠ [])
    (ht' : t' ≠ [])
    (h : t'.keysInUse viewports classes = (t.keysInUse viewports classes).map (Prod.map place id))
    (width : String → Nat) (limit : Nat) (placement : Placement) :
    (ofClasses t' viewports classes).lines width limit placement
      = (ofClasses t viewports classes).lines width limit placement := by
  by_cases hc : classes = []
  · rw [ofClasses_eq_empty (Or.inl hc), ofClasses_eq_empty (Or.inl hc)]
  have howner : ∀ cls ∈ classes, owningKey? t' viewports cls
      = (owningKey? t viewports cls).map (Prod.map place id) := by
    intro cls hcls
    rw [owningKey?_eq_longestKey? hcls, owningKey?_eq_longestKey? hcls, h, longestKey?_map]
  have huncategorized : classes.filter (unowned t' viewports)
      = classes.filter (unowned t viewports) := by
    apply List.filter_congr
    intro cls hcls
    rw [unowned_eq_owningKey?, unowned_eq_owningKey?, howner cls hcls, Option.isNone_map]
  have hbucket : ∀ i key, classes.filter (ownedBy t' viewports (place i) key)
      = classes.filter (ownedBy t viewports i key) := by
    intro i key
    apply List.filter_congr
    intro cls hcls
    rw [ownedBy_eq_owningKey?, ownedBy_eq_owningKey?, howner cls hcls]
    have hinj : Function.Injective (Prod.map place (id : String → String)) :=
      hplace.prodMap Function.injective_id
    exact decide_eq_decide.mpr ((Option.map_injective hinj).eq_iff (b := some (i, key)))
  rw [ofClasses_eq_filled hc ht, ofClasses_eq_filled hc ht']
  unfold lines
  rw [flatMap_pack_filled, flatMap_pack_filled, h, List.flatMap_map]
  simp only [Prod.map, id, hbucket]
  rw [show (filled t' viewports classes).uncategorized = (filled t viewports classes).uncategorized
    from huncategorized]

end Sorted

/-! ## What may be put in -/

/-- A key that is not in use, or has been declared further in front, adds no key in use. -/
theorem Category.keysInUse_insert {c c' : Category} {front back : List String}
    (h : c.declared = front ++ back) (h' : c'.declared = front ++ key :: back)
    (hkey : ¬InUse viewports classes key ∨ key ∈ front) :
    c'.keysInUse viewports classes = c.keysInUse viewports classes := by
  unfold keysInUse keys
  rw [h, h']
  rcases hkey with hunused | hrepeat
  · rw [← eraseDups_filter, ← eraseDups_filter, List.filter_append, List.filter_append,
      List.filter_cons_of_neg (by simpa using hunused)]
  · rw [eraseDups_insert_of_mem hrepeat]

theorem Category.keysInUse_eq_nil {c : Category}
    (h : ∀ key ∈ c.declared, ¬InUse viewports classes key) :
    c.keysInUse viewports classes = [] := by
  unfold keysInUse
  rw [List.filter_eq_nil_iff]
  intro key hkey
  simpa using h key (mem_keys.mp hkey)

namespace Taxonomy

/-- Where a category stands after another one has been put in behind the first `n`. -/
def placeAround (n i : Nat) : Nat :=
  if i < n then i else i + 1

theorem placeAround_of_lt {n i : Nat} (h : i < n) : placeAround n i = i :=
  if_pos h

theorem placeAround_of_le {n i : Nat} (h : n ≤ i) : placeAround n i = i + 1 :=
  if_neg (Nat.not_lt.mpr h)

theorem placeAround_injective (n : Nat) : Function.Injective (placeAround n) := by
  intro i j h
  unfold placeAround at h
  split_ifs at h <;> omega

theorem map_keysInUse (place : Nat → Nat) :
    (t.keysInUse viewports classes).map (Prod.map place id)
      = (t.zipIdx.map fun (c, i) => (place i, c.keysInUse viewports classes)).filter
          (·.2 ≠ []) := by
  have hmap : (t.zipIdx.map fun (c, i) => (place i, c.keysInUse viewports classes))
      = (t.zipIdx.map fun (c, i) => (i, c.keysInUse viewports classes)).map
          (Prod.map place id) := by
    rw [List.map_map]
    rfl
  rw [hmap, List.filter_map]
  rfl

/-- A category without keys in use only moves the categories behind it. -/
theorem keysInUse_insert (before after : Taxonomy) {c : Category}
    (hc : c.keysInUse viewports classes = []) :
    keysInUse (before ++ c :: after) viewports classes
      = (keysInUse (before ++ after) viewports classes).map
          (Prod.map (placeAround before.length) id) := by
  rw [map_keysInUse]
  unfold keysInUse
  rw [List.zipIdx_append, List.zipIdx_append, List.zipIdx_cons, List.map_append, List.map_append,
    List.map_cons, List.filter_append, List.filter_append, List.filter_cons_of_neg (by simp [hc]),
    List.zipIdx_succ, List.map_map]
  congr 2
  · apply List.map_congr_left
    rintro ⟨d, i⟩ hd
    have hi : i < before.length := List.snd_lt_of_mem_zipIdx hd
    exact congrArg (·, _) (placeAround_of_lt hi).symm
  · apply List.map_congr_left
    rintro ⟨d, i⟩ hd
    have hi : 0 + before.length ≤ i := List.le_snd_of_mem_zipIdx hd
    rw [Nat.zero_add] at hi
    exact congrArg (·, _) (placeAround_of_le hi).symm

/-- A category may be replaced by another one with the same keys in use. -/
theorem keysInUse_replace (before after : Taxonomy) {c c' : Category}
    (h : c'.keysInUse viewports classes = c.keysInUse viewports classes) :
    keysInUse (before ++ c' :: after) viewports classes
      = keysInUse (before ++ c :: after) viewports classes := by
  unfold keysInUse
  simp only [List.zipIdx_append, List.zipIdx_cons, List.map_append, List.map_cons, h]

end Taxonomy

namespace Settings

/-- **What no class needs does not show.** An attribute keeps its lines if a category is put in at
any position of a taxonomy that is not empty and no class of the attribute begins with one of its
stems, and if an entry is put in at any position of a category and no class begins with its stem, or
it has been declared further in front. -/
theorem unused_keys_ignored (s : Settings) (a : Attribute) (before after : Taxonomy) :
    (∀ c : Category, before ++ after ≠ [] →
      (∀ key ∈ c.declared, ¬InUse s.viewports (a.combined s.viewports) key) →
      { s with taxonomy := before ++ c :: after }.layout a
        = { s with taxonomy := before ++ after }.layout a) ∧
    (∀ (c c' : Category) (front : List String) (key : String) (back : List String),
      c.declared = front ++ back → c'.declared = front ++ key :: back →
      ¬InUse s.viewports (a.combined s.viewports) key ∨ key ∈ front →
      { s with taxonomy := before ++ c' :: after }.layout a
        = { s with taxonomy := before ++ c :: after }.layout a) := by
  constructor
  · intro c hne hunused
    refine layout_congr rfl rfl rfl (fun _ _ => rfl) ?_
    intro pass hpass
    have hc : c.keysInUse s.viewports pass = [] := by
      apply Category.keysInUse_eq_nil
      intro key hkey huse
      exact hunused key hkey (huse.mono hpass)
    exact Sorted.lines_eq_of_keysInUse (Taxonomy.placeAround_injective before.length) hne (by simp)
      (Taxonomy.keysInUse_insert before after hc) _ _ _
  · intro c c' front key back h h' hkey
    refine layout_congr rfl rfl rfl (fun _ _ => rfl) ?_
    intro pass hpass
    have hkeys : c'.keysInUse s.viewports pass = c.keysInUse s.viewports pass :=
      Category.keysInUse_insert h h' (hkey.imp_left fun hunused huse => hunused (huse.mono hpass))
    apply Sorted.lines_eq_of_keysInUse Function.injective_id (by simp) (by simp)
    rw [Taxonomy.keysInUse_replace before after hkeys, Prod.map_id, List.map_id]

/-- A category that only owns other classes, an entry with a scope, and an entry that stands further
in front and owns a class. -/
theorem unused_keys_ignored_three_ways :
    let a : Attribute := { base := ["p-4", "?"], byViewport := .ofList [("md", ["font-bold"])] }
    let s : Settings := { viewports := ["md", "lg"], mode := .inline, printWidth := 12 }
    let unused := fun key => ¬InUse s.viewports (a.combined s.viewports) key
    let text : Category := ⟨"text", "font- text-*"⟩
    let box : Category := ⟨"box", "p-* m-"⟩
    let grid : Category := ⟨"grid", "gap-* md: p-4x"⟩
    let withScope : Category := ⟨"text", "md:font- font- text-*"⟩
    let withRepeat : Category := ⟨"text", "font- text-* font-"⟩
    let lines := ["md:font-bold", "p-4", "?"]
    { s with taxonomy := [text, box] }.layout a = lines ∧
    ((∀ key ∈ grid.declared, unused key) ∧
      { s with taxonomy := [text, grid, box] }.layout a = lines) ∧
    ((text.declared = [] ++ ["font-", "text-*"] ∧
        withScope.declared = [] ++ "md:font-" :: ["font-", "text-*"] ∧ unused "md:font-") ∧
      { s with taxonomy := [withScope, box] }.layout a = lines) ∧
    (text.declared = ["font-", "text-*"] ++ [] ∧
        withRepeat.declared = ["font-", "text-*"] ++ "font-" :: [] ∧ ¬unused "font-") ∧
      { s with taxonomy := [withRepeat, box] }.layout a = lines := by
  intro a s unused text box grid withScope withRepeat lines
  have hlines : { s with taxonomy := [text, box] }.layout a = lines := by
    unfold layout passLines Settings.sort Sorted.ofClasses
    rw [Taxonomy.ranking_eq_insertionSort]
    decide +kernel
  have hgrid : ∀ key ∈ grid.declared, unused key := by
    rw [show grid.declared = ["gap-*", "md:", "p-4x"] by decide +kernel]
    decide
  have hscoped : unused "md:font-" := by decide
  have hrepeated : ¬unused "font-" := by decide
  have htext : text.declared = ["font-", "text-*"] := by decide +kernel
  have hwithScope : withScope.declared = "md:font-" :: ["font-", "text-*"] := by decide +kernel
  have hwithRepeat : withRepeat.declared = ["font-", "text-*"] ++ ["font-"] := by decide +kernel
  refine ⟨hlines, ⟨hgrid, ?_⟩, ⟨⟨htext, hwithScope, hscoped⟩, ?_⟩,
    ⟨htext, hwithRepeat, hrepeated⟩, ?_⟩
  · exact ((unused_keys_ignored s a [text] [box]).1 grid (by decide) hgrid).trans hlines
  · exact ((unused_keys_ignored s a [] [box]).2 text withScope [] "md:font-" ["font-", "text-*"]
      htext hwithScope (Or.inl hscoped)).trans hlines
  · exact ((unused_keys_ignored s a [] [box]).2 text withRepeat ["font-", "text-*"] "font-" []
      htext hwithRepeat (Or.inr (by decide))).trans hlines

end Settings

end ClassTidy
