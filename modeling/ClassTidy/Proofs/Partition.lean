import ClassTidy.Proofs.Owners
import ClassTidy.Settings.Basic
import ClassTidy.Shelves.Basic

/-!
# Sorted classes as a partition

Classes are filed one after the other, each into a bucket that is found by two positions. What the
shelves hold after any number of classes is said by `filled`: every bucket has the classes whose
owner names it, in their order. Filing one more class keeps this (`file_filled`), so a whole run
ends in it:

> `ofClasses_eq_filled`: sorted classes are the filled shelves of the taxonomy.

Read from the first shelf to the last, the filled shelves are a stable sort of the classes:

> `inOrder_filled`: the classes in the order of their lines are the classes sorted by `ownerRank`.

Nothing is lost or repeated on the way, and since positions and keys say the same of a bucket
(`Taxonomy.Declares`), the buckets can be told by their keys:

> `ofClasses_partition`: each key of each category has exactly the classes that it owns.
-/

namespace ClassTidy

variable {t : Taxonomy} {viewports : List String}

/-- Changing the member at one position of a list that is made from members and positions. -/
private theorem modify_map_zipIdx {α β : Type} (f : α × Nat → β) (g : β → β) (i : Nat)
    (l : List α) :
    (l.zipIdx.map f).modify i g = l.zipIdx.map fun p => if i = p.2 then g (f p) else f p := by
  apply List.ext_getElem?
  intro n
  rw [List.getElem?_modify, List.getElem?_map, List.getElem?_map, List.getElem?_zipIdx]
  cases l[n]? with
  | none => rfl
  | some a =>
    show some (if i = n then g (f (a, 0 + n)) else f (a, 0 + n)) = _
    rw [Nat.zero_add]
    rfl

private theorem map_zipIdx_fst {α β : Type} (f : α → β) (l : List α) :
    l.zipIdx.map (fun p => f p.1) = l.map f := by
  rw [← List.zipIdx_map_fst 0 l, List.map_map, List.zipIdx_map_fst]
  rfl

/-- A selection from a list with one more member at the end. -/
private theorem filter_concat {α : Type} (p : α → Bool) (l : List α) (a : α) :
    (l ++ [a]).filter p = if p a = true then l.filter p ++ [a] else l.filter p := by
  rw [List.filter_append]
  split
  next h => rw [List.filter_cons_of_pos h, List.filter_nil]
  next h => rw [List.filter_cons_of_neg h, List.filter_nil, List.append_nil]

/-- The owner of the class names the bucket at these two positions. -/
def ownedAt (t : Taxonomy) (viewports : List String) (i j : Nat) (cls : String) : Bool :=
  (owner? t.ranking viewports cls).any fun e => e.category == i && e.bucket == j

/-- No entry owns the class. -/
def unowned (t : Taxonomy) (viewports : List String) (cls : String) : Bool :=
  (owner? t.ranking viewports cls).isNone

namespace Sorted

/-- The shelves of the taxonomy with each class of the list in the bucket of its owner. -/
def filled (t : Taxonomy) (viewports classes : List String) : Sorted :=
  { shelves := t.zipIdx.map fun (c, i) =>
      ⟨c.name, c.keys.zipIdx.map fun (key, j) => ⟨key, classes.filter (ownedAt t viewports i j)⟩⟩
    uncategorized := classes.filter (unowned t viewports) }

/-- Filing one class keeps the shelves filled. -/
theorem file_filled (t : Taxonomy) (viewports done : List String) (cls : String) :
    file t.ranking viewports (filled t viewports done) cls
      = filled t viewports (done ++ [cls]) := by
  unfold file filled
  cases ho : owner? t.ranking viewports cls with
  | none =>
    have hat : ∀ i j, ¬ownedAt t viewports i j cls = true := by simp [ownedAt, ho]
    have hun : unowned t viewports cls = true := by simp [unowned, ho]
    simp only [filter_concat, if_neg (hat _ _), if_pos hun]
  | some e =>
    have hat : ∀ i j, ownedAt t viewports i j cls = true ↔ e.category = i ∧ e.bucket = j := by
      simp [ownedAt, ho]
    have hun : ¬unowned t viewports cls = true := by simp [unowned, ho]
    simp only [modify_map_zipIdx, filter_concat, if_neg hun, Sorted.mk.injEq, and_true]
    -- Only the shelf at the first position changes, and on it only the bucket at the second one.
    apply List.map_congr_left
    rintro ⟨c, i⟩ -
    by_cases hi : e.category = i
    · rw [if_pos hi, Shelf.push, modify_map_zipIdx]
      apply congrArg (Shelf.mk c.name)
      apply List.map_congr_left
      rintro ⟨key, j⟩ -
      by_cases hj : e.bucket = j
      · rw [if_pos hj, if_pos ((hat i j).mpr ⟨hi, hj⟩), Bucket.push]
      · rw [if_neg hj, if_neg fun h => hj ((hat i j).mp h).2]
    · rw [if_neg hi]
      apply congrArg (Shelf.mk c.name)
      apply List.map_congr_left
      rintro ⟨key, j⟩ -
      rw [if_neg fun h => hi ((hat i j).mp h).1]

/-- Filing a list of classes fills the shelves with them. -/
theorem foldl_file_filled (t : Taxonomy) (viewports done classes : List String) :
    classes.foldl (file t.ranking viewports) (filled t viewports done)
      = filled t viewports (done ++ classes) := by
  induction classes generalizing done with
  | nil => rw [List.foldl_nil, List.append_nil]
  | cons cls classes ih =>
    rw [List.foldl_cons, file_filled, ih, List.append_assoc, List.singleton_append]

/-- Vacant shelves are filled with nothing. -/
theorem vacant_eq_filled (t : Taxonomy) (viewports : List String) :
    vacant t = filled t viewports [] := by
  unfold vacant filled Taxonomy.shelfKeys
  simp only [List.filter_nil, List.map_map, Function.comp_def,
    map_zipIdx_fst fun key => Bucket.mk key [],
    map_zipIdx_fst fun c : Category => Shelf.mk c.name (c.keys.map fun key => Bucket.mk key [])]

theorem getElem?_shelves_filled (classes : List String) (i : Nat) :
    (filled t viewports classes).shelves[i]? = t[i]?.map fun c => ⟨c.name,
      c.keys.zipIdx.map fun (key, j) => ⟨key, classes.filter (ownedAt t viewports i j)⟩⟩ := by
  show (t.zipIdx.map _)[i]? = _
  rw [List.getElem?_map, List.getElem?_zipIdx, Option.map_map, Nat.zero_add]
  rfl

theorem ofClasses_eq_filled {classes : List String} (hc : classes ≠ []) (ht : t ≠ []) :
    ofClasses t viewports classes = filled t viewports classes := by
  rw [ofClasses, if_neg (by simp [hc, ht]), vacant_eq_filled t viewports, foldl_file_filled,
    List.nil_append]

/-- Without classes or categories nothing is sorted. -/
theorem ofClasses_eq_empty {classes : List String} (h : classes = [] ∨ t = []) :
    ofClasses t viewports classes = {} := by
  rw [ofClasses, if_pos]
  rw [Bool.or_eq_true, List.isEmpty_iff, List.isEmpty_iff]
  exact h

/-- Classes are sorted onto filled shelves, or there is nothing to sort. -/
theorem ofClasses_cases (t : Taxonomy) (viewports classes : List String) :
    ofClasses t viewports classes = {} ∨
      ofClasses t viewports classes = filled t viewports classes := by
  by_cases h : classes = [] ∨ t = []
  · exact Or.inl (ofClasses_eq_empty h)
  · exact Or.inr (ofClasses_eq_filled (not_or.mp h).1 (not_or.mp h).2)

/-- A group on a shelf is what its bucket takes of the classes. -/
theorem exists_filter_of_mem_groups {classes group : List String} {i : Nat} {shelf : Shelf}
    (hshelf : (ofClasses t viewports classes).shelves[i]? = some shelf)
    (hgroup : group ∈ shelf.groups) :
    ∃ j, group = classes.filter (ownedAt t viewports i j) := by
  rcases ofClasses_cases t viewports classes with h | h
  · rw [h] at hshelf
    exact absurd hshelf (by simp)
  · rw [h, getElem?_shelves_filled] at hshelf
    obtain ⟨c, -, rfl⟩ := Option.map_eq_some_iff.mp hshelf
    obtain ⟨bucket, hbucket, rfl⟩ := List.mem_map.mp (List.mem_filter.mp hgroup).1
    obtain ⟨⟨key, j⟩, -, rfl⟩ := List.mem_map.mp hbucket
    exact ⟨j, rfl⟩

/-- The groups on the shelves hold classes that have been sorted. -/
theorem mem_of_mem_groups {classes group : List String} {shelf : Shelf} {cls : String}
    (hshelf : shelf ∈ (ofClasses t viewports classes).shelves) (hgroup : group ∈ shelf.groups)
    (hcls : cls ∈ group) : cls ∈ classes := by
  obtain ⟨i, hshelf⟩ := List.mem_iff_getElem?.mp hshelf
  obtain ⟨j, rfl⟩ := exists_filter_of_mem_groups hshelf hgroup
  exact (List.mem_filter.mp hcls).1

/-- The classes on a shelf are owned by the category at its position. -/
theorem owner_of_mem_groups {classes group : List String} {i : Nat} {shelf : Shelf} {cls : String}
    (hshelf : (ofClasses t viewports classes).shelves[i]? = some shelf)
    (hgroup : group ∈ shelf.groups) (hcls : cls ∈ group) :
    ∃ e, owner? t.ranking viewports cls = some e ∧ e.category = i := by
  obtain ⟨j, rfl⟩ := exists_filter_of_mem_groups hshelf hgroup
  have hat : ownedAt t viewports i j cls = true := (List.mem_filter.mp hcls).2
  obtain ⟨e, he, hpos⟩ := (Option.any_eq_true _ _).mp hat
  rw [Bool.and_eq_true, beq_iff_eq] at hpos
  exact ⟨e, he, hpos.1⟩

/-- The uncategorized classes have no owner. -/
theorem owner_of_mem_uncategorized {classes : List String} {cls : String}
    (h : cls ∈ (ofClasses t viewports classes).uncategorized) :
    owner? t.ranking viewports cls = none := by
  rcases ofClasses_cases t viewports classes with he | he
  · rw [he] at h
    exact absurd h List.not_mem_nil
  · rw [he] at h
    exact Option.isNone_iff_eq_none.mp (List.mem_filter.mp h).2

end Sorted

/-! ## The order of the shelves -/

/-- Classes without an owner come before all others or after them. -/
def unownedRank : Placement → Nat ×ₗ Nat ×ₗ Nat
  | .before => toLex (0, toLex (0, 0))
  | .after => toLex (2, toLex (0, 0))

/-- Where the owner of a class puts it: the position of its category, and in the category that of
its key. -/
def ownerRank (t : Taxonomy) (viewports : List String) (placement : Placement) (cls : String) :
    Nat ×ₗ Nat ×ₗ Nat :=
  match owner? t.ranking viewports cls with
  | some e => toLex (1, toLex (e.category, e.bucket))
  | none => unownedRank placement

/-- The ranks of the buckets of a taxonomy, in the order of the shelves. -/
def bucketRanks (t : Taxonomy) : List (Nat ×ₗ Nat ×ₗ Nat) :=
  t.zipIdx.flatMap fun (c, i) => c.keys.zipIdx.map fun (_, j) => toLex (1, toLex (i, j))

/-- All ranks that a class can have, in order. -/
def ranks (t : Taxonomy) : Placement → List (Nat ×ₗ Nat ×ₗ Nat)
  | .before => unownedRank .before :: bucketRanks t
  | .after => bucketRanks t ++ [unownedRank .after]

/-- The positions in a list ascend. -/
private theorem pairwise_zipIdx {α : Type} (l : List α) :
    l.zipIdx.Pairwise fun p q => p.2 < q.2 := by
  rw [← List.pairwise_map (f := Prod.snd), List.zipIdx_map_snd]
  exact List.pairwise_lt_range'

theorem pairwise_bucketRanks (t : Taxonomy) : (bucketRanks t).Pairwise (· < ·) := by
  refine List.pairwise_flatMap.mpr ⟨?_, ?_⟩
  · rintro ⟨c, i⟩ -
    refine List.pairwise_map.mpr ((pairwise_zipIdx c.keys).imp ?_)
    intro p q hlt
    simp [Prod.Lex.toLex_lt_toLex, hlt]
  · refine (pairwise_zipIdx t).imp ?_
    intro p q hlt r hr r' hr'
    obtain ⟨x, -, rfl⟩ := List.mem_map.mp hr
    obtain ⟨y, -, rfl⟩ := List.mem_map.mp hr'
    simp [Prod.Lex.toLex_lt_toLex, hlt]

private theorem exists_of_mem_bucketRanks {r : Nat ×ₗ Nat ×ₗ Nat} (h : r ∈ bucketRanks t) :
    ∃ i j, r = toLex (1, toLex (i, j)) := by
  obtain ⟨⟨c, i⟩, -, hr⟩ := List.mem_flatMap.mp h
  obtain ⟨⟨key, j⟩, -, rfl⟩ := List.mem_map.mp hr
  exact ⟨i, j, rfl⟩

theorem pairwise_ranks (t : Taxonomy) (placement : Placement) :
    (ranks t placement).Pairwise (· < ·) := by
  cases placement with
  | before =>
    refine List.pairwise_cons.mpr ⟨?_, pairwise_bucketRanks t⟩
    intro r hr
    obtain ⟨i, j, rfl⟩ := exists_of_mem_bucketRanks hr
    simp [unownedRank, Prod.Lex.toLex_lt_toLex]
  | after =>
    refine List.pairwise_append.mpr ⟨pairwise_bucketRanks t, List.pairwise_singleton .., ?_⟩
    intro r hr r' hr'
    obtain ⟨i, j, rfl⟩ := exists_of_mem_bucketRanks hr
    rw [List.mem_singleton.mp hr']
    simp [unownedRank, Prod.Lex.toLex_lt_toLex]

/-- Every class has one of the ranks: its owner, if there is one, names a bucket that exists. -/
theorem ownerRank_mem_ranks (t : Taxonomy) (viewports : List String) (placement : Placement)
    (cls : String) : ownerRank t viewports placement cls ∈ ranks t placement := by
  unfold ownerRank
  cases ho : owner? t.ranking viewports cls with
  | none =>
    cases placement with
    | before => exact List.mem_cons_self ..
    | after => exact List.mem_append_right _ (List.mem_singleton.mpr rfl)
  | some e =>
    obtain ⟨c, hc, hkey⟩ := Taxonomy.declares_of_owner ho
    have hmem : toLex (1, toLex (e.category, e.bucket)) ∈ bucketRanks t :=
      List.mem_flatMap.mpr ⟨(c, e.category), List.mem_zipIdx_iff_getElem?.mpr hc,
        List.mem_map.mpr ⟨(e.key, e.bucket), List.mem_zipIdx_iff_getElem?.mpr hkey, rfl⟩⟩
    cases placement with
    | before => exact List.mem_cons_of_mem _ hmem
    | after => exact List.mem_append_left _ hmem

/-- The bucket at two positions holds the classes of the rank that the positions make. -/
theorem filter_ownedAt (t : Taxonomy) (viewports : List String) (placement : Placement) (i j : Nat)
    (classes : List String) : classes.filter (ownedAt t viewports i j)
      = classes.filter (ownerRank t viewports placement · = toLex (1, toLex (i, j))) := by
  apply List.filter_congr
  intro cls _
  unfold ownedAt ownerRank
  cases owner? t.ranking viewports cls with
  | none => cases placement <;> simp [unownedRank]
  | some e => exact Bool.eq_iff_iff.mpr (by simp)

/-- The classes without an owner are those of one rank. -/
theorem filter_unowned (t : Taxonomy) (viewports : List String) (placement : Placement)
    (classes : List String) : classes.filter (unowned t viewports)
      = classes.filter (ownerRank t viewports placement · = unownedRank placement) := by
  apply List.filter_congr
  intro cls _
  unfold unowned ownerRank
  cases owner? t.ranking viewports cls with
  | none => simp
  | some e => cases placement <;> simp [unownedRank]

namespace Sorted

/-- The classes in the order of their lines: shelf after shelf and bucket after bucket, with the
uncategorized classes before or after all others. -/
def inOrder (s : Sorted) (placement : Placement) : List String :=
  let categorized := s.shelves.flatMap fun shelf => shelf.buckets.flatMap (·.classes)
  match placement with
  | .before => s.uncategorized ++ categorized
  | .after => categorized ++ s.uncategorized

/-- All classes stand in the order of their lines. -/
@[simp] theorem length_inOrder (s : Sorted) (placement : Placement) :
    (s.inOrder placement).length = s.size := by
  have hshelves : (s.shelves.flatMap fun shelf => shelf.buckets.flatMap (·.classes)).length
      = (s.shelves.flatMap (·.buckets)).foldr (·.classes.length + ·) 0 := by
    rw [← List.flatMap_assoc]
    induction s.shelves.flatMap (·.buckets) with
    | nil => rfl
    | cons bucket buckets ih => rw [List.flatMap_cons, List.length_append, ih, List.foldr_cons]
  unfold inOrder size
  cases placement with
  | before => rw [List.length_append, hshelves]
  | after => rw [List.length_append, hshelves, Nat.add_comm]

/-- **Filled shelves are a stable sort**: in the order of their lines the classes are sorted by
what owns them. -/
theorem inOrder_filled (t : Taxonomy) (viewports classes : List String) (placement : Placement) :
    (filled t viewports classes).inOrder placement
      = sortBy (ownerRank t viewports placement) classes := by
  rw [← flatMap_filter_eq_sortBy (pairwise_ranks t placement)
    fun cls _ => ownerRank_mem_ranks t viewports placement cls]
  have hshelves : ((filled t viewports classes).shelves.flatMap fun shelf =>
        shelf.buckets.flatMap (·.classes))
      = (bucketRanks t).flatMap fun r =>
          classes.filter (ownerRank t viewports placement · = r) := by
    simp only [filled, bucketRanks, List.flatMap_assoc, List.flatMap_map,
      filter_ownedAt t viewports placement]
  have hrest : (filled t viewports classes).uncategorized
      = classes.filter (ownerRank t viewports placement · = unownedRank placement) :=
    filter_unowned t viewports placement classes
  unfold inOrder
  rw [hshelves, hrest]
  cases placement with
  | before => rw [ranks, List.flatMap_cons]
  | after => rw [ranks, List.flatMap_append, List.flatMap_singleton]

/-- Lists that agree by what owns their members are sorted onto the same shelves. -/
theorem ofClasses_congr {placement : Placement} {classes classes' : List String}
    (h : AgreeBy (ownerRank t viewports placement) classes classes') :
    ofClasses t viewports classes = ofClasses t viewports classes' := by
  by_cases hempty : classes = [] ∨ t = []
  · rw [ofClasses_eq_empty hempty, ofClasses_eq_empty (hempty.imp_left h.eq_nil_iff.mp)]
  · obtain ⟨hc, ht⟩ := not_or.mp hempty
    rw [ofClasses_eq_filled hc ht, ofClasses_eq_filled (mt h.eq_nil_iff.mpr hc) ht]
    unfold filled
    simp only [filter_ownedAt t viewports placement, filter_unowned t viewports placement, h _]

end Sorted

/-! ## Buckets told by their keys -/

/-- The owner of the class is an entry with this key in the category at this position. -/
def ownedBy (t : Taxonomy) (viewports : List String) (i : Nat) (key : String) (cls : String) :
    Bool :=
  (owner? t.ranking viewports cls).any fun e => e.category == i && e.key == key

/-- In a category of the taxonomy, an owner names a bucket by position or by key alike. -/
theorem ownedAt_eq_ownedBy {i j : Nat} {c : Category} {key : String} (hc : t[i]? = some c)
    (hkey : c.keys[j]? = some key) (cls : String) :
    ownedAt t viewports i j cls = ownedBy t viewports i key cls := by
  unfold ownedAt ownedBy
  cases ho : owner? t.ranking viewports cls with
  | none => rfl
  | some e =>
    obtain ⟨c', hc', he⟩ := Taxonomy.declares_of_owner ho
    rw [Option.any_some, Option.any_some]
    by_cases hi : e.category = i
    · rw [hi, hc] at hc'
      obtain rfl := Option.some.inj hc'
      -- The owner stands at its own position among the keys, and no key stands there twice.
      have hiff : e.bucket = j ↔ e.key = key := Category.position_eq_iff he hkey
      exact Bool.eq_iff_iff.mpr (by simp [hiff])
    · rw [beq_eq_false_iff_ne.mpr hi, Bool.false_and, Bool.false_and]

/-- The classes in the buckets of a category, told by the keys. -/
theorem map_filter_ownedAt {i : Nat} {c : Category} (hc : t[i]? = some c) (classes : List String) :
    c.keys.zipIdx.map (fun (_, j) => classes.filter (ownedAt t viewports i j))
      = c.keys.map fun key => classes.filter (ownedBy t viewports i key) := by
  rw [← map_zipIdx_fst fun key => classes.filter (ownedBy t viewports i key)]
  apply List.map_congr_left
  intro ⟨key, j⟩ hkj
  have hkey : c.keys[j]? = some key := List.mem_zipIdx_iff_getElem?.mp hkj
  apply List.filter_congr
  intro cls _
  exact ownedAt_eq_ownedBy hc hkey cls

namespace Sorted

/-- **Sorting is a partition.** There is one shelf per category, in order and with its name, and on
it one bucket per distinct key, in order of first declaration. The bucket of a key has exactly the
classes that the key owns in its category, and the rest is uncategorized: unaltered, in their order
and with repeats. No class is lost or counted twice. Without classes or categories nothing is
sorted. -/
theorem ofClasses_partition (t : Taxonomy) (viewports classes : List String) :
    (classes ≠ [] → t ≠ [] →
      ofClasses t viewports classes =
        { shelves := t.zipIdx.map fun (c, i) =>
            ⟨c.name, c.keys.map fun key => ⟨key, classes.filter (ownedBy t viewports i key)⟩⟩
          uncategorized := classes.filter (unowned t viewports) } ∧
      (ofClasses t viewports classes).size = classes.length) ∧
    (classes = [] ∨ t = [] → ofClasses t viewports classes = {}) := by
  constructor
  · intro hc ht
    rw [ofClasses_eq_filled hc ht]
    constructor
    · apply congrArg (Sorted.mk · _)
      apply List.map_congr_left
      intro ⟨c, i⟩ hci
      have hi : t[i]? = some c := List.mem_zipIdx_iff_getElem?.mp hci
      apply congrArg (Shelf.mk c.name)
      rw [← map_zipIdx_fst fun key => Bucket.mk key (classes.filter (ownedBy t viewports i key))]
      apply List.map_congr_left
      intro ⟨key, j⟩ hkj
      have hj : c.keys[j]? = some key := List.mem_zipIdx_iff_getElem?.mp hkj
      apply congrArg (Bucket.mk key)
      apply List.filter_congr
      intro cls _
      exact ownedAt_eq_ownedBy hi hj cls
    · rw [← length_inOrder _ .after, inOrder_filled]
      exact (sortBy_perm _ classes).length_eq
  · intro h
    exact ofClasses_eq_empty h

/-- Two categories of one name, an entry declared twice, a literal beside a wildcard, and a class
without an owner. -/
theorem ofClasses_partition_repeats :
    let t : Taxonomy := [⟨"space", "p-* p- p-*"⟩, ⟨"none", ""⟩, ⟨"space", "m-"⟩]
    let classes := ["md:p-4", "m-1", "p-${x}", "?", "p-4"]
    classes ≠ [] ∧ t ≠ [] ∧
      ofClasses t ["", "md"] classes =
        ⟨[⟨"space", [⟨"p-*", ["md:p-4", "p-${x}", "p-4"]⟩, ⟨"p-", []⟩]⟩, ⟨"none", []⟩,
          ⟨"space", [⟨"m-", ["m-1"]⟩]⟩], ["?"]⟩ ∧
      (ofClasses t ["", "md"] classes).size = 5 := by
  intro t classes
  obtain ⟨hshelves, hsize⟩ := (ofClasses_partition t ["", "md"] classes).1 (by decide) (by decide)
  refine ⟨by decide, by decide, ?_, hsize⟩
  rw [hshelves]
  unfold ownedBy unowned
  rw [Taxonomy.ranking_eq_insertionSort]
  decide +kernel

end Sorted

end ClassTidy
