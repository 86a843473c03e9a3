import ClassTidy.Proofs.LongestStem
import ClassTidy.Proofs.Partition

/-!
# The positions that entries carry

The keys of a category, and the position of an entry among them, are defined from all that the
category declares. They can as well be given out in one pass over the declarations: a repeat gets
the position of the key that is there already, and a new key is put at the end. Nothing is ever put
before a key, so a position that has been given out stays good (`idxOf_eraseDups_concat`), and after
any number of declarations the pass has the keys and the positions of these (`foldl_declare`):

> `ofTaxonomy_eq`: one pass makes the keys of all categories and all entries.

Sorting moves the entries and leaves their positions alone, and filing classes leaves the buckets
where they are. So a position can be followed without a look at the length of a list:

> `Declares.getElem_keys`: both positions are in range, and the key of the entry stands there;
> `Declares.exists_bucket`: so does its bucket, whatever has been filed;
> `positions_lead_to_buckets`: all of it together.
-/

namespace ClassTidy

/-! ## One pass over the declarations -/

/-- What has been read of a taxonomy. -/
structure Index where
  /-- The name and the keys of each category. -/
  categories : List (String × List String) := []
  entries : List Entry := []

namespace Index

/-- Gives a key its position: that of an equal one among the keys, or the next. -/
def place (keys : List String) (key : String) : List String × Nat :=
  match keys.idxOf? key with
  | some i => (keys, i)
  | none => (keys ++ [key], keys.length)

/-- Reads one more entry of the category at a position, behind the keys of the category and the
entries that have been read. -/
def declare (position : Nat) (done : List String × List Entry) (key : String) :
    List String × List Entry :=
  let (keys, bucket) := place done.1 key
  (keys, done.2 ++ [⟨position, bucket, key⟩])

/-- Reads one more category. -/
def push (x : Index) (c : Category) : Index :=
  let (keys, entries) := c.declared.foldl (declare x.categories.length) ([], x.entries)
  ⟨x.categories ++ [(c.name, keys)], entries⟩

/-- Reads a taxonomy from the first entry to the last. -/
def ofTaxonomy (t : Taxonomy) : Index :=
  t.foldl push {}

/-- A key is placed where it stands among the distinct keys up to it. -/
theorem place_eraseDups (keys : List String) (key : String) :
    place keys.eraseDups key
      = ((keys ++ [key]).eraseDups, (keys ++ [key]).eraseDups.idxOf key) := by
  unfold place
  rw [eraseDups_concat]
  cases hfound : keys.eraseDups.idxOf? key with
  | none =>
    have hnew : key ∉ keys.eraseDups := List.idxOf?_eq_none_iff.mp hfound
    rw [if_neg (mt List.mem_eraseDups.mpr hnew), List.idxOf_append_of_notMem hnew,
      List.idxOf_cons_self, Nat.add_zero]
  | some i =>
    have hmem : key ∈ keys.eraseDups := by
      obtain ⟨hi, rfl, -⟩ := List.idxOf?_eq_some_iff.mp hfound
      exact List.getElem_mem hi
    rw [if_pos (List.mem_eraseDups.mp hmem), List.idxOf_eq_getD_idxOf?, hfound, Option.getD_some]

/-- **After any number of declarations** the keys are the distinct ones among these, and every entry
has the position of its key. -/
theorem foldl_declare (position : Nat) (entries : List Entry) (declared : List String) :
    declared.foldl (declare position) ([], entries)
      = (declared.eraseDups,
          entries ++ declared.map fun key => ⟨position, declared.eraseDups.idxOf key, key⟩) := by
  induction declared using List.reverseRecOn with
  | nil => simp
  | append_singleton declared key ih =>
    -- The positions that have been given out are those among the keys with one more as well.
    have hstay : declared.map (fun k => Entry.mk position (declared.eraseDups.idxOf k) k)
        = declared.map fun k => ⟨position, (declared ++ [key]).eraseDups.idxOf k, k⟩ := by
      apply List.map_congr_left
      intro k hk
      rw [idxOf_eraseDups_concat hk]
    rw [List.foldl_append, ih, List.foldl_cons, List.foldl_nil, declare, place_eraseDups, hstay,
      List.map_append, List.map_singleton, ← List.append_assoc]

/-- One more category keeps an index complete. -/
theorem push_eq (t : Taxonomy) (c : Category) :
    push ⟨t.shelfKeys, t.entries⟩ c
      = ⟨Taxonomy.shelfKeys (t ++ [c]), Taxonomy.entries (t ++ [c])⟩ := by
  have hlength : t.shelfKeys.length = t.length := List.length_map ..
  unfold push
  rw [hlength, foldl_declare]
  simp [Taxonomy.shelfKeys, Taxonomy.entries, Category.entries, Category.keys, List.zipIdx_append]

/-- **One pass makes all keys and all entries.** -/
theorem ofTaxonomy_eq (t : Taxonomy) : ofTaxonomy t = ⟨t.shelfKeys, t.entries⟩ := by
  induction t using List.reverseRecOn with
  | nil => rfl
  | append_singleton t c ih =>
    rw [ofTaxonomy, List.foldl_append, ← ofTaxonomy, ih, List.foldl_cons, List.foldl_nil, push_eq]

end Index

/-! ## Where the positions lead -/

/-- A key is its stem and a star behind it, or it does not end in a star and is its stem. -/
theorem stem_cases (key : String) :
    key.toList = (stem key).toList ++ ['*'] ∨ (stem key = key ∧ ¬['*'] <:+ key.toList) := by
  unfold stem
  split
  next hstar =>
    left
    rw [isWildcard, beq_iff_eq] at hstar
    rw [String.toList_ofList, List.dropLast_append_getLast? _ hstar]
  next hstar =>
    right
    refine ⟨rfl, ?_⟩
    rintro ⟨front, hfront⟩
    apply hstar
    rw [isWildcard, ← hfront, List.getLast?_append, beq_iff_eq]
    rfl

namespace Taxonomy

variable {t : Taxonomy} {e e' : Entry}

/-- The entries are the declared ones in their order and with repeats, each with the position of its
category. -/
theorem map_entries (t : Taxonomy) : t.entries.map (fun e => (e.category, e.key))
    = t.zipIdx.flatMap fun (c, i) => c.declared.map (i, ·) := by
  unfold entries Category.entries
  rw [List.map_flatMap]
  apply List.flatMap_congr
  rintro ⟨c, i⟩ -
  rw [List.map_map]
  rfl

/-- **Both positions are in range**, and the key of the entry stands there. -/
theorem Declares.getElem_keys (h : t.Declares e) :
    ∃ (hi : e.category < t.shelfKeys.length) (hj : e.bucket < t.shelfKeys[e.category].2.length),
      t.shelfKeys[e.category].2[e.bucket] = e.key := by
  obtain ⟨c, hc, hkey⟩ := h
  have hshelf : t.shelfKeys[e.category]? = some (c.name, c.keys) := by
    rw [shelfKeys, List.getElem?_map, hc]
    rfl
  obtain ⟨hi, hshelf⟩ := List.getElem?_eq_some_iff.mp hshelf
  refine ⟨hi, ?_⟩
  simp only [hshelf]
  exact List.getElem?_eq_some_iff.mp hkey

/-- Within a category, the position among the keys tells the key. -/
theorem Declares.bucket_eq_iff (h : t.Declares e) (h' : t.Declares e')
    (hcategory : e.category = e'.category) : e.bucket = e'.bucket ↔ e.key = e'.key := by
  obtain ⟨c, hc, hkey⟩ := h
  obtain ⟨c', hc', hkey'⟩ := h'
  rw [hcategory, hc'] at hc
  obtain rfl := Option.some.inj hc
  exact Category.position_eq_iff hkey hkey'

/-- **The bucket is there**, however many classes have been filed before. -/
theorem Declares.exists_bucket (h : t.Declares e) (viewports filed : List String) :
    ∃ shelf bucket,
      (filed.foldl (Sorted.file t.ranking viewports) (.vacant t)).shelves[e.category]?
        = some shelf ∧
      shelf.buckets[e.bucket]? = some bucket ∧ bucket.key = e.key := by
  obtain ⟨c, hc, hkey⟩ := h
  rw [Sorted.vacant_eq_filled t viewports, Sorted.foldl_file_filled, List.nil_append]
  have hshelf := @Sorted.getElem?_shelves_filled t viewports filed e.category
  rw [hc, Option.map_some] at hshelf
  refine ⟨_, ⟨e.key, filed.filter (ownedAt t viewports e.category e.bucket)⟩, hshelf, ?_, rfl⟩
  rw [List.getElem?_map, List.getElem?_zipIdx, hkey, Nat.zero_add]
  rfl

/-- **Positions lead to buckets.** One pass over the declarations makes the layout of the shelves
and the entries. The layout has one element for each category, in order and with its name; its keys
are the declared ones, each once, in the order in which they occur first. The ranking is a stable
sort of all declared entries by the length of their stems, longest first. Of each of its entries the
stem is the key less one final star; the category and the bucket are in range, and the key stands
there; and entries have the same category and bucket exactly if they have the same category and key.
So whatever has been filed, the bucket of the owner of a class is found. -/
theorem positions_lead_to_buckets (t : Taxonomy) :
    Index.ofTaxonomy t = ⟨t.shelfKeys, t.entries⟩ ∧
    (t.shelfKeys.length = t.length ∧
      ∀ (i : Nat) (c : Category), t[i]? = some c →
        ∃ keys : List String, t.shelfKeys[i]? = some (c.name, keys) ∧
          (∀ key, key ∈ keys ↔ key ∈ c.declared) ∧
          keys.Pairwise fun key key' => c.declared.idxOf key < c.declared.idxOf key') ∧
    (t.entries.map (fun e => (e.category, e.key))
        = (t.zipIdx.flatMap fun (c, i) => c.declared.map (i, ·)) ∧
      (t.ranking.Pairwise fun e e' => e'.stem.length ≤ e.stem.length) ∧
      ∀ n, t.ranking.filter (·.stem.length = n) = t.entries.filter (·.stem.length = n)) ∧
    (∀ e ∈ t.ranking,
      (e.key.toList = e.stem.toList ++ ['*'] ∨ (e.stem = e.key ∧ ¬['*'] <:+ e.key.toList)) ∧
      (∃ (hi : e.category < t.shelfKeys.length) (hj : e.bucket < t.shelfKeys[e.category].2.length),
        t.shelfKeys[e.category].2[e.bucket] = e.key) ∧
      ∀ e' ∈ t.ranking, e.category = e'.category ∧ e.bucket = e'.bucket ↔
        e.category = e'.category ∧ e.key = e'.key) ∧
    ∀ (viewports filed : List String) (cls : String) (e : Entry),
      owner? t.ranking viewports cls = some e → ∃ (shelf : Shelf) (bucket : Bucket),
        (filed.foldl (Sorted.file t.ranking viewports) (.vacant t)).shelves[e.category]?
          = some shelf ∧
        shelf.buckets[e.bucket]? = some bucket ∧ bucket.key = e.key := by
  refine ⟨Index.ofTaxonomy_eq t, ⟨List.length_map .., ?_⟩, ⟨map_entries t, ?_, ?_⟩, ?_, ?_⟩
  · intro i c hc
    refine ⟨c.keys, ?_, fun key => Category.mem_keys, pairwise_idxOf_eraseDups c.declared⟩
    rw [shelfKeys, List.getElem?_map, hc]
    rfl
  · exact pairwise_ranking t
  · exact filter_ranking t
  · intro e he
    have hdeclares : t.Declares e := mem_ranking_iff.mp he
    refine ⟨stem_cases e.key, hdeclares.getElem_keys, ?_⟩
    intro e' he'
    exact and_congr_right fun hcategory =>
      hdeclares.bucket_eq_iff (mem_ranking_iff.mp he') hcategory
  · intro viewports filed cls e howner
    exact (declares_of_owner howner).exists_bucket viewports filed

/-- A key with a star and without, a repeat, a lone star, a category without entries, and two
categories of one name. -/
theorem positions_lead_to_buckets_repeats :
    let t : Taxonomy := [⟨"space", "p-* p- p-* *"⟩, ⟨"none", ""⟩, ⟨"space", "p-x* p-"⟩]
    let c : Category := ⟨"space", "p-x* p-"⟩
    let star : Entry := ⟨0, 0, "p-*"⟩
    let literal : Entry := ⟨2, 1, "p-"⟩
    t.entries = [star, ⟨0, 1, "p-"⟩, star, ⟨0, 2, "*"⟩, ⟨2, 0, "p-x*"⟩, literal] ∧
    (t[2]? = some c ∧ star ∈ t.ranking ∧ literal ∈ t.ranking ∧
      owner? t.ranking ["md"] "md:p-4" = some star) ∧
    (∃ keys : List String, t.shelfKeys[2]? = some ("space", keys) ∧
      (∀ key, key ∈ keys ↔ key ∈ c.declared) ∧
      keys.Pairwise fun key key' => c.declared.idxOf key < c.declared.idxOf key') ∧
    star.key.toList = star.stem.toList ++ ['*'] ∧
    (literal.stem = literal.key ∧ ¬['*'] <:+ literal.key.toList) ∧
    (∃ (hi : literal.category < t.shelfKeys.length)
        (hj : literal.bucket < t.shelfKeys[literal.category].2.length),
      t.shelfKeys[literal.category].2[literal.bucket] = literal.key) ∧
    (star.category = literal.category ∧ star.bucket = literal.bucket ↔
      star.category = literal.category ∧ star.key = literal.key) ∧
    ∃ (shelf : Shelf) (bucket : Bucket),
      (["?", "p-2"].foldl (Sorted.file t.ranking ["md"]) (.vacant t)).shelves[star.category]?
        = some shelf ∧
      shelf.buckets[star.bucket]? = some bucket ∧ bucket.key = star.key := by
  intro t c star literal
  have hentries : t.entries
      = [star, ⟨0, 1, "p-"⟩, star, ⟨0, 2, "*"⟩, ⟨2, 0, "p-x*"⟩, literal] := by decide +kernel
  have hranked : ∀ e ∈ t.entries, e ∈ t.ranking := by
    intro e he
    exact mem_ranking_iff.mpr (mem_entries_iff.mp he)
  have hstar : star ∈ t.ranking := hranked star (by rw [hentries]; decide)
  have hliteral : literal ∈ t.ranking := hranked literal (by rw [hentries]; decide)
  have howner : owner? t.ranking ["md"] "md:p-4" = some star := by
    refine owner?_eq_some_iff.mpr ⟨[], ?_, by decide, ?_, by simp⟩
    · rw [hentries]
      exact ⟨_, rfl⟩
    · rw [hentries]
      decide
  obtain ⟨-, ⟨-, hkeys⟩, -, hplaces, hbuckets⟩ := positions_lead_to_buckets t
  obtain ⟨hstem, -, hsame⟩ := hplaces star hstar
  obtain ⟨hstem', hrange, -⟩ := hplaces literal hliteral
  refine ⟨hentries, ⟨rfl, hstar, hliteral, howner⟩, hkeys 2 c rfl, ?_, ?_, hrange,
    hsame literal hliteral, hbuckets ["md"] ["?", "p-2"] "md:p-4" star howner⟩
  · exact hstem.resolve_right (by decide)
  · exact hstem'.resolve_left (by decide)

end Taxonomy

end ClassTidy
