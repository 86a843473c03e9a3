import ClassTidy.Proofs.Distinct
import ClassTidy.Proofs.StableSort
import ClassTidy.Taxonomy.Ranking

/-!
# Where the entries of a ranking belong

An entry carries the two positions of the bucket that it fills, and the ranking is sorted after the
positions have been given out. `Taxonomy.Declares` says what the positions promise, and the sort
keeps the promise, since it only moves entries:

> `mem_ranking_iff`: the ranking holds the entries that the taxonomy declares, and no others;
> `declares_of_owner`: so the owner of a class names a bucket that exists, and the key in it.

The sort is a stable one (`ranking_eq_sortBy`), so that rankings can be computed by insertion
(`ranking_eq_insertionSort`).
-/

namespace ClassTidy

namespace Category

theorem nodup_keys (c : Category) : c.keys.Nodup :=
  nodup_eraseDups c.declared

@[simp] theorem mem_keys {c : Category} {key : String} : key ∈ c.keys ↔ key ∈ c.declared :=
  List.mem_eraseDups

/-- A key stands where it is first found, and nowhere else. -/
theorem getElem?_keys_iff {c : Category} {i : Nat} {key : String} :
    c.keys[i]? = some key ↔ key ∈ c.declared ∧ i = c.keys.idxOf key := by
  rw [← mem_keys]
  constructor
  · intro h
    obtain ⟨hi, hkey⟩ := List.getElem?_eq_some_iff.mp h
    subst hkey
    exact ⟨List.getElem_mem hi, (c.nodup_keys.idxOf_getElem i hi).symm⟩
  · rintro ⟨hmem, rfl⟩
    have hlt : c.keys.idxOf key < c.keys.length := List.idxOf_lt_length_of_mem hmem
    rw [List.getElem?_eq_getElem hlt, List.getElem_idxOf hlt]

/-- Positions of keys and the keys say the same. -/
theorem position_eq_iff {c : Category} {i j : Nat} {key key' : String}
    (h : c.keys[i]? = some key) (h' : c.keys[j]? = some key') : i = j ↔ key = key' := by
  constructor
  · rintro rfl
    rw [h] at h'
    exact Option.some.inj h'
  · rintro rfl
    rw [(getElem?_keys_iff.mp h).2, (getElem?_keys_iff.mp h').2]

end Category

namespace Taxonomy

/-- The taxonomy has a category at the first position of the entry, which declares the entry's key,
and the key stands among the keys of the category at the second position. -/
def Declares (t : Taxonomy) (e : Entry) : Prop :=
  ∃ c, t[e.category]? = some c ∧ c.keys[e.bucket]? = some e.key

@[simp] theorem mem_entries_iff {t : Taxonomy} {e : Entry} : e ∈ t.entries ↔ t.Declares e := by
  unfold entries Declares
  rw [List.mem_flatMap]
  constructor
  · rintro ⟨⟨c, i⟩, hc, he⟩
    obtain ⟨key, hkey, rfl⟩ := List.mem_map.mp he
    exact ⟨c, List.mem_zipIdx_iff_getElem?.mp hc, Category.getElem?_keys_iff.mpr ⟨hkey, rfl⟩⟩
  · rintro ⟨c, hc, hkey⟩
    obtain ⟨hmem, hbucket⟩ := Category.getElem?_keys_iff.mp hkey
    refine ⟨(c, e.category), List.mem_zipIdx_iff_getElem?.mpr hc, List.mem_map.mpr ?_⟩
    exact ⟨e.key, hmem, by rw [← hbucket]⟩

@[simp] theorem mem_ranking_iff {t : Taxonomy} {e : Entry} : e ∈ t.ranking ↔ t.Declares e := by
  rw [ranking, List.mem_mergeSort, mem_entries_iff]

/-- The ranking puts the longest stem first, and otherwise keeps the order of the declarations. -/
theorem ranking_eq_sortBy (t : Taxonomy) :
    t.ranking = sortBy (fun e => OrderDual.toDual e.length) t.entries := by
  simp only [ranking, sortBy, OrderDual.toDual_le_toDual]

/-- The ranking can be computed by insertion. -/
theorem ranking_eq_insertionSort (t : Taxonomy) :
    t.ranking = t.entries.insertionSort fun e e' => e'.length ≤ e.length := by
  simp only [ranking_eq_sortBy, sortBy_eq_insertionSort, OrderDual.toDual_le_toDual]

/-- The stems of the ranking do not get longer. -/
theorem pairwise_ranking (t : Taxonomy) : t.ranking.Pairwise fun e e' => e'.length ≤ e.length := by
  have hsorted := pairwise_sortBy (fun e : Entry => OrderDual.toDual e.length) t.entries
  rw [ranking_eq_sortBy]
  exact hsorted.imp OrderDual.toDual_le_toDual.mp

/-- Entries whose stems have the same length are ranked in the order of their declaration. -/
theorem filter_ranking (t : Taxonomy) (n : Nat) :
    t.ranking.filter (·.length = n) = t.entries.filter (·.length = n) := by
  have hstable := agreeBy_sortBy (fun e : Entry => OrderDual.toDual e.length) t.entries
    (OrderDual.toDual n)
  rw [ranking_eq_sortBy]
  simpa only [OrderDual.toDual_inj] using hstable

/-- The owner of a class comes from the taxonomy. -/
theorem declares_of_owner {t : Taxonomy} {viewports : List String} {cls : String} {e : Entry}
    (h : owner? t.ranking viewports cls = some e) : t.Declares e :=
  mem_ranking_iff.mp (List.mem_of_find?_eq_some h)

end Taxonomy

end ClassTidy
