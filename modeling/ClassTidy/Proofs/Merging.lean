import Mathlib.Data.List.Basic
import Mathlib.Data.List.Induction
import ClassTidy.OrderedMap
import ClassTidy.Proofs.Distinct

/-!
# Merging what has the same key

Pairs that are inserted into an ordered map one after the other are merged: each key stands where it
came first, with the value that came last. `mergedBy` says this of any list whose members have keys,
and one more member at the end either replaces the member with its key or is appended
(`mergedBy_concat`), which is what an insertion does:

> `OrderedMap.toList_ofList`: the pairs of a map are the inserted pairs, merged;
> `mergedBy_eq_self_iff`: merging changes nothing exactly if no key comes twice.
-/

namespace ClassTidy

section Merged

variable {α κ : Type} [DecidableEq κ] {key : α → κ}

/-- Of all members with the same key the last one, at the place of the first. -/
def mergedBy (key : α → κ) (l : List α) : List α :=
  (l.map key).eraseDups.filterMap fun k => (l.filter (key · = k)).getLast?

/-- One more member is the last of its key, and of no other. -/
theorem getLast?_filter_concat (l : List α) (a : α) (k : κ) :
    ((l ++ [a]).filter (key · = k)).getLast?
      = if key a = k then some a else (l.filter (key · = k)).getLast? := by
  rw [List.filter_append]
  split
  next h =>
    rw [List.filter_cons_of_pos (by simp [h]), List.filter_nil, List.getLast?_concat]
  next h =>
    rw [List.filter_cons_of_neg (by simp [h]), List.filter_nil, List.append_nil]

/-- A key that occurs has a last member. -/
theorem exists_getLast?_filter {l : List α} {k : κ} (h : k ∈ l.map key) :
    ∃ a, (l.filter (key · = k)).getLast? = some a ∧ key a = k := by
  obtain ⟨b, hb, hk⟩ := List.mem_map.mp h
  have hne : l.filter (key · = k) ≠ [] :=
    List.ne_nil_of_mem (List.mem_filter.mpr ⟨hb, decide_eq_true hk⟩)
  have hlast := (List.mem_filter.mp (List.getLast_mem hne)).2
  exact ⟨_, List.getLast?_eq_some_getLast hne, of_decide_eq_true hlast⟩

/-- One more member takes the place of the member with its key, or is appended if there is none. -/
theorem mergedBy_concat (l : List α) (a : α) :
    mergedBy key (l ++ [a])
      = if key a ∈ l.map key then (mergedBy key l).map fun b => if key b = key a then a else b
        else mergedBy key l ++ [a] := by
  unfold mergedBy
  simp only [getLast?_filter_concat, List.map_append, List.map_singleton, eraseDups_concat]
  -- The keys stay the same if the key of the member occurred, and only then.
  split
  next hin =>
    rw [List.map_filterMap]
    apply List.filterMap_congr
    intro k hk
    obtain ⟨b, hb, hkey⟩ := exists_getLast?_filter (List.mem_eraseDups.mp hk)
    rw [hb, Option.map_some, hkey]
    by_cases hka : key a = k
    · rw [if_pos hka, if_pos hka.symm]
    · rw [if_neg hka, if_neg (Ne.symm hka)]
  next hnew =>
    rw [List.filterMap_append]
    congr 1
    · apply List.filterMap_congr
      intro k hk
      have hka : key a ≠ k := by
        rintro rfl
        exact hnew (List.mem_eraseDups.mp hk)
      rw [if_neg hka]
    · simp

/-- The keys stand in the order in which they came first. -/
theorem map_key_mergedBy (l : List α) : (mergedBy key l).map key = (l.map key).eraseDups := by
  induction l using List.reverseRecOn with
  | nil => rfl
  | append_singleton l a ih =>
    rw [mergedBy_concat, List.map_append, List.map_singleton, eraseDups_concat, ← ih]
    split
    next =>
      rw [List.map_map]
      apply List.map_congr_left
      intro b _
      show key (if key b = key a then a else b) = key b
      split
      next h => exact h.symm
      next => rfl
    next => rw [List.map_append, List.map_singleton]

/-- **Merging changes nothing exactly if no key comes twice.** -/
theorem mergedBy_eq_self_iff {l : List α} : mergedBy key l = l ↔ (l.map key).Nodup := by
  constructor
  · intro h
    rw [← h, map_key_mergedBy]
    exact nodup_eraseDups _
  · intro h
    induction l using List.reverseRecOn with
    | nil => rfl
    | append_singleton l a ih =>
      rw [List.map_append, List.nodup_append] at h
      have hnew : key a ∉ l.map key := fun hin => h.2.2 _ hin _ (by simp) rfl
      rw [mergedBy_concat, if_neg hnew, ih h.1]

/-- Members may be turned into others before or after they are merged. -/
theorem mergedBy_map {β : Type} (f : β → α) (l : List β) :
    mergedBy key (l.map f) = (mergedBy (fun b => key (f b)) l).map f := by
  unfold mergedBy
  rw [List.map_map, List.map_filterMap]
  apply List.filterMap_congr
  intro k _
  rw [List.filter_map, List.getLast?_map]
  rfl

end Merged

namespace OrderedMap

variable {α β : Type}

theorem eq_of_toList_eq {m m' : OrderedMap α β} (h : m.toList = m'.toList) : m = m' := by
  cases m
  cases m'
  cases h
  rfl

variable [DecidableEq α]

/-- A value is put where its key stands, or at the end. -/
theorem put_eq {key : α} {value : β} {l : List (α × β)} (hl : (l.map Prod.fst).Nodup) :
    put key value l
      = if key ∈ l.map Prod.fst then l.map fun p => if p.1 = key then (key, value) else p
        else l ++ [(key, value)] := by
  induction l with
  | nil => rfl
  | cons p l ih =>
    rw [List.map_cons, List.nodup_cons] at hl
    rw [put, ih hl.2]
    simp only [List.map_cons, List.mem_cons]
    by_cases hp : p.1 = key
    · have hrest : ∀ q ∈ l, (if q.1 = key then (key, value) else q) = q := by
        intro q hq
        rw [if_neg]
        rintro rfl
        exact hl.1 (hp ▸ List.mem_map_of_mem hq)
      rw [if_pos hp, if_pos (Or.inl hp.symm), if_pos hp, List.map_congr_left hrest, List.map_id']
    · rw [if_neg hp, if_neg hp]
      by_cases hin : key ∈ l.map Prod.fst
      · rw [if_pos hin, if_pos (Or.inr hin)]
      · rw [if_neg hin, if_neg (not_or.mpr ⟨Ne.symm hp, hin⟩), List.cons_append]

/-- **The pairs of a map are the inserted pairs, merged.** -/
@[simp] theorem toList_ofList (l : List (α × β)) : (ofList l).toList = mergedBy Prod.fst l := by
  induction l using List.reverseRecOn with
  | nil => rfl
  | append_singleton l p ih =>
    have hinsert : (ofList (l ++ [p])).toList = put p.1 p.2 (ofList l).toList := by
      unfold ofList
      rw [List.foldl_append]
      rfl
    rw [hinsert, put_eq (ofList l).nodup, ih, mergedBy_concat, map_key_mergedBy]
    simp only [List.mem_eraseDups]

/-- Inserting the pairs of a map makes the map again. -/
@[simp] theorem ofList_toList (m : OrderedMap α β) : ofList m.toList = m := by
  apply eq_of_toList_eq
  rw [toList_ofList, mergedBy_eq_self_iff]
  exact m.nodup

end OrderedMap

end ClassTidy
