import Mathlib.Data.List.Basic
import Mathlib.Data.List.Induction

/-!
# The distinct members of a list

Entries and labels may be given more than once, and the first of equal ones is the one that counts.
A search stops at the first member that it finds, so it never gets to a repeat:

> `findSome?_eraseDups`: a search finds the same among the distinct members.

A list is built up from the front, so most facts are by induction from the end: one more member is
a repeat, or it is appended (`eraseDups_concat`).
-/

namespace ClassTidy

variable {α β : Type} [BEq α] [LawfulBEq α]

/-- Repeats are gone: what follows the first member has been rid of it. -/
@[simp] theorem nodup_eraseDups : ∀ l : List α, l.eraseDups.Nodup
  | [] => List.nodup_nil
  | a :: l => by
    rw [List.eraseDups_cons, List.nodup_cons, List.mem_eraseDups]
    exact ⟨by simp, nodup_eraseDups (l.filter fun b => !b == a)⟩
  termination_by l => l.length
  decreasing_by exact Nat.lt_succ_of_le (List.length_filter_le ..)

/-- One more member is new among the distinct ones if it did not occur. -/
theorem eraseDups_concat (l : List α) (a : α) :
    (l ++ [a]).eraseDups = if a ∈ l then l.eraseDups else l.eraseDups ++ [a] := by
  rw [List.eraseDups_append]
  split
  next h =>
    rw [show [a].removeAll l = [] by simp [List.removeAll, h], List.eraseDups_nil, List.append_nil]
  next h =>
    rw [show [a].removeAll l = [a] by simp [List.removeAll, h]]
    rfl

/-- The position of a member among the distinct ones stays when the list goes on. -/
theorem idxOf_eraseDups_concat {l : List α} {b : α} (h : b ∈ l) (a : α) :
    (l ++ [a]).eraseDups.idxOf b = l.eraseDups.idxOf b := by
  rw [eraseDups_concat]
  split
  next => rfl
  next => rw [List.idxOf_append_of_mem (List.mem_eraseDups.mpr h)]

/-- The distinct members stand in the order in which they occur first. -/
theorem pairwise_idxOf_eraseDups (l : List α) :
    l.eraseDups.Pairwise fun a b => l.idxOf a < l.idxOf b := by
  induction l using List.reverseRecOn with
  | nil => exact List.Pairwise.nil
  | append_singleton l a ih =>
    have hfirst : ∀ b ∈ l.eraseDups, (l ++ [a]).idxOf b = l.idxOf b := by
      intro b hb
      rw [List.idxOf_append_of_mem (List.mem_eraseDups.mp hb)]
    have hold : l.eraseDups.Pairwise fun b c => (l ++ [a]).idxOf b < (l ++ [a]).idxOf c := by
      refine ih.imp_of_mem ?_
      intro b c hb hc hlt
      rw [hfirst b hb, hfirst c hc]
      exact hlt
    rw [eraseDups_concat]
    split
    next => exact hold
    next hnew =>
      -- A new member occurs first where it is put, behind all others.
      refine List.pairwise_append.mpr ⟨hold, List.pairwise_singleton .., ?_⟩
      intro b hb c hc
      rw [List.mem_singleton.mp hc, hfirst b hb, List.idxOf_append_of_notMem hnew]
      exact Nat.lt_add_right _ (List.idxOf_lt_length_of_mem (List.mem_eraseDups.mp hb))

/-- Without repeats there is nothing to erase. -/
theorem eraseDups_eq_self {l : List α} (h : l.Nodup) : l.eraseDups = l := by
  induction l using List.reverseRecOn with
  | nil => rfl
  | append_singleton l a ih =>
    obtain ⟨hl, -, hnew⟩ := List.nodup_append.mp h
    rw [eraseDups_concat, if_neg fun ha => hnew a ha a (List.mem_singleton.mpr rfl) rfl, ih hl]

@[simp] theorem eraseDups_eraseDups (l : List α) : l.eraseDups.eraseDups = l.eraseDups :=
  eraseDups_eq_self (nodup_eraseDups l)

/-- Members may be selected before repeats are erased or after. -/
theorem eraseDups_filter (p : α → Bool) (l : List α) :
    (l.filter p).eraseDups = l.eraseDups.filter p := by
  induction l using List.reverseRecOn with
  | nil => rfl
  | append_singleton l a ih =>
    rw [List.filter_append, eraseDups_concat]
    by_cases hp : p a = true
    · rw [List.filter_cons_of_pos hp, List.filter_nil, eraseDups_concat, ih]
      simp only [List.mem_filter, hp, and_true]
      split
      next => rfl
      next => rw [List.filter_append, List.filter_cons_of_pos hp, List.filter_nil]
    · rw [List.filter_cons_of_neg hp, List.filter_nil, List.append_nil, ih]
      split
      next => rfl
      next =>
        rw [List.filter_append, List.filter_cons_of_neg hp, List.filter_nil, List.append_nil]

/-- A member that occurs further in front is a repeat. -/
theorem eraseDups_insert_of_mem {front : List α} {a : α} (h : a ∈ front) (back : List α) :
    (front ++ a :: back).eraseDups = (front ++ back).eraseDups := by
  have hrest : (a :: back).removeAll front = back.removeAll front := by
    simp [List.removeAll, h]
  rw [List.eraseDups_append, List.eraseDups_append, hrest]

/-- **A search finds the same among the distinct members.** -/
@[simp] theorem findSome?_eraseDups (f : α → Option β) (l : List α) :
    l.eraseDups.findSome? f = l.findSome? f := by
  induction l using List.reverseRecOn with
  | nil => rfl
  | append_singleton l a ih =>
    rw [eraseDups_concat, List.findSome?_append]
    split
    next ha =>
      -- If nothing is found before the repeat, its first occurrence is not what is looked for.
      rw [ih]
      cases hfound : l.findSome? f with
      | some b => rfl
      | none =>
        have hnone : f a = none := List.findSome?_eq_none_iff.mp hfound a ha
        rw [List.findSome?_singleton, hnone]
        rfl
    next => rw [List.findSome?_append, ih]

@[simp] theorem find?_eraseDups (p : α → Bool) (l : List α) : l.eraseDups.find? p = l.find? p := by
  rw [List.find?_eq_findSome?_guard, List.find?_eq_findSome?_guard, findSome?_eraseDups]

end ClassTidy
