import Mathlib.Data.List.Sort
import Mathlib.Data.Prod.Lex

/-!
# Stable sorting by a key

`sortBy key` sorts a list by a key and leaves members of equal key in their order. What makes a
sort stable is stated without reference to the algorithm: for every key, the members that have it
are the same sublist before and after, `AgreeBy`. Together with the order of the keys this says all
there is to say:

> `eq_sortBy`: a list in key order that agrees with `l` by the key is `sortBy key l`.

From it follow the two ways in which a sort is put together from smaller ones:

> `flatMap_filter_eq_sortBy`: the members of each key, taken key after key, are sorted;
> `sortBy_sortBy`: sorting by `g` and then by `f` is sorting by the pairs of `f` and `g`.
-/

namespace ClassTidy

universe u v

variable {α : Type u} {κ : Type v} [LinearOrder κ]

/-- The list in the order of the keys; members of equal key stay in their order. -/
def sortBy (key : α → κ) (l : List α) : List α :=
  l.mergeSort fun a b => decide (key a ≤ key b)

/-- For every key, the two lists have the same members of that key, in the same order. -/
def AgreeBy (key : α → κ) (l₁ l₂ : List α) : Prop :=
  ∀ k, l₁.filter (key · = k) = l₂.filter (key · = k)

namespace AgreeBy

variable {key : α → κ} {l₁ l₂ l₃ : List α}

theorem symm (h : AgreeBy key l₁ l₂) : AgreeBy key l₂ l₁ := by
  intro k
  exact (h k).symm

theorem trans (h₁ : AgreeBy key l₁ l₂) (h₂ : AgreeBy key l₂ l₃) : AgreeBy key l₁ l₃ := by
  intro k
  rw [h₁ k, h₂ k]

theorem mem_iff (h : AgreeBy key l₁ l₂) {a : α} : a ∈ l₁ ↔ a ∈ l₂ := by
  have hk : a ∈ l₁.filter (key · = key a) ↔ a ∈ l₂.filter (key · = key a) := by rw [h (key a)]
  simpa [List.mem_filter] using hk

theorem eq_nil_iff (h : AgreeBy key l₁ l₂) : l₁ = [] ↔ l₂ = [] := by
  simp only [List.eq_nil_iff_forall_not_mem, h.mem_iff]

/-- Agreement survives any selection of members. -/
theorem filter (h : AgreeBy key l₁ l₂) (p : α → Bool) :
    AgreeBy key (l₁.filter p) (l₂.filter p) := by
  intro k
  rw [List.filter_comm, h k, List.filter_comm]

variable {κ' : Type v} [LinearOrder κ'] {f : α → κ} {g : α → κ'}

/-- Lists that agree by pairs agree by the second part among the members of one first part. -/
theorem of_toLex (h : AgreeBy (fun a => toLex (f a, g a)) l₁ l₂) (k : κ) :
    AgreeBy g (l₁.filter (f · = k)) (l₂.filter (f · = k)) := by
  intro k'
  have hpair : ∀ l : List α, (l.filter (f · = k)).filter (g · = k')
      = l.filter fun a => toLex (f a, g a) = toLex (k, k') := by
    intro l
    rw [List.filter_filter]
    apply List.filter_congr
    intro a _
    rw [← Bool.decide_and]
    exact decide_eq_decide.mpr (by simp [and_comm])
  rw [hpair, hpair]
  exact h (toLex (k, k'))

/-- It does not matter which part of a pair comes first. -/
theorem swap (h : AgreeBy (fun a => toLex (f a, g a)) l₁ l₂) :
    AgreeBy (fun a => toLex (g a, f a)) l₁ l₂ := by
  intro k
  obtain ⟨⟨k₂, k₁⟩, rfl⟩ := toLex.surjective k
  have hpair : ∀ a, toLex (g a, f a) = toLex (k₂, k₁) ↔ toLex (f a, g a) = toLex (k₁, k₂) := by
    simp [and_comm]
  simp only [hpair]
  exact h (toLex (k₁, k₂))

end AgreeBy

variable {key : α → κ} {l : List α}

/-- Members that are selected by a key have it. -/
theorem key_eq_of_mem_filter {k : κ} {a : α} (h : a ∈ l.filter (key · = k)) : key a = k :=
  of_decide_eq_true (List.mem_filter.mp h).2

private theorem le_trans_key (key : α → κ) (a b c : α) :
    decide (key a ≤ key b) = true → decide (key b ≤ key c) = true →
      decide (key a ≤ key c) = true := by
  simpa using le_trans

private theorem le_total_key (key : α → κ) (a b : α) :
    (decide (key a ≤ key b) || decide (key b ≤ key a)) = true := by
  simpa using le_total (key a) (key b)

@[simp] theorem sortBy_nil (key : α → κ) : sortBy key [] = [] :=
  List.mergeSort_nil

theorem sortBy_perm (key : α → κ) (l : List α) : (sortBy key l).Perm l :=
  List.mergeSort_perm l _

@[simp] theorem mem_sortBy {a : α} : a ∈ sortBy key l ↔ a ∈ l :=
  (sortBy_perm key l).mem_iff

theorem pairwise_sortBy (key : α → κ) (l : List α) :
    (sortBy key l).Pairwise fun a b => key a ≤ key b := by
  have h := List.pairwise_mergeSort (le_trans_key key) (le_total_key key) l
  exact h.imp fun hab => of_decide_eq_true hab

/-- A rearrangement is stable if it keeps what is in key order already. -/
theorem agreeBy_of_sublist {l' : List α} (hperm : l'.Perm l)
    (hsub : ∀ c : List α, (c.Pairwise fun a b => key a ≤ key b) → c.Sublist l → c.Sublist l') :
    AgreeBy key l' l := by
  intro k
  -- The members of one key are in key order, so they are a sublist of the result; there are no
  -- more of them in the result than in the list.
  have hsorted : (l.filter (key · = k)).Pairwise fun a b => key a ≤ key b := by
    apply List.pairwise_of_forall_mem_list
    intro a ha b hb
    rw [key_eq_of_mem_filter ha, key_eq_of_mem_filter hb]
  have hkept := (hsub _ hsorted List.filter_sublist).filter (key · = k)
  simp only [List.filter_filter, Bool.and_self] at hkept
  exact (hkept.eq_of_length (hperm.filter _).length_eq.symm).symm

/-- The sort is stable. -/
theorem agreeBy_sortBy (key : α → κ) (l : List α) : AgreeBy key (sortBy key l) l := by
  apply agreeBy_of_sublist (sortBy_perm key l)
  intro c hc hsub
  exact List.sublist_mergeSort (le_trans_key key) (le_total_key key)
    (hc.imp fun hab => decide_eq_true hab) hsub

/-- The first member of a list in key order has the least key in every list that agrees. -/
private theorem key_le_of_agreeBy {a b : α} {l₁ l₂ : List α} (h : AgreeBy key (a :: l₁) (b :: l₂))
    (hle : ∀ c ∈ l₁, key a ≤ key c) : key a ≤ key b := by
  have hmem : b ∈ a :: l₁ := h.mem_iff.mpr (List.mem_cons_self ..)
  rcases List.mem_cons.mp hmem with rfl | hb
  · exact le_rfl
  · exact hle b hb

/-- Two lists in key order that agree by the key are equal: the first members have the least key,
and of those both lists have the same first. -/
theorem eq_of_pairwise_of_agreeBy : ∀ {l₁ l₂ : List α},
    (l₁.Pairwise fun a b => key a ≤ key b) → (l₂.Pairwise fun a b => key a ≤ key b) →
      AgreeBy key l₁ l₂ → l₁ = l₂
  | [], l₂, _, _, h => (h.eq_nil_iff.mp rfl).symm
  | a :: l₁, [], _, _, h => h.eq_nil_iff.mpr rfl
  | a :: l₁, b :: l₂, h₁, h₂, h => by
    obtain ⟨hle₁, htail₁⟩ := List.pairwise_cons.mp h₁
    obtain ⟨hle₂, htail₂⟩ := List.pairwise_cons.mp h₂
    have hkey : key b = key a :=
      le_antisymm (key_le_of_agreeBy h.symm hle₂) (key_le_of_agreeBy h hle₁)
    -- So both heads are the first of their common key.
    have hhead := h (key a)
    rw [List.filter_cons_of_pos (by simp), List.filter_cons_of_pos (by simp [hkey])] at hhead
    obtain ⟨rfl, htail⟩ := List.cons.inj hhead
    have hagree : AgreeBy key l₁ l₂ := by
      intro k
      by_cases hk : key a = k
      · rw [← hk]
        exact htail
      · have hrest := h k
        rwa [List.filter_cons_of_neg (by simpa using hk),
          List.filter_cons_of_neg (by simpa using hk)] at hrest
    rw [eq_of_pairwise_of_agreeBy htail₁ htail₂ hagree]

/-- **What a stable sort is**: a list in key order that agrees with `l` by the key. -/
theorem eq_sortBy {l' : List α} (hsorted : l'.Pairwise fun a b => key a ≤ key b)
    (hagree : AgreeBy key l' l) : l' = sortBy key l :=
  eq_of_pairwise_of_agreeBy hsorted (pairwise_sortBy key l)
    (hagree.trans (agreeBy_sortBy key l).symm)

/-- The sort can be computed by insertion. -/
theorem sortBy_eq_insertionSort (key : α → κ) (l : List α) :
    sortBy key l = l.insertionSort fun a b => key a ≤ key b := by
  have : Std.Total fun a b => key a ≤ key b := ⟨fun a b => le_total (key a) (key b)⟩
  have : IsTrans α fun a b => key a ≤ key b := ⟨fun _ _ _ => le_trans⟩
  refine (eq_sortBy (List.pairwise_insertionSort _ l) ?_).symm
  exact agreeBy_of_sublist (List.perm_insertionSort _ l) fun _ => List.sublist_insertionSort

/-- Lists that agree by the key are sorted to the same list. -/
theorem AgreeBy.sortBy_eq {l₁ l₂ : List α} (h : AgreeBy key l₁ l₂) :
    sortBy key l₁ = sortBy key l₂ :=
  eq_sortBy (pairwise_sortBy key l₁) ((agreeBy_sortBy key l₁).trans h)

/-- Members may be selected before the sort or after it. -/
theorem filter_sortBy (key : α → κ) (p : α → Bool) (l : List α) :
    (sortBy key l).filter p = sortBy key (l.filter p) :=
  eq_sortBy ((pairwise_sortBy key l).filter p) ((agreeBy_sortBy key l).filter p)

/-- What a stable sort puts first is the first of the members with the least key. -/
theorem head?_sortBy_eq_some_iff {a : α} : (sortBy key l).head? = some a ↔
    (∀ b ∈ l, key a ≤ key b) ∧ l.find? (key · = key a) = some a := by
  have hmem : ∀ b, b ∈ l ↔ b ∈ sortBy key l := fun b => mem_sortBy.symm
  have hfind : l.find? (key · = key a) = (sortBy key l).find? (key · = key a) := by
    rw [← List.head?_filter, ← List.head?_filter, agreeBy_sortBy key l (key a)]
  simp only [hmem, hfind]
  have hsorted := pairwise_sortBy key l
  generalize sortBy key l = sorted at hsorted
  cases sorted with
  | nil => simp
  | cons c rest =>
    have hleast : ∀ b ∈ c :: rest, key c ≤ key b := by
      intro b hb
      rcases List.mem_cons.mp hb with rfl | hb
      · exact le_rfl
      · exact (List.pairwise_cons.mp hsorted).1 b hb
    rw [List.head?_cons, Option.some_inj]
    constructor
    · rintro rfl
      refine ⟨hleast, ?_⟩
      rw [List.find?_cons, decide_eq_true rfl]
    · rintro ⟨hle, hfirst⟩
      have ha : a ∈ c :: rest := List.mem_of_find?_eq_some hfirst
      -- The head has the least key too, so it is the first that is found.
      have hkey : key c = key a := le_antisymm (hleast a ha) (hle c (List.mem_cons_self ..))
      rw [List.find?_cons, decide_eq_true hkey] at hfirst
      exact Option.some.inj hfirst

/-- So it is the same for lists in which every search finds the same. -/
theorem head?_sortBy_congr {l' : List α} (h : ∀ p, l.find? p = l'.find? p) :
    (sortBy key l).head? = (sortBy key l').head? := by
  have hall : ∀ p : α → Bool, (∀ b ∈ l, p b = true) ↔ ∀ b ∈ l', p b = true := by
    intro p
    have hnone : l.find? (!p ·) = none ↔ l'.find? (!p ·) = none := by rw [h]
    simpa using hnone
  apply Option.ext
  intro a
  rw [head?_sortBy_eq_some_iff, head?_sortBy_eq_some_iff, h]
  have hleast := hall fun b => decide (key a ≤ key b)
  simp only [decide_eq_true_eq] at hleast
  rw [hleast]

/-- Members may be turned into others before the sort or after it. -/
theorem sortBy_map {β : Type u} (key : β → κ) (f : α → β) (l : List α) :
    sortBy key (l.map f) = (sortBy (fun a => key (f a)) l).map f := by
  unfold sortBy
  symm
  apply List.map_mergeSort
  intro _ _ _ _
  rfl

/-- Only the order of the keys that occur matters. -/
theorem sortBy_congr {κ' : Type v} [LinearOrder κ'] {key' : α → κ'}
    (h : ∀ a ∈ l, ∀ b ∈ l, (key a ≤ key b ↔ key' a ≤ key' b)) : sortBy key l = sortBy key' l := by
  have hmap := List.map_mergeSort (r := fun a b => decide (key a ≤ key b))
    (s := fun a b => decide (key' a ≤ key' b)) (f := id) (l := l)
    fun a ha b hb => decide_eq_decide.mpr (h a ha b hb)
  rwa [List.map_id, List.map_id] at hmap

/-- Of pieces that are empty but for one key, that of the key remains. -/
private theorem flatMap_ite {ks : List κ} (hks : ks.Nodup) (k : κ) (l : List α) :
    (ks.flatMap fun k' => if k' = k then l else []) = if k ∈ ks then l else [] := by
  induction ks with
  | nil => rfl
  | cons k' ks ih =>
    obtain ⟨hnot, hnodup⟩ := List.nodup_cons.mp hks
    rw [List.flatMap_cons, ih hnodup]
    by_cases hk : k' = k
    · subst hk
      rw [if_pos rfl, if_neg hnot, if_pos (List.mem_cons_self ..), List.append_nil]
    · rw [if_neg hk, List.nil_append]
      simp [List.mem_cons, Ne.symm hk]

/-- The members of each key, taken key after key in ascending order, are the sorted list. -/
theorem flatMap_filter_eq_sortBy {ks : List κ} (hks : ks.Pairwise (· < ·))
    (hmem : ∀ a ∈ l, key a ∈ ks) :
    (ks.flatMap fun k => l.filter (key · = k)) = sortBy key l := by
  have hsorted : (ks.flatMap fun k => l.filter (key · = k)).Pairwise fun a b => key a ≤ key b := by
    refine List.pairwise_flatMap.mpr ⟨?_, ?_⟩
    · intro k _
      apply List.pairwise_of_forall_mem_list
      intro a ha b hb
      rw [key_eq_of_mem_filter ha, key_eq_of_mem_filter hb]
    · refine hks.imp ?_
      intro k₁ k₂ hlt a ha b hb
      rw [key_eq_of_mem_filter ha, key_eq_of_mem_filter hb]
      exact hlt.le
  refine eq_sortBy hsorted fun k => ?_
  -- Of the pieces only the one of key `k` has members of key `k`, and it has all of them.
  have hpiece : ∀ k', (l.filter (key · = k')).filter (key · = k)
      = if k' = k then l.filter (key · = k) else [] := by
    intro k'
    split
    next heq => rw [heq, List.filter_filter]; simp
    next hne =>
      apply List.filter_eq_nil_iff.mpr
      intro a ha
      rw [key_eq_of_mem_filter ha]
      simpa using hne
  rw [List.filter_flatMap]
  simp only [hpiece]
  rw [flatMap_ite (hks.imp fun hlt => hlt.ne)]
  split
  next => rfl
  next hk =>
    refine (List.filter_eq_nil_iff.mpr ?_).symm
    intro a ha hka
    rw [← of_decide_eq_true hka] at hk
    exact hk (hmem a ha)

/-- Sorting by the second part of the key first and then by the first part is sorting by both. -/
theorem sortBy_sortBy {κ' : Type v} [LinearOrder κ'] (f : α → κ) (g : α → κ') (l : List α) :
    sortBy f (sortBy g l) = sortBy (fun a => toLex (f a, g a)) l := by
  have hsorted : (sortBy (fun a => toLex (f a, g a)) l).Pairwise fun a b => f a ≤ f b := by
    refine (pairwise_sortBy _ l).imp ?_
    intro a b hab
    rcases Prod.Lex.toLex_le_toLex.mp hab with hlt | ⟨heq, -⟩
    · exact hlt.le
    · exact heq.le
  refine (eq_sortBy hsorted fun k => ?_).symm
  rw [filter_sortBy, filter_sortBy]
  -- Among members of one first part the pairs are ordered as their second parts.
  apply sortBy_congr
  intro a ha b hb
  have hka : f a = k := key_eq_of_mem_filter ha
  have hkb : f b = k := key_eq_of_mem_filter hb
  simp [Prod.Lex.toLex_le_toLex, hka, hkb]

end ClassTidy
