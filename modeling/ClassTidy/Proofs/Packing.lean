import Mathlib.Data.List.Basic
import Mathlib.Data.List.Infix
import ClassTidy.Packing

/-!
# What the cuts of a packing keep

The groups are cut into runs from the front, whatever the width says. The runs hold all groups in
their order (`flatten_cut`), none is empty (`ne_nil_of_mem_cut`), and a run of several groups was
measured before it was taken:

> `width_le_of_mem_cut`: a line that holds two groups or more fits the limit.

No property of the width is used for this. If a run is never narrower than a part of it
(`GrowsWithRuns`), as when characters are counted, then taking the longest run also is best:

> `length_cut_le`: no cut into runs that fit, or hold one group, has fewer runs.
-/

namespace ClassTidy

/-- Joining by a space looks the same whether some classes have been joined before or not, unless
one of the lists is empty. -/
theorem spaced_map_spaced {lists : List (List String)} (h : ∀ l ∈ lists, l ≠ []) :
    spaced (lists.map spaced) = spaced lists.flatten := by
  induction lists with
  | nil => rfl
  | cons l lists ih =>
    have hl : l ≠ [] := h l (List.mem_cons_self ..)
    have hlists : ∀ l' ∈ lists, l' ≠ [] := fun l' hl' => h l' (List.mem_cons_of_mem _ hl')
    by_cases hnil : lists = []
    · rw [hnil, List.map_singleton, List.flatten_singleton, spaced, String.intercalate_singleton]
    · have hflat : lists.flatten ≠ [] := by
        intro he
        obtain ⟨l', hl'⟩ := List.exists_mem_of_ne_nil lists hnil
        exact hlists l' hl' (List.flatten_eq_nil_iff.mp he l' hl')
      unfold spaced at ih ⊢
      rw [List.map_cons, List.flatten_cons, String.intercalate_append_of_ne_nil hl hflat,
        String.intercalate_cons_of_ne_nil (by simpa using hnil), ih hlists]

/-- Each class takes its characters and, but for the first, a space. -/
theorem length_spaced (classes : List String) :
    (spaced classes).length = (classes.flatMap fun cls => ' ' :: cls.toList).length - 1 := by
  unfold spaced
  induction classes with
  | nil => rfl
  | cons cls classes ih =>
    cases classes with
    | nil => simp [String.length_toList]
    | cons next classes =>
      rw [String.intercalate_cons_cons, String.length_append, String.length_append, ih]
      have hspace : " ".length = 1 := rfl
      simp only [List.flatMap_cons, List.length_append, List.length_cons, String.length_toList]
      omega

namespace Packing

variable {width : String → Nat} {limit : Nat}

/-- If a group has companions, then the line with all of them fits. -/
theorem width_le_of_companions (first : List String) (rest : List (List String)) :
    ∀ n, companions width limit first rest n ≠ 0 →
      width (line (first :: rest.take (companions width limit first rest n))) ≤ limit
  | 0, h => absurd rfl h
  | n + 1, h => by
    rw [companions] at h ⊢
    split at h
    next hfits =>
      rw [if_pos hfits]
      exact hfits
    next hwide =>
      rw [if_neg hwide]
      exact width_le_of_companions first rest n h

@[simp]
theorem flatten_cut (groups : List (List String)) : (cut width limit groups).flatten = groups := by
  fun_induction cut width limit groups with
  | case1 => rfl
  | case2 first rest n ih =>
    rw [List.flatten_cons, ih, List.cons_append, List.take_append_drop]

/-- Every run has its first group. -/
theorem ne_nil_of_mem_cut {groups run : List (List String)} (h : run ∈ cut width limit groups) :
    run ≠ [] := by
  fun_induction cut width limit groups with
  | case1 => exact absurd h List.not_mem_nil
  | case2 first rest n ih =>
    rcases List.mem_cons.mp h with rfl | h
    · exact List.cons_ne_nil _ _
    · exact ih h

theorem infix_of_mem_cut {groups run : List (List String)} (h : run ∈ cut width limit groups) :
    run <:+: groups := by
  have hinfix := List.infix_of_mem_flatten h
  rwa [flatten_cut] at hinfix

/-- The groups of a run are among those that were cut. -/
theorem mem_groups_of_mem_cut {groups run : List (List String)} {group : List String}
    (h : run ∈ cut width limit groups) (hgroup : group ∈ run) : group ∈ groups :=
  (infix_of_mem_cut h).subset hgroup

/-- **A line of several groups fits the limit.** -/
theorem width_le_of_mem_cut {groups run : List (List String)} (h : run ∈ cut width limit groups)
    (htwo : 2 ≤ run.length) : width (line run) ≤ limit := by
  fun_induction cut width limit groups with
  | case1 => exact absurd h List.not_mem_nil
  | case2 first rest n ih =>
    rcases List.mem_cons.mp h with rfl | h
    · -- Without companions the run would be one group long.
      apply width_le_of_companions first rest rest.length
      intro hzero
      rw [List.length_cons, List.length_take] at htwo
      omega
    · exact ih h

/-! ## The number of runs -/

/-- No run of the groups is narrower than a part of it. -/
def GrowsWithRuns (width : String → Nat) (groups : List (List String)) : Prop :=
  ∀ run part, run <:+: groups → part <:+: run → part ≠ [] → width (line part) ≤ width (line run)

/-- Counted in characters, runs are never narrower than their parts. -/
theorem growsWithRuns_length (groups : List (List String)) :
    GrowsWithRuns String.length groups := by
  rintro run part - ⟨before, after, rfl⟩ -
  unfold line
  rw [length_spaced, length_spaced]
  simp only [List.flatten_append, List.flatMap_append, List.length_append]
  omega

/-- A number of companions that fits is no larger than the one that is taken. -/
theorem le_companions {first : List String} {rest : List (List String)} {k : Nat}
    (hfits : width (line (first :: rest.take k)) ≤ limit) :
    ∀ {n}, k ≤ n → k ≤ companions width limit first rest n
  | 0, hk => hk
  | n + 1, hk => by
    rw [companions]
    split
    next => exact hk
    next hwide =>
      have hne : k ≠ n + 1 := by
        rintro rfl
        exact hwide hfits
      exact le_companions hfits (by omega)

/-- Cutting a tail of the groups that other runs hold takes no more runs than these, if every tail
of theirs fits: each run that is taken gets at least to the end of the other run it begins in. -/
theorem length_cut_le_of_suffix {runs : List (List (List String))} {groups : List (List String)}
    (hfits : ∀ run ∈ runs, ∀ tail, tail <:+ run → 2 ≤ tail.length → width (line tail) ≤ limit)
    (hsuffix : groups <:+ runs.flatten) : (cut width limit groups).length ≤ runs.length := by
  induction runs generalizing groups with
  | nil =>
    rw [List.suffix_nil.mp hsuffix, cut]
  | cons run runs ih =>
    have ih' : ∀ {groups}, groups <:+ runs.flatten →
        (cut width limit groups).length ≤ runs.length :=
      ih fun run' h => hfits run' (List.mem_cons_of_mem _ h)
    obtain ⟨front, hfront⟩ := hsuffix
    rw [List.flatten_cons] at hfront
    -- The groups begin within the first run, at its end, or behind it.
    rcases List.append_eq_append_iff.mp hfront with ⟨tail, hrun, rfl⟩ | ⟨more, -, hmore⟩
    · cases tail with
      | nil => exact Nat.le_succ_of_le (ih' (List.suffix_refl _))
      | cons first rest =>
        have hrest : rest.length ≤ companions width limit first (rest ++ runs.flatten)
            (rest ++ runs.flatten).length := by
          cases rest with
          | nil => exact Nat.zero_le _
          | cons second rest =>
            apply le_companions
            · rw [List.take_left]
              exact hfits run (List.mem_cons_self ..) _ ⟨front, hrun.symm⟩ (by simp)
            · simp
        rw [List.cons_append, cut, List.length_cons, List.length_cons]
        refine Nat.succ_le_succ (ih' ?_)
        rw [List.drop_append, List.drop_eq_nil_of_le hrest, List.nil_append]
        exact List.drop_suffix ..
    · exact Nat.le_succ_of_le (ih' ⟨more, hmore.symm⟩)

/-- **No cut has fewer runs**, if its runs of several groups fit the limit. -/
theorem length_cut_le {runs : List (List (List String))}
    (hgrows : GrowsWithRuns width runs.flatten)
    (hfits : ∀ run ∈ runs, 2 ≤ run.length → width (line run) ≤ limit) :
    (cut width limit runs.flatten).length ≤ runs.length := by
  apply length_cut_le_of_suffix _ (List.suffix_refl _)
  intro run hrun tail htail htwo
  have hne : tail ≠ [] := List.ne_nil_of_length_pos (by omega)
  have hlonger : 2 ≤ run.length := Nat.le_trans htwo htail.length_le
  exact Nat.le_trans (hgrows run tail (List.infix_of_mem_flatten hrun) htail.isInfix hne)
    (hfits run hrun hlonger)

/-- A larger limit takes no more runs: those of the smaller limit fit it too. -/
theorem length_cut_le_of_limit_le {groups : List (List String)} {limit' : Nat}
    (hgrows : GrowsWithRuns width groups) (h : limit ≤ limit') :
    (cut width limit' groups).length ≤ (cut width limit groups).length := by
  have hflat : (cut width limit groups).flatten = groups := flatten_cut groups
  have hle : (cut width limit' (cut width limit groups).flatten).length
      ≤ (cut width limit groups).length := by
    apply length_cut_le
    · rw [hflat]
      exact hgrows
    · intro run hrun htwo
      exact Nat.le_trans (width_le_of_mem_cut hrun htwo) h
  rwa [hflat] at hle

end Packing

end ClassTidy
