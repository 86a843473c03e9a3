import Mathlib.Order.Bounds.Basic
import ClassTidy.Proofs.Packing
import ClassTidy.Settings.Basic

/-!
# Where the lines of a packing end

A packing looks for the end of a line from the last group downwards. Where it ends can be said
without the search: at the largest end behind two groups or more up to which the line fits, or
behind one group if there is no such end (`LongestFit`). Nothing is asked of the width, so that a
line may fit although a part of it does not.

Points that follow one another in this way from the first group to the last, `CutPoints`, are
determined by the groups, the width and the limit, and a packing cuts at them:

> `pack_longest_fit`: the lines of a packing hold the groups between these points.

With a width that grows with the runs there is no better way to cut:

> `pack_fewest_lines`: a packing has as few lines as groups can be cut into.
-/

namespace ClassTidy

namespace Packing

/-! ## Boundaries of runs -/

section Boundaries

variable {α : Type} {runs : List (List α)} {i : Nat}

/-- How many members stand in the first `i` runs. -/
def boundary (runs : List (List α)) (i : Nat) : Nat :=
  (runs.take i).flatten.length

@[simp] theorem boundary_zero (runs : List (List α)) : boundary runs 0 = 0 := rfl

@[simp] theorem boundary_length (runs : List (List α)) :
    boundary runs runs.length = runs.flatten.length := by
  rw [boundary, List.take_length]

theorem boundary_cons_succ (run : List α) (runs : List (List α)) (i : Nat) :
    boundary (run :: runs) (i + 1) = run.length + boundary runs i := by
  rw [boundary, List.take_succ_cons, List.flatten_cons, List.length_append, boundary]

theorem boundary_succ (h : i < runs.length) :
    boundary runs (i + 1) = boundary runs i + runs[i].length := by
  rw [boundary, List.take_succ_eq_append_getElem h, List.flatten_concat, List.length_append,
    boundary]

/-- What is behind the first `i` runs are the members of the other runs. -/
theorem drop_boundary (runs : List (List α)) (i : Nat) :
    runs.flatten.drop (boundary runs i) = (runs.drop i).flatten := by
  calc runs.flatten.drop (boundary runs i)
      = ((runs.take i).flatten ++ (runs.drop i).flatten).drop (boundary runs i) := by
        rw [← List.flatten_append, List.take_append_drop]
    _ = (runs.drop i).flatten := List.drop_left

/-- Between two boundaries stand the members of a run. -/
theorem extract_boundary (h : i < runs.length) :
    runs.flatten.extract (boundary runs i) (boundary runs (i + 1)) = runs[i] := by
  rw [List.extract_eq_take_drop, drop_boundary, boundary_succ h, Nat.add_sub_cancel_left,
    List.drop_eq_getElem_cons h, List.flatten_cons, List.take_left]

/-- The members between each of `k` points and the next one. -/
def between (l : List α) (k : Nat) (point : Nat → Nat) : List (List α) :=
  (List.range k).map fun i => l.extract (point i) (point (i + 1))

/-- Runs are what stands between their boundaries. -/
theorem between_boundary (runs : List (List α)) :
    between runs.flatten runs.length (boundary runs) = runs := by
  unfold between
  apply List.ext_getElem
  · rw [List.length_map, List.length_range]
  · intro i _ h
    rw [List.getElem_map, List.getElem_range, extract_boundary h]

end Boundaries

/-! ## Longest fits -/

variable {width : String → Nat} {limit : Nat} {groups : List (List String)}

/-- The ends behind two groups or more up to which a line from `start` fits the limit. -/
def fittingEnds (width : String → Nat) (limit : Nat) (groups : List (List String)) (start : Nat) :
    Set Nat :=
  {stop | start + 1 < stop ∧ stop ≤ groups.length ∧
    width (line (groups.extract start stop)) ≤ limit}

/-- The end of the longest line from `start` that fits the limit, or that holds one group. -/
inductive LongestFit (width : String → Nat) (limit : Nat) (groups : List (List String))
    (start : Nat) : Nat → Prop
  | several {stop : Nat} (h : IsGreatest (fittingEnds width limit groups start) stop) :
    LongestFit width limit groups start stop
  | single (h : fittingEnds width limit groups start = ∅) :
    LongestFit width limit groups start (start + 1)

namespace LongestFit

variable {start stop : Nat}

theorem lt (h : LongestFit width limit groups start stop) : start < stop := by
  cases h with
  | several h => exact Nat.lt_of_succ_lt h.1.1
  | single => exact Nat.lt_succ_self start

/-- A line of several groups fits. -/
theorem fits (h : LongestFit width limit groups start stop) (hseveral : start + 1 < stop) :
    width (line (groups.extract start stop)) ≤ limit := by
  cases h with
  | several h => exact h.1.2.2
  | single => exact absurd hseveral (Nat.lt_irrefl _)

/-- A line that goes on behind the end does not fit. -/
theorem wide (h : LongestFit width limit groups start stop) {further : Nat}
    (hfurther : stop < further) (hlength : further ≤ groups.length) :
    limit < width (line (groups.extract start further)) := by
  by_contra hfits
  have hmem : start + 1 < further → further ∈ fittingEnds width limit groups start :=
    fun hseveral => ⟨hseveral, hlength, Nat.le_of_not_lt hfits⟩
  cases h with
  | several h =>
    have hle : further ≤ stop := h.2 (hmem (Nat.lt_trans h.1.1 hfurther))
    omega
  | single h =>
    have hin := hmem hfurther
    rw [h] at hin
    exact hin

theorem unique {stop' : Nat} (h : LongestFit width limit groups start stop)
    (h' : LongestFit width limit groups start stop') : stop = stop' := by
  cases h with
  | several h =>
    cases h' with
    | several h' => exact h.unique h'
    | single h' => exact absurd h.1 (by simp [h'])
  | single h =>
    cases h' with
    | several h' => exact absurd h'.1 (by simp [h])
    | single => rfl

end LongestFit

/-- The line from `start` begins the groups that are left when the first ones are taken away. -/
theorem mem_fittingEnds_drop {start n : Nat} :
    n ∈ fittingEnds width limit (groups.drop start) 0
      ↔ start + n ∈ fittingEnds width limit groups start := by
  have hextract : groups.extract start (start + n) = (groups.drop start).extract 0 n := by
    rw [List.extract_eq_take_drop, List.extract_eq_take_drop, Nat.add_sub_cancel_left,
      List.drop_zero, Nat.sub_zero]
  unfold fittingEnds
  rw [Set.mem_ofPred_eq, Set.mem_ofPred_eq, hextract, List.length_drop]
  constructor
  · rintro ⟨hseveral, hlength, hfits⟩
    exact ⟨by omega, by omega, hfits⟩
  · rintro ⟨hseveral, hlength, hfits⟩
    exact ⟨by omega, by omega, hfits⟩

theorem LongestFit.of_drop {start n : Nat} (h : LongestFit width limit (groups.drop start) 0 n) :
    LongestFit width limit groups start (start + n) := by
  -- Every fitting end is behind `start`, so it is an end of what is left.
  have hends : ∀ stop ∈ fittingEnds width limit groups start,
      stop - start ∈ fittingEnds width limit (groups.drop start) 0 := by
    intro stop hstop
    have hlt : start + 1 < stop := hstop.1
    rw [mem_fittingEnds_drop, Nat.add_sub_cancel' (by omega)]
    exact hstop
  cases h with
  | several h =>
    refine .several ⟨mem_fittingEnds_drop.mp h.1, ?_⟩
    intro stop hstop
    have hle : stop - start ≤ n := h.2 (hends stop hstop)
    omega
  | single h =>
    refine .single (Set.eq_empty_of_forall_notMem ?_)
    intro stop hstop
    have hin := hends stop hstop
    rw [h] at hin
    exact hin

theorem companions_le (first : List String) (rest : List (List String)) :
    ∀ n, companions width limit first rest n ≤ n
  | 0 => Nat.le_refl 0
  | n + 1 => by
    rw [companions]
    split
    next => exact Nat.le_refl _
    next => exact Nat.le_succ_of_le (companions_le first rest n)

/-- A group and its companions are a longest fit. -/
theorem longestFit_companions (first : List String) (rest : List (List String)) :
    LongestFit width limit (first :: rest) 0
      (companions width limit first rest rest.length + 1) := by
  have hextract : ∀ n, (first :: rest).extract 0 (n + 1) = first :: rest.take n := by
    intro n
    rw [List.extract_eq_take_drop, List.drop_zero, Nat.sub_zero, List.take_succ_cons]
  have hends : ∀ stop ∈ fittingEnds width limit (first :: rest) 0,
      stop ≤ companions width limit first rest rest.length + 1 := by
    rintro (_ | n) ⟨hseveral, hlength, hfits⟩
    · exact Nat.zero_le _
    · rw [hextract] at hfits
      exact Nat.succ_le_succ (le_companions hfits (Nat.le_of_succ_le_succ hlength))
  by_cases hzero : companions width limit first rest rest.length = 0
  · rw [hzero] at hends ⊢
    refine .single (Set.eq_empty_of_forall_notMem ?_)
    intro stop hstop
    exact absurd (hends stop hstop) (Nat.not_le_of_lt hstop.1)
  · refine .several ⟨⟨by omega, ?_, ?_⟩, hends⟩
    · exact Nat.succ_le_succ (companions_le first rest rest.length)
    · rw [hextract]
      exact width_le_of_companions first rest rest.length hzero

/-! ## Cut points -/

/-- Points from the first group to the last, each of which is the end of the longest fit from the
one before. -/
structure CutPoints (width : String → Nat) (limit : Nat) (groups : List (List String)) (k : Nat)
    (point : Nat → Nat) : Prop where
  first : point 0 = 0
  last : point k = groups.length
  longest : ∀ i < k, LongestFit width limit groups (point i) (point (i + 1))

namespace CutPoints

variable {k k' : Nat} {point point' : Nat → Nat}

theorem lt_of_lt (h : CutPoints width limit groups k point) {i j : Nat} (hij : i < j)
    (hj : j ≤ k) : point i < point j := by
  induction j with
  | zero => exact absurd hij (Nat.not_lt_zero i)
  | succ j ih =>
    have hstep : point j < point (j + 1) := (h.longest j hj).lt
    rcases Nat.lt_or_eq_of_le (Nat.le_of_lt_succ hij) with hlt | rfl
    · exact Nat.lt_trans (ih hlt (Nat.le_of_succ_le hj)) hstep
    · exact hstep

/-- The points are the same as long as there are any. -/
theorem eq_of_le (h : CutPoints width limit groups k point)
    (h' : CutPoints width limit groups k' point') {i : Nat} (hi : i ≤ k) (hi' : i ≤ k') :
    point i = point' i := by
  induction i with
  | zero => rw [h.first, h'.first]
  | succ i ih =>
    have hlongest := h.longest i hi
    rw [ih (Nat.le_of_succ_le hi) (Nat.le_of_succ_le hi')] at hlongest
    exact hlongest.unique (h'.longest i hi')

/-- The last group is reached after equally many points. -/
theorem le_of_cutPoints (h : CutPoints width limit groups k point)
    (h' : CutPoints width limit groups k' point') : k' ≤ k := by
  by_contra hlt
  have heq : point k = point' k := h.eq_of_le h' (Nat.le_refl k) (by omega)
  have hend : point' k < point' k' := h'.lt_of_lt (by omega) (Nat.le_refl k')
  rw [← heq, h.last, h'.last] at hend
  exact Nat.lt_irrefl _ hend

end CutPoints

/-- Behind the first runs of a cut stand the runs of the groups behind them. -/
theorem drop_cut (width : String → Nat) (limit : Nat) (groups : List (List String)) (i : Nat) :
    (cut width limit groups).drop i
      = cut width limit (groups.drop (boundary (cut width limit groups) i)) := by
  induction i generalizing groups with
  | zero => rw [List.drop_zero, boundary_zero, List.drop_zero]
  | succ i ih =>
    cases groups with
    | nil => rw [cut, List.drop_nil, List.drop_nil, cut]
    | cons first rest =>
      have hle : companions width limit first rest rest.length ≤ rest.length :=
        companions_le first rest rest.length
      have hlength : (first :: rest.take (companions width limit first rest rest.length)).length
          = companions width limit first rest rest.length + 1 := by
        rw [List.length_cons, List.length_take, Nat.min_eq_left hle]
      rw [cut, List.drop_succ_cons, ih, boundary_cons_succ, hlength, Nat.add_right_comm,
        List.drop_succ_cons, List.drop_drop]

/-- **A cut is made at its cut points.** -/
theorem cutPoints_cut (width : String → Nat) (limit : Nat) (groups : List (List String)) :
    CutPoints width limit groups (cut width limit groups).length
      (boundary (cut width limit groups)) := by
  refine ⟨boundary_zero _, ?_, ?_⟩
  · rw [boundary_length, flatten_cut]
  · intro i hi
    have hrun := drop_cut width limit groups i
    rw [List.drop_eq_getElem_cons hi] at hrun
    rw [boundary_succ hi]
    apply LongestFit.of_drop
    -- The run is the first one of what is left, and something is left.
    cases hrest : groups.drop (boundary (cut width limit groups) i) with
    | nil =>
      rw [hrest, cut] at hrun
      exact absurd hrun (List.cons_ne_nil _ _)
    | cons first rest =>
      rw [hrest, cut] at hrun
      rw [(List.cons.inj hrun).1, List.length_cons, List.length_take,
        Nat.min_eq_left (companions_le first rest rest.length)]
      exact longestFit_companions first rest

/-! ## Lines -/

/-- **Packing is greedy longest fit**, whatever the width says. The lines hold the groups that are
not empty between the cut points, and there are no other cut points. So no group is split, moved,
lost or repeated, a line of several groups fits the limit, and no line with more groups from the
same group onwards would fit. -/
theorem pack_longest_fit (width : String → Nat) (limit : Nat) (groups : List (List String)) :
    let full := groups.filter (!·.isEmpty)
    ∃ (k : Nat) (point : Nat → Nat), CutPoints width limit full k point ∧
      (∀ k' point', CutPoints width limit full k' point' →
        k' = k ∧ ∀ i ≤ k, point' i = point i) ∧
      pack width limit groups = (between full k point).map line ∧
      (between full k point).flatten = full ∧
      ∀ i < k,
        (point i + 1 < point (i + 1) →
          width (line (full.extract (point i) (point (i + 1)))) ≤ limit) ∧
        ∀ further, point (i + 1) < further → further ≤ full.length →
          limit < width (line (full.extract (point i) further)) := by
  intro full
  have hpoints : CutPoints width limit full (cut width limit full).length
      (boundary (cut width limit full)) := cutPoints_cut width limit full
  have hruns := between_boundary (cut width limit full)
  rw [flatten_cut] at hruns
  refine ⟨_, _, hpoints, ?_, ?_, ?_, ?_⟩
  · intro k' point' h'
    have hk : k' = (cut width limit full).length :=
      Nat.le_antisymm (hpoints.le_of_cutPoints h') (h'.le_of_cutPoints hpoints)
    exact ⟨hk, fun i hi => h'.eq_of_le hpoints (by omega) hi⟩
  · rw [hruns]
    rfl
  · rw [hruns, flatten_cut]
  · intro i hi
    exact ⟨(hpoints.longest i hi).fits, fun further => (hpoints.longest i hi).wide⟩

/-- A width that does not grow with the line: two groups from the first one do not fit the limit,
but three do. The last group is too wide for any line. -/
theorem pack_longest_fit_shrinking :
    let width : String → Nat := fun line => if line.length = 3 then 9 else line.length
    let groups := [[], ["a"], ["b"], [], ["c"], ["d", "e"]]
    let full := groups.filter (!·.isEmpty)
    pack width 6 groups = ["a b c", "d e"] ∧
      ∃ point, CutPoints width 6 full 2 point ∧ point 0 = 0 ∧ point 1 = 3 ∧
        6 < width (line (full.extract 0 2)) ∧
        width (line (full.extract (point 0) (point 1))) ≤ 6 ∧
        6 < width (line (full.extract (point 0) 4)) := by
  intro width groups full
  obtain ⟨k, point, hpoints, hunique, -, -, hends⟩ := pack_longest_fit width 6 groups
  obtain ⟨hk, hpoint⟩ := hunique _ _ (cutPoints_cut width 6 full)
  have hcut : cut width 6 full = [[["a"], ["b"], ["c"]], [["d", "e"]]] := by
    unfold full groups width
    decide +kernel
  have hlines : pack width 6 groups = ["a b c", "d e"] := by
    unfold groups width
    decide +kernel
  rw [hcut] at hk hpoint
  obtain rfl : 2 = k := hk
  have hfirst : point 1 = 3 := (hpoint 1 (by decide)).symm
  obtain ⟨hfits, hwide⟩ := hends 0 (by decide)
  refine ⟨hlines, point, hpoints, hpoints.first, hfirst, by decide, ?_, ?_⟩
  · apply hfits
    rw [hpoints.first, hfirst]
    decide
  · apply hwide
    · rw [hfirst]
      decide
    · decide

/-! ## The number of lines -/

/-- The runs hold the groups in order, none is empty, and those of several groups fit the limit. -/
structure Cutting (width : String → Nat) (limit : Nat) (groups : List (List String))
    (runs : List (List (List String))) : Prop where
  flatten : runs.flatten = groups
  ne_nil : ∀ run ∈ runs, run ≠ []
  fits : ∀ run ∈ runs, 2 ≤ run.length → width (line run) ≤ limit

theorem cutting_cut (width : String → Nat) (limit : Nat) (groups : List (List String)) :
    Cutting width limit groups (cut width limit groups) :=
  ⟨flatten_cut groups, fun _ => ne_nil_of_mem_cut, fun _ => width_le_of_mem_cut⟩

/-- The number of lines is the smallest number of runs if the width grows with the runs. -/
theorem isLeast_length_pack {width : String → Nat} {groups : List (List String)}
    (hgrows : GrowsWithRuns width (groups.filter (!·.isEmpty))) (limit : Nat) :
    IsLeast {n | ∃ runs, Cutting width limit (groups.filter (!·.isEmpty)) runs ∧ runs.length = n}
      (pack width limit groups).length := by
  rw [pack, List.length_map]
  constructor
  · exact ⟨_, cutting_cut width limit _, rfl⟩
  · rintro n ⟨runs, hruns, rfl⟩
    rw [← hruns.flatten] at hgrows ⊢
    exact length_cut_le hgrows hruns.fits

/-- **A packing has the fewest lines**, if the width grows with the runs, and so if characters are
counted: of all ways to cut the groups that are not empty into runs of which those of several
groups fit, none has fewer runs than the packing has lines. -/
theorem pack_fewest_lines (width : String → Nat) (limit : Nat) (groups : List (List String)) :
    let full := groups.filter (!·.isEmpty)
    (GrowsWithRuns width full →
      IsLeast {n | ∃ runs, Cutting width limit full runs ∧ runs.length = n}
        (pack width limit groups).length) ∧
    IsLeast {n | ∃ runs, Cutting Measure.chars.width limit full runs ∧ runs.length = n}
      (pack Measure.chars.width limit groups).length := by
  intro full
  constructor
  · intro hgrows
    exact isLeast_length_pack hgrows limit
  · exact isLeast_length_pack (growsWithRuns_length full) limit

/-- Lines measured in started blocks of four characters, with a group that is too wide. -/
theorem pack_fewest_lines_blocks :
    let width : String → Nat := fun line => (line.length + 3) / 4
    let groups := [["a"], [], ["p-1", "p-2", "p-4"], ["b"], ["c"]]
    let full := groups.filter (!·.isEmpty)
    GrowsWithRuns width full ∧ pack width 1 groups = ["a", "p-1 p-2 p-4", "b c"] ∧
      IsLeast {n | ∃ runs, Cutting width 1 full runs ∧ runs.length = n}
        (pack width 1 groups).length := by
  intro width groups full
  have hgrows : GrowsWithRuns width full := by
    intro run part hrun hpart hne
    have hlength : (line part).length ≤ (line run).length :=
      growsWithRuns_length full run part hrun hpart hne
    exact Nat.div_le_div_right (Nat.add_le_add_right hlength 3)
  have hlines : pack width 1 groups = ["a", "p-1 p-2 p-4", "b c"] := by
    unfold groups width
    decide +kernel
  exact ⟨hgrows, hlines, (pack_fewest_lines width 1 groups).1 hgrows⟩

end Packing

end ClassTidy
