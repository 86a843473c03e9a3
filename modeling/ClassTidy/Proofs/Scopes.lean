import ClassTidy.Attribute.Basic
import ClassTidy.Proofs.Distinct
import ClassTidy.Proofs.StableSort

/-!
# Which words go to which viewport

A word of a class attribute goes to the first label that scopes it, less its scope. Put back into
the scope it is the word again (`scope?_cases`), so the classes of a label, with their scope, are
words of the text:

> `base_ofWords`: the base classes are the words of rank 0;
> `scopedTo_ofWords`: the scoped classes of a label are the words whose rank is that of the label.

All of them together, label after label, are a stable sort of the words:

> `combined_ofWords`: the combined classes are the words sorted by `viewportRank`.
-/

namespace ClassTidy

/-- Whether a class begins with the label and a colon. The empty label scopes nothing. -/
def scopes (label cls : String) : Bool :=
  !label.isEmpty && (label ++ ":").toList.isPrefixOf cls.toList

/-- Where a class stands among the viewports: at 0 if no label scopes it, and else one behind the
position that the first label that scopes it has among the distinct labels. -/
def viewportRank (viewports : List String) (cls : String) : Nat :=
  match viewports.find? (scopes · cls) with
  | some label => viewports.eraseDups.idxOf label + 1
  | none => 0

/-! ## One word -/

/-- The rest behind a label makes the class again. -/
@[simp] theorem afterLabel?_eq_some_iff {label cls name : String} :
    afterLabel? label cls = some name ↔ inScope label name = cls := by
  unfold afterLabel? inScope
  rw [Option.map_eq_some_iff]
  constructor
  · rintro ⟨r, hr, rfl⟩
    refine String.toList_injective ?_
    rw [String.toList_append, String.toList_append, String.toList_ofList (l := r)]
    exact List.isPrefixOf?_eq_some_iff_append_eq.mp hr
  · rintro rfl
    refine ⟨name.toList, List.isPrefixOf?_eq_some_iff_append_eq.mpr ?_, String.ofList_toList⟩
    rw [String.toList_append, String.toList_append]
    rfl

/-- A label that is not empty scopes a class if there is a rest behind it. -/
theorem scopes_iff {label cls : String} :
    scopes label cls = true ↔ label.isEmpty = false ∧ ∃ name, inScope label name = cls := by
  unfold scopes inScope
  rw [Bool.and_eq_true, Bool.not_eq_true', List.isPrefixOf_iff_prefix]
  apply and_congr_right
  intro _
  constructor
  · rintro ⟨r, hr⟩
    refine ⟨String.ofList r, String.toList_injective ?_⟩
    rw [String.toList_append, String.toList_ofList]
    exact hr
  · rintro ⟨name, rfl⟩
    exact ⟨name.toList, (String.toList_append ..).symm⟩

/-- There is no rest behind a label that is not empty and does not scope the class. -/
theorem afterLabel?_eq_none {label cls : String} (hne : label.isEmpty = false)
    (h : scopes label cls = false) : afterLabel? label cls = none := by
  rw [Option.eq_none_iff_forall_ne_some]
  intro name hname
  have hscopes := scopes_iff.mpr ⟨hne, name, afterLabel?_eq_some_iff.mp hname⟩
  exact Bool.false_ne_true (h.symm.trans hscopes)

/-- The scope of a class is the first label that scopes it, and the scope and the bare name make the
class. A class without such a label has no scope. -/
theorem scope?_cases (viewports : List String) (cls : String) :
    (viewports.find? (scopes · cls) = none ∧ scope? viewports cls = none) ∨
      ∃ label name, viewports.find? (scopes · cls) = some label ∧
        scope? viewports cls = some (label, name) ∧ inScope label name = cls := by
  unfold scope?
  induction viewports with
  | nil => exact Or.inl ⟨rfl, rfl⟩
  | cons label viewports ih =>
    rw [List.find?_cons, List.findSome?_cons]
    cases hs : scopes label cls with
    | true =>
      obtain ⟨hne, name, hname⟩ := scopes_iff.mp hs
      rw [hne, afterLabel?_eq_some_iff.mpr hname]
      exact Or.inr ⟨label, name, rfl, rfl, hname⟩
    | false =>
      -- The label is empty, or there is no rest behind it: either way the search goes on.
      have hnone : (if label.isEmpty then none else (afterLabel? label cls).map (label, ·))
          = none := by
        cases he : label.isEmpty with
        | true => rfl
        | false => rw [if_neg Bool.false_ne_true, afterLabel?_eq_none he hs, Option.map_none]
      rw [hnone]
      exact ih

/-! ## The ranks of the labels -/

theorem viewportRank_eq_zero_iff {viewports : List String} {cls : String} :
    viewportRank viewports cls = 0 ↔ viewports.find? (scopes · cls) = none := by
  unfold viewportRank
  cases viewports.find? (scopes · cls) <;> simp

/-- The rank of a label tells the label, since no label comes twice. -/
theorem viewportRank_eq_label_iff {viewports : List String} {cls label : String} :
    viewportRank viewports cls = viewports.eraseDups.idxOf label + 1 ↔
      viewports.find? (scopes · cls) = some label := by
  unfold viewportRank
  cases hfind : viewports.find? (scopes · cls) with
  | none => simp
  | some label' =>
    have hmem : label' ∈ viewports.eraseDups :=
      List.mem_eraseDups.mpr (List.mem_of_find?_eq_some hfind)
    rw [Option.some_inj, Nat.add_right_cancel_iff, List.idxOf_inj hmem]

/-- The rank of each distinct label. -/
def labelRanks (viewports : List String) : List Nat :=
  viewports.eraseDups.map fun label => viewports.eraseDups.idxOf label + 1

/-- The ranks ascend, label after label. -/
theorem pairwise_labelRanks (viewports : List String) :
    (0 :: labelRanks viewports).Pairwise (· < ·) := by
  refine List.pairwise_cons.mpr ⟨?_, List.pairwise_map.mpr ?_⟩
  · intro r hr
    obtain ⟨label, -, rfl⟩ := List.mem_map.mp hr
    exact Nat.succ_pos _
  · have hnodup := nodup_eraseDups viewports
    rw [List.pairwise_iff_getElem]
    intro i j hi hj hij
    rw [hnodup.idxOf_getElem i hi, hnodup.idxOf_getElem j hj]
    omega

theorem viewportRank_mem (viewports : List String) (cls : String) :
    viewportRank viewports cls ∈ 0 :: labelRanks viewports := by
  unfold viewportRank
  cases hfind : viewports.find? (scopes · cls) with
  | none => exact List.mem_cons_self ..
  | some label =>
    have hmem := List.mem_eraseDups.mpr (List.mem_of_find?_eq_some hfind)
    exact List.mem_cons_of_mem _ (List.mem_map_of_mem hmem)

namespace Attribute

/-! ## A list of words -/

/-- The attribute that a list of words stands for. -/
def ofWords (viewports words : List String) : Attribute :=
  words.foldl (push viewports) {}

theorem ofText_eq_ofWords (viewports : List String) (text : String) :
    ofText viewports text = ofWords viewports (Text.words text) := rfl

variable {viewports : List String}

/-- One more word stays a base class if no label scopes it. -/
theorem base_push (a : Attribute) (cls : String) :
    (push viewports a cls).base
      = if viewportRank viewports cls = 0 then a.base ++ [cls] else a.base := by
  unfold push
  rcases scope?_cases viewports cls with ⟨hfind, hscope⟩ | ⟨label, name, hfind, hscope, -⟩
  · rw [hscope, if_pos (viewportRank_eq_zero_iff.mpr hfind)]
  · have hrank : viewportRank viewports cls ≠ 0 := by
      intro hzero
      rw [viewportRank_eq_zero_iff.mp hzero] at hfind
      exact Option.some_ne_none label hfind.symm
    rw [hscope, if_neg hrank]

/-- One more word is the last of its label, and the words of other labels stay. -/
theorem scopedTo_push (a : Attribute) (cls label : String) :
    (push viewports a cls).scopedTo label
      = if viewportRank viewports cls = viewports.eraseDups.idxOf label + 1
        then a.scopedTo label ++ [cls] else a.scopedTo label := by
  simp only [viewportRank_eq_label_iff]
  unfold push scopedTo
  rcases scope?_cases viewports cls with ⟨hfind, hscope⟩ | ⟨label', name, hfind, hscope, hname⟩
  · rw [hscope, hfind, if_neg (Option.some_ne_none label).symm]
  · rw [hscope, hfind]
    simp only [OrderedMap.getD_get?_push, Option.some_inj]
    split
    next heq => rw [List.map_append, List.map_singleton, ← heq, hname]
    next => rfl

/-- A fold that appends some members to what is read off its state appends them in order. -/
private theorem foldl_append_filter {α σ : Type} {step : σ → α → σ} {p : α → Prop}
    [DecidablePred p] (read : σ → List α)
    (hstep : ∀ s a, read (step s a) = if p a then read s ++ [a] else read s) (l : List α) (s : σ) :
    read (l.foldl step s) = read s ++ l.filter p := by
  induction l generalizing s with
  | nil => exact (List.append_nil _).symm
  | cons a l ih =>
    rw [List.foldl_cons, ih, hstep]
    by_cases ha : p a
    · rw [if_pos ha, List.filter_cons_of_pos (p := (p ·)) (decide_eq_true ha), List.append_assoc]
      rfl
    · rw [if_neg ha, List.filter_cons_of_neg (p := (p ·)) (by simpa using ha)]

/-- The base classes are the words of rank 0. -/
@[simp] theorem base_ofWords (viewports words : List String) :
    (ofWords viewports words).base = words.filter (viewportRank viewports · = 0) := by
  exact foldl_append_filter base base_push words {}

/-- The scoped classes of a label are the words of the rank of the label. -/
@[simp] theorem scopedTo_ofWords (viewports words : List String) (label : String) :
    (ofWords viewports words).scopedTo label
      = words.filter (viewportRank viewports · = viewports.eraseDups.idxOf label + 1) := by
  exact foldl_append_filter (scopedTo · label) (scopedTo_push · · label) words {}

/-- What is made of the base classes and of the scoped classes of each label is made of the words of
each rank. -/
theorem append_flatMap_ofWords (viewports words : List String) (f : List String → List String) :
    f (ofWords viewports words).base
        ++ viewports.eraseDups.flatMap (fun label => f ((ofWords viewports words).scopedTo label))
      = (0 :: labelRanks viewports).flatMap fun r =>
          f (words.filter (viewportRank viewports · = r)) := by
  simp [labelRanks, List.flatMap_map]

/-- **The combined classes are the words, sorted by viewport.** -/
@[simp] theorem combined_ofWords (viewports words : List String) :
    (ofWords viewports words).combined viewports = sortBy (viewportRank viewports) words := by
  rw [← flatMap_filter_eq_sortBy (pairwise_labelRanks viewports)
    fun cls _ => viewportRank_mem viewports cls]
  exact append_flatMap_ofWords viewports words id

end Attribute

end ClassTidy
