import Mathlib.Data.List.Basic
import Mathlib.Data.List.TakeWhile
import ClassTidy.Packing
import ClassTidy.Text.Blank

/-!
# The words of texts that are put together

A blank between two texts separates their words, whatever it is, so the words of lines that are
joined by a blank or ended by one are the words of each line in turn:

> `words_intercalate`: the words of lines joined by a blank are those of the lines;
> `words_spaced`: words joined by spaces are found again.
-/

namespace ClassTidy.Text

/-- A word: at least one character, and no blank. -/
def IsWord (w : String) : Prop :=
  w ≠ "" ∧ ∀ c ∈ w.toList, isBlank c = false

/-- Splitting a text gives words. -/
theorem isWord_of_mem_words {w s : String} (h : w ∈ words s) : IsWord w := by
  obtain ⟨r, hr, rfl⟩ := List.mem_map.mp h
  obtain ⟨hne, hblank⟩ := ne_nil_of_mem_runs hr
  constructor
  · intro he
    exact hne (String.ofList_eq_empty_iff.mp he)
  · rw [String.toList_ofList]
    exact hblank

/-- A run ends at a blank at the latest, so what is behind the blank has runs of its own. -/
theorem runs_append_blank {c : Char} (hc : isBlank c = true) (cs ds : List Char) :
    runs (cs ++ c :: ds) = runs cs ++ runs ds := by
  fun_induction runs cs with
  | case1 =>
    rw [List.nil_append, List.nil_append, runs, if_pos hc]
  | case2 b cs hb ih =>
    rw [List.cons_append, runs, if_pos hb]
    exact ih
  | case3 b cs hb ih =>
    -- The run may end at a blank in front of `c` or go on to the end; `c` ends it in either case.
    have htake : (cs ++ c :: ds).takeWhile (!isBlank ·) = cs.takeWhile (!isBlank ·) := by
      rw [List.takeWhile_append, List.takeWhile_cons_of_neg (by simp [hc]), List.append_nil]
      split
      next hall =>
        exact ((List.takeWhile_sublist _).eq_of_length hall).symm
      next => rfl
    have hdrop : (cs ++ c :: ds).dropWhile (!isBlank ·) = cs.dropWhile (!isBlank ·) ++ c :: ds := by
      rw [List.dropWhile_append, List.dropWhile_cons_of_neg (by simp [hc])]
      split
      next hall => rw [List.isEmpty_iff.mp hall, List.nil_append]
      next => rfl
    rw [List.cons_append, runs, if_neg hb, htake, hdrop, ih, List.cons_append]

/-- The words of two texts with a blank between them. -/
theorem words_append_blank {sep : String} {c : Char} (hsep : sep.toList = [c])
    (hc : isBlank c = true) (s t : String) : words (s ++ sep ++ t) = words s ++ words t := by
  unfold words
  rw [String.toList_append, String.toList_append, hsep, List.append_assoc, List.singleton_append,
    runs_append_blank hc, List.map_append]

@[simp] theorem words_empty : words "" = [] := by
  simp [words, runs]

/-- Lines joined by a blank have the words of the lines. -/
theorem words_intercalate {sep : String} {c : Char} (hsep : sep.toList = [c])
    (hc : isBlank c = true) (lines : List String) :
    words (sep.intercalate lines) = lines.flatMap words := by
  induction lines with
  | nil => exact words_empty
  | cons line lines ih =>
    by_cases hl : lines = []
    · rw [hl, String.intercalate_singleton, List.flatMap_singleton]
    · rw [String.intercalate_cons_of_ne_nil hl, words_append_blank hsep hc, ih, List.flatMap_cons]

/-- Lines that each end in a blank have the words of the lines. -/
theorem words_join {sep : String} {c : Char} (hsep : sep.toList = [c])
    (hc : isBlank c = true) (lines : List String) :
    words (String.join (lines.map (· ++ sep))) = lines.flatMap words := by
  induction lines with
  | nil => exact words_empty
  | cons line lines ih =>
    rw [List.map_cons, String.join_cons, words_append_blank hsep hc, ih, List.flatMap_cons]

/-- A word is all that there is to split off it. -/
@[simp] theorem words_of_isWord {w : String} (h : IsWord w) : words w = [w] := by
  obtain ⟨hne, hblank⟩ := h
  unfold words
  cases hw : w.toList with
  | nil => exact absurd (String.toList_eq_nil_iff.mp hw) hne
  | cons c cs =>
    rw [hw] at hblank
    have hc : ¬isBlank c = true := by simp [hblank c (List.mem_cons_self ..)]
    have hcs : ∀ d ∈ cs, (!isBlank d) = true := by
      intro d hd
      simp [hblank d (List.mem_cons_of_mem _ hd)]
    rw [runs, if_neg hc, List.takeWhile_eq_self_iff.mpr hcs, List.dropWhile_eq_nil_iff.mpr hcs,
      runs, List.map_singleton, ← hw, String.ofList_toList]

/-- Words are joined by spaces without loss. -/
@[simp]
theorem words_spaced {ws : List String} (h : ∀ w ∈ ws, IsWord w) : words (spaced ws) = ws := by
  rw [spaced, words_intercalate rfl rfl]
  calc ws.flatMap words = ws.flatMap fun w => [w] := by
        apply List.flatMap_congr
        intro w hw
        exact words_of_isWord (h w hw)
    _ = ws := List.flatMap_singleton' ws

/-- Joining by spaces brings in nothing but spaces. -/
theorem mem_toList_spaced {ws : List String} {c : Char} (h : c ∈ (spaced ws).toList) :
    c = ' ' ∨ ∃ w ∈ ws, c ∈ w.toList := by
  induction ws with
  | nil => cases h
  | cons w ws ih =>
    by_cases hws : ws = []
    · rw [hws, spaced, String.intercalate_singleton] at h
      exact Or.inr ⟨w, List.mem_cons_self .., h⟩
    · rw [spaced, String.intercalate_cons_of_ne_nil hws, String.toList_append,
        String.toList_append, List.mem_append, List.mem_append] at h
      rcases h with (h | h) | h
      · exact Or.inr ⟨w, List.mem_cons_self .., h⟩
      · exact Or.inl (List.mem_singleton.mp h)
      · rcases ih h with hspace | ⟨w', hw', hc⟩
        · exact Or.inl hspace
        · exact Or.inr ⟨w', List.mem_cons_of_mem _ hw', hc⟩

end ClassTidy.Text
