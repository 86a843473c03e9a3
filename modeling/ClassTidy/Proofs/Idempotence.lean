import ClassTidy.Command.Program
import ClassTidy.Proofs.Order

/-!
# Formatting a formatted text

A formatted text has the words of the text in another order, but words of equal viewport and equal
owner keep theirs. A layout depends on no more than that:

> `layout_ofWords_congr`: words that agree by viewport and owner have the same layout.

So the lines do not change when they are formatted again, whether they are joined or printed:

> `layout_idempotent`: the layout of a formatted text is its lines.
-/

namespace ClassTidy.Settings

variable {s : Settings}

/-- Classes that agree by owner have the same lines. -/
theorem passLines_congr {pass pass' : List String} (h : AgreeBy s.ownerRank pass pass') :
    s.passLines pass = s.passLines pass' := by
  unfold passLines sort
  rw [Sorted.ofClasses_congr h]

/-- Words that agree by viewport and owner have the same layout: with separate viewports the words
of a viewport agree by owner, and inline all words do once they are sorted by viewport. -/
theorem layout_ofWords_congr {words words' : List String}
    (h : AgreeBy s.separateKey words words') :
    s.layout (.ofWords s.viewports words) = s.layout (.ofWords s.viewports words') := by
  have hpass : ∀ r, s.passLines (words.filter (viewportRank s.viewports · = r))
      = s.passLines (words'.filter (viewportRank s.viewports · = r)) := by
    intro r
    exact passLines_congr (h.of_toLex r)
  unfold layout separateLines
  cases s.mode with
  | separate => simp [hpass]
  | separateCategorized => simp [hpass]
  | inline =>
    show s.passLines _ = s.passLines _
    rw [Attribute.combined_ofWords, Attribute.combined_ofWords]
    apply passLines_congr
    intro k
    -- The words of one owner agree by viewport, so they are sorted to the same list.
    rw [filter_sortBy, filter_sortBy]
    exact (h.swap.of_toLex k).sortBy_eq
  | unknown => rfl

/-- A text with the words of a formatted text has the same lines. -/
theorem layout_of_words_eq {text text' : String}
    (h : Text.words text' = (s.layout (.ofText s.viewports text)).flatMap Text.words) :
    s.layout (.ofText s.viewports text') = s.layout (.ofText s.viewports text) := by
  by_cases hnil : s.taxonomy = [] ∨ s.mode = .unknown
  · rw [layout_eq_nil hnil, layout_eq_nil hnil]
  · obtain ⟨ht, hm⟩ := not_or.mp hnil
    have hagree : AgreeBy s.separateKey (Text.words text') (Text.words text) := by
      rw [h]
      by_cases hinline : s.mode = .inline
      · rw [flatMap_words_layout_ofText (flatMap_classes_rows_inline ht hinline _)]
        exact (agreeBy_sortBy s.inlineKey _).swap
      · have hseparate : s.mode = .separate ∨ s.mode = .separateCategorized := by
          cases hmode : s.mode with
          | separate => exact Or.inl rfl
          | separateCategorized => exact Or.inr rfl
          | inline => exact absurd hmode hinline
          | unknown => exact absurd hmode hm
        rw [flatMap_words_layout_ofText (flatMap_classes_rows_separate ht hseparate _)]
        exact agreeBy_sortBy s.separateKey _
    exact layout_ofWords_congr hagree

/-- **Formatting is idempotent.** The lines of a text, joined by spaces or by line breaks, or
printed, have themselves as lines again. -/
theorem layout_idempotent (s : Settings) (text : String) :
    let lines := s.layout (.ofText s.viewports text)
    s.layout (.ofText s.viewports (spaced lines)) = lines ∧
    s.layout (.ofText s.viewports ("\n".intercalate lines)) = lines ∧
    s.layout (.ofText s.viewports (Command.printLines false lines)) = lines := by
  intro lines
  have hspaced : Text.words (spaced lines) = lines.flatMap Text.words :=
    Text.words_intercalate rfl rfl lines
  have hbroken : Text.words ("\n".intercalate lines) = lines.flatMap Text.words :=
    Text.words_intercalate rfl rfl lines
  have hprinted : Text.words (Command.printLines false lines) = lines.flatMap Text.words :=
    Text.words_join rfl rfl lines
  exact ⟨layout_of_words_eq hspaced, layout_of_words_eq hbroken, layout_of_words_eq hprinted⟩

end ClassTidy.Settings
