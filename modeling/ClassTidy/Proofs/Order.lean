import ClassTidy.Proofs.Rows
import ClassTidy.Proofs.Scopes
import ClassTidy.Proofs.Words

/-!
# The order of a formatted text

A text is split into words, the words are told apart by scope, each pass is sorted onto shelves, the
shelves are cut into lines. Each of these steps is a stable sort by some key, or keeps the order, so
the whole is one:

> `flatMap_classes_rows_separate`: by viewport first, and then by owner;
> `flatMap_classes_rows_inline`: by owner first, and then by viewport.

The words of the lines are the classes of the rows (`flatMap_words_layout`), so this is what the
formatted text holds:

> `words_layout_sorted`: the words of the formatted text are those of the text, stably sorted.
-/

namespace ClassTidy

namespace Settings

/-- Where the owner of a class puts it. -/
def ownerRank (s : Settings) : String → Nat ×ₗ Nat ×ₗ Nat :=
  ClassTidy.ownerRank s.taxonomy s.viewports s.placement

/-- The key by which the modes with separate viewports sort. -/
def separateKey (s : Settings) (cls : String) : Nat ×ₗ Nat ×ₗ Nat ×ₗ Nat :=
  toLex (viewportRank s.viewports cls, s.ownerRank cls)

/-- The key by which the inline mode sorts. -/
def inlineKey (s : Settings) (cls : String) : (Nat ×ₗ Nat ×ₗ Nat) ×ₗ Nat :=
  toLex (s.ownerRank cls, viewportRank s.viewports cls)

variable {s : Settings}

/-- A pass is sorted by owner. -/
theorem inOrder_sort (ht : s.taxonomy ≠ []) (pass : List String) :
    (s.sort pass).inOrder s.placement = sortBy s.ownerRank pass := by
  unfold sort ownerRank
  by_cases hpass : pass = []
  · rw [Sorted.ofClasses_eq_empty (Or.inl hpass), hpass, sortBy_nil]
    cases s.placement <;> rfl
  · rw [Sorted.ofClasses_eq_filled hpass ht, Sorted.inOrder_filled]

theorem perm_inOrder_sort (ht : s.taxonomy ≠ []) (pass : List String) :
    ((s.sort pass).inOrder s.placement).Perm pass := by
  rw [inOrder_sort ht]
  exact sortBy_perm ..

/-! ## The classes of all rows -/

/-- With separate viewports the passes follow one another in the order of the viewports. -/
theorem flatMap_classes_rows_separate (ht : s.taxonomy ≠ [])
    (hm : s.mode = .separate ∨ s.mode = .separateCategorized) (words : List String) :
    (s.rows (.ofWords s.viewports words)).flatMap (Row.classes s)
      = sortBy s.separateKey words := by
  have hrows : (s.rows (.ofWords s.viewports words)).flatMap (Row.classes s)
      = sortBy s.ownerRank (Attribute.ofWords s.viewports words).base
        ++ s.viewports.eraseDups.flatMap fun label =>
            sortBy s.ownerRank ((Attribute.ofWords s.viewports words).scopedTo label) := by
    unfold rows
    rcases hm with hm | hm
    · simp [hm, List.flatMap_assoc, inOrder_sort ht]
    · simp [hm, List.flatMap_assoc, inOrder_sort ht]
  calc (s.rows (.ofWords s.viewports words)).flatMap (Row.classes s)
      = (0 :: labelRanks s.viewports).flatMap fun r =>
          sortBy s.ownerRank (words.filter (viewportRank s.viewports · = r)) := by
        rw [hrows, Attribute.append_flatMap_ofWords s.viewports words (sortBy s.ownerRank)]
    _ = (0 :: labelRanks s.viewports).flatMap fun r =>
          (sortBy s.ownerRank words).filter (viewportRank s.viewports · = r) := by
        simp only [filter_sortBy]
    _ = sortBy (viewportRank s.viewports) (sortBy s.ownerRank words) :=
        flatMap_filter_eq_sortBy (pairwise_labelRanks s.viewports)
          fun cls _ => viewportRank_mem s.viewports cls
    _ = sortBy s.separateKey words := sortBy_sortBy ..

/-- Inline there is one pass, whose classes stand in the order of the viewports before they are
sorted by owner. -/
theorem flatMap_classes_rows_inline (ht : s.taxonomy ≠ []) (hm : s.mode = .inline)
    (words : List String) :
    (s.rows (.ofWords s.viewports words)).flatMap (Row.classes s) = sortBy s.inlineKey words := by
  unfold rows
  rw [hm]
  calc (s.passRows ((Attribute.ofWords s.viewports words).combined s.viewports)).flatMap
          (Row.classes s)
      = sortBy s.ownerRank ((Attribute.ofWords s.viewports words).combined s.viewports) := by
        rw [flatMap_classes_passRows, inOrder_sort ht]
    _ = sortBy s.ownerRank (sortBy (viewportRank s.viewports) words) := by
        rw [Attribute.combined_ofWords]
    _ = sortBy s.inlineKey words := sortBy_sortBy ..

/-! ## The words of all lines -/

/-- If the classes of the rows are words, they are the words of the lines. -/
theorem flatMap_words_layout {a : Attribute}
    (h : ∀ cls ∈ (s.rows a).flatMap (Row.classes s), Text.IsWord cls) :
    (s.layout a).flatMap Text.words = (s.rows a).flatMap (Row.classes s) := by
  rw [layout_eq_rows, List.flatMap_map]
  apply List.flatMap_congr
  intro row hrow
  show Text.words (spaced (row.classes s)) = row.classes s
  apply Text.words_spaced
  intro cls hcls
  exact h cls (List.mem_flatMap.mpr ⟨row, hrow, hcls⟩)

/-- The words of the lines of a text are sorted if the classes of its rows are. -/
theorem flatMap_words_layout_ofText {κ : Type} [LinearOrder κ] {key : String → κ} {text : String}
    (h : (s.rows (.ofWords s.viewports (Text.words text))).flatMap (Row.classes s)
      = sortBy key (Text.words text)) :
    (s.layout (.ofText s.viewports text)).flatMap Text.words = sortBy key (Text.words text) := by
  rw [Attribute.ofText_eq_ofWords, ← h]
  apply flatMap_words_layout
  intro cls hcls
  rw [h] at hcls
  exact Text.isWord_of_mem_words (mem_sortBy.mp hcls)

/-- **A formatted text is a stable sort of the text.** The words of the lines, joined by spaces, are
the words of the text: none is lost, made up or repeated. With separate viewports they are sorted by
viewport and then by owner, inline by owner and then by viewport, and words of equal key stand in
the order of the text. -/
theorem words_layout_sorted (s : Settings) (text : String) (ht : s.taxonomy ≠ []) :
    (s.mode = .separate ∨ s.mode = .separateCategorized →
      Text.words (spaced (s.layout (.ofText s.viewports text)))
        = sortBy s.separateKey (Text.words text)) ∧
    (s.mode = .inline →
      Text.words (spaced (s.layout (.ofText s.viewports text)))
        = sortBy s.inlineKey (Text.words text)) := by
  rw [spaced, Text.words_intercalate rfl rfl]
  constructor
  · intro hm
    exact flatMap_words_layout_ofText (flatMap_classes_rows_separate ht hm _)
  · intro hm
    exact flatMap_words_layout_ofText (flatMap_classes_rows_inline ht hm _)

/-- A label that begins like another one, a label given twice, the empty label, and classes that no
entry owns. -/
theorem words_layout_sorted_nested_labels :
    let s : Settings :=
      { taxonomy := [⟨"box", "flex p-*"⟩, ⟨"text", "a"⟩]
        viewports := ["md:x", "", "md", "md:x"]
        placement := .before }
    let inline : Settings := { s with mode := .inline }
    let text := "p-1  md:x:a ?\tmd:x:p-1 flex md:?"
    s.taxonomy ≠ [] ∧ (s.mode = .separate ∨ s.mode = .separateCategorized) ∧
      inline.mode = .inline ∧
      s.layout (.ofText s.viewports text) = ["?", "flex p-1", "md:x:p-1 md:x:a", "md:?"] ∧
      Text.words (spaced (s.layout (.ofText s.viewports text)))
        = sortBy s.separateKey (Text.words text) ∧
      inline.layout (.ofText s.viewports text) = ["? md:?", "flex p-1 md:x:p-1", "md:x:a"] ∧
      Text.words (spaced (inline.layout (.ofText s.viewports text)))
        = sortBy inline.inlineKey (Text.words text) := by
  intro s inline text
  have ht : s.taxonomy ≠ [] := List.cons_ne_nil _ _
  have hm : s.mode = .separate ∨ s.mode = .separateCategorized := Or.inl rfl
  have hlayouts :
      s.layout (.ofText s.viewports text) = ["?", "flex p-1", "md:x:p-1 md:x:a", "md:?"] ∧
      inline.layout (.ofText s.viewports text) = ["? md:?", "flex p-1 md:x:p-1", "md:x:a"] := by
    unfold layout separateLines passLines Settings.sort Sorted.ofClasses
    rw [Taxonomy.ranking_eq_insertionSort]
    decide +kernel
  exact ⟨ht, hm, rfl, hlayouts.1, (words_layout_sorted s text ht).1 hm, hlayouts.2,
    (words_layout_sorted inline text ht).2 rfl⟩

end Settings

end ClassTidy
