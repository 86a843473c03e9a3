import Mathlib.Algebra.Order.BigOperators.Group.List
import Mathlib.Algebra.Order.Group.Nat
import ClassTidy.Proofs.Order

/-!
# What only moves line breaks

The width, its measure and the joining of the lines of a viewport bear on where lines end, and on
nothing else: the lines joined by spaces are the classes in their order, joined by spaces.

> `spaced_layout`: the lines of a layout, joined, do not depend on where they are broken;
> `perm_classes_rows`: what stands on the lines is what is given, each class as often.

How many lines there are depends on the width. A larger one may break a shelf at places where a
smaller one does not, but the runs of a smaller one fit the larger one too, and no cut has fewer
runs than the greedy one (`length_cut_le`).

> `line_breaks_only`: both together.
-/

namespace ClassTidy

/-! ## The classes of all lines -/

namespace Settings

/-- The classes of an attribute in the order of its lines. -/
def classesInOrder (s : Settings) (a : Attribute) : List String :=
  match s.mode with
  | .separate | .separateCategorized =>
    (s.sort a.base).inOrder s.placement
      ++ s.viewports.eraseDups.flatMap fun label => (s.sort (a.scopedTo label)).inOrder s.placement
  | .inline => (s.sort (a.combined s.viewports)).inOrder s.placement
  | .unknown => []

theorem flatMap_classes_rows (s : Settings) (a : Attribute) :
    (s.rows a).flatMap (Row.classes s) = s.classesInOrder a := by
  unfold rows classesInOrder
  cases s.mode with
  | separate => simp [List.flatMap_assoc]
  | separateCategorized => simp [List.flatMap_assoc]
  | inline => exact flatMap_classes_passRows s _
  | unknown => rfl

/-- With categories and a known mode the rows hold the base classes and the scoped classes of every
label, each as often as it is given. -/
theorem perm_classes_rows {s : Settings} (ht : s.taxonomy ≠ []) (hm : s.mode ≠ .unknown)
    (a : Attribute) : ((s.rows a).flatMap (Row.classes s)).Perm (a.combined s.viewports) := by
  have hseparate : ((s.sort a.base).inOrder s.placement
        ++ s.viewports.eraseDups.flatMap fun label =>
          (s.sort (a.scopedTo label)).inOrder s.placement).Perm (a.combined s.viewports) :=
    (perm_inOrder_sort ht a.base).append
      (List.Perm.flatMap_left _ fun label _ => perm_inOrder_sort ht (a.scopedTo label))
  rw [flatMap_classes_rows, classesInOrder]
  cases hmode : s.mode with
  | separate => exact hseparate
  | separateCategorized => exact hseparate
  | inline => exact perm_inOrder_sort ht _
  | unknown => exact absurd hmode hm

/-- No row is without classes. -/
theorem classes_ne_nil_of_mem_rows {s : Settings} {a : Attribute} {row : Row}
    (h : row ∈ s.rows a) : row.classes s ≠ [] := by
  unfold rows at h
  have hjoined : ∀ pass, row ∈ s.joinedRows pass → row.classes s ≠ [] := by
    intro pass h
    unfold joinedRows at h
    split at h
    next => exact absurd h List.not_mem_nil
    next hrows =>
      obtain rfl := List.mem_singleton.mp h
      obtain ⟨row, hrow⟩ := List.exists_mem_of_ne_nil (s.passRows pass) (by simpa using hrows)
      intro hnil
      rw [Row.classes, ← flatMap_classes_passRows, List.flatMap_eq_nil_iff] at hnil
      exact classes_ne_nil_of_mem_passRows hrow (hnil row hrow)
  cases hm : s.mode with
  | separate =>
    rw [hm] at h
    rcases List.mem_append.mp h with h | h
    · exact classes_ne_nil_of_mem_passRows h
    · obtain ⟨label, -, h⟩ := List.mem_flatMap.mp h
      exact hjoined _ h
  | separateCategorized =>
    rw [hm] at h
    rcases List.mem_append.mp h with h | h
    · exact classes_ne_nil_of_mem_passRows h
    · obtain ⟨label, -, h⟩ := List.mem_flatMap.mp h
      exact classes_ne_nil_of_mem_passRows h
  | inline =>
    rw [hm] at h
    exact classes_ne_nil_of_mem_passRows h
  | unknown =>
    rw [hm] at h
    exact absurd h List.not_mem_nil

/-- The lines, joined by spaces, are the classes joined by spaces. -/
theorem spaced_layout (s : Settings) (a : Attribute) :
    spaced (s.layout a) = spaced (s.classesInOrder a) := by
  have hne : ∀ l ∈ (s.rows a).map (Row.classes s), l ≠ [] := by
    intro l hl
    obtain ⟨row, hrow, rfl⟩ := List.mem_map.mp hl
    exact classes_ne_nil_of_mem_rows hrow
  calc spaced (s.layout a)
      = spaced (((s.rows a).map (Row.classes s)).map spaced) := by
        rw [layout_eq_rows, List.map_map]
        rfl
    _ = spaced ((s.rows a).flatMap (Row.classes s)) := by
        rw [spaced_map_spaced hne, List.flatMap_def]
    _ = spaced (s.classesInOrder a) := by rw [flatMap_classes_rows]

end Settings

/-! ## The number of lines -/

/-- Sorted classes have no more lines if the limit of characters is larger. -/
theorem Sorted.length_lines_le {limit limit' : Nat} (x : Sorted) (placement : Placement)
    (h : limit ≤ limit') :
    (x.lines String.length limit' placement).length
      ≤ (x.lines String.length limit placement).length := by
  have hpack : ∀ shelf : Shelf, (pack String.length limit' shelf.groups).length
      ≤ (pack String.length limit shelf.groups).length := by
    intro shelf
    unfold pack
    rw [List.length_map, List.length_map]
    exact Packing.length_cut_le_of_limit_le (Packing.growsWithRuns_length _) h
  have hshelves : (x.shelves.flatMap fun shelf => pack String.length limit' shelf.groups).length
      ≤ (x.shelves.flatMap fun shelf => pack String.length limit shelf.groups).length := by
    rw [List.length_flatMap, List.length_flatMap]
    exact List.sum_le_sum fun shelf _ => hpack shelf
  unfold Sorted.lines
  split
  next => exact hshelves
  next =>
    cases placement with
    | before => exact Nat.succ_le_succ hshelves
    | after =>
      rw [List.length_append, List.length_append]
      exact Nat.add_le_add_right hshelves _

namespace Settings

/-- Joining does not make more lines out of fewer. -/
theorem length_joinLines_le {lines lines' : List String} (h : lines'.length ≤ lines.length) :
    (joinLines lines').length ≤ (joinLines lines).length := by
  unfold joinLines
  cases lines' with
  | nil => exact Nat.zero_le _
  | cons line' lines' =>
    cases lines with
    | nil => exact absurd h (by simp)
    | cons line lines => exact Nat.le_refl _

/-- A layout has no more lines if no pass has more. -/
theorem length_layout_le {s s' : Settings} (hmode : s'.mode = s.mode)
    (hviewports : s'.viewports = s.viewports)
    (hpass : ∀ pass, (s'.passLines pass).length ≤ (s.passLines pass).length) (a : Attribute) :
    (s'.layout a).length ≤ (s.layout a).length := by
  have hseparate : ∀ join : List String → List String,
      (∀ {lines lines' : List String}, lines'.length ≤ lines.length →
        (join lines').length ≤ (join lines).length) →
      (s'.separateLines a join).length ≤ (s.separateLines a join).length := by
    intro join hjoin
    unfold separateLines
    rw [hviewports, List.length_append, List.length_append, List.length_flatMap,
      List.length_flatMap]
    exact Nat.add_le_add (hpass _) (List.sum_le_sum fun label _ => hjoin (hpass _))
  unfold layout
  rw [hmode, hviewports]
  cases s.mode with
  | separate => exact hseparate joinLines length_joinLines_le
  | separateCategorized => exact hseparate id id
  | inline => exact hpass _
  | unknown => exact Nat.le_refl _

/-- **Width, measure and the joining of viewports only move line breaks.** The lines joined by
spaces are the same text whatever the width and the measure are, and whether the lines of each
viewport are joined or not. With characters counted, a larger width never makes more lines. -/
theorem line_breaks_only (s : Settings) (a : Attribute) :
    (∀ width measure mode,
      (mode = s.mode ∨ (s.mode = .separate ∧ mode = .separateCategorized) ∨
        (s.mode = .separateCategorized ∧ mode = .separate)) →
      let s' : Settings := { s with printWidth := width, measure := measure, mode := mode }
      spaced (s'.layout a) = spaced (s.layout a)) ∧
    (∀ width width', width ≤ width' →
      let narrow : Settings := { s with printWidth := width, measure := .chars }
      let broad : Settings := { s with printWidth := width', measure := .chars }
      (broad.layout a).length ≤ (narrow.layout a).length) := by
  constructor
  · intro width measure mode hmode s'
    have hclasses : s'.classesInOrder a = s.classesInOrder a := by
      unfold classesInOrder
      rcases hmode with hmode | ⟨hs, hmode⟩ | ⟨hs, hmode⟩
      · rw [show s'.mode = s.mode from hmode]
        rfl
      · rw [show s'.mode = .separateCategorized from hmode, hs]
        rfl
      · rw [show s'.mode = .separate from hmode, hs]
        rfl
    rw [spaced_layout, spaced_layout, hclasses]
  · intro width width' hle narrow broad
    have hpass : ∀ pass, (broad.passLines pass).length ≤ (narrow.passLines pass).length :=
      fun pass => Sorted.length_lines_le _ _ hle
    have hmode : broad.mode = narrow.mode := rfl
    have hviewports : broad.viewports = narrow.viewports := rfl
    exact length_layout_le hmode hviewports hpass a

/-- A class without characters, and a viewport that is joined or not. -/
theorem line_breaks_only_empty_class :
    let s : Settings := { taxonomy := [⟨"box", "flex p-*"⟩], viewports := ["md"] }
    let narrow : Settings := { s with printWidth := 6, measure := .chars }
    let s' : Settings :=
      { s with printWidth := 6, measure := .display, mode := .separateCategorized }
    let a : Attribute :=
      { base := ["p-4", "", "flex"], byViewport := .ofList [("md", ["?", "flex"])] }
    (s.mode = .separate ∧ s'.mode = .separateCategorized) ∧ narrow.printWidth ≤ s.printWidth ∧
      s.layout a = ["flex p-4", "", "md:flex md:?"] ∧
      s'.layout a = ["flex", "p-4", "", "md:flex", "md:?"] ∧
      spaced (s'.layout a) = spaced (s.layout a) ∧
      (s.layout a).length ≤ (narrow.layout a).length := by
  intro s narrow s' a
  have hmode : s.mode = .separate ∧ s'.mode = .separateCategorized := ⟨rfl, rfl⟩
  have hwidth : narrow.printWidth ≤ s.printWidth := by decide
  have hlayouts : s.layout a = ["flex p-4", "", "md:flex md:?"] ∧
      s'.layout a = ["flex", "p-4", "", "md:flex", "md:?"] := by
    unfold layout separateLines passLines Settings.sort Sorted.ofClasses
    rw [Taxonomy.ranking_eq_insertionSort]
    decide +kernel
  exact ⟨hmode, hwidth, hlayouts.1, hlayouts.2,
    (line_breaks_only s a).1 6 .display .separateCategorized (Or.inr (Or.inl hmode)),
    (line_breaks_only s a).2 6 80 hwidth⟩

end Settings

end ClassTidy
