import ClassTidy.Proofs.Labels
import ClassTidy.Proofs.LineBreaks

/-!
# When there is nothing to show

There are several ways to ask whether there are classes: whether sorted classes are empty, how many
there are, and what lines they have. On any shelves, however they were filled, these come to the
same, since groups that have no class are not packed and every other group gets on a line:

> `Sorted.size_eq_zero_iff`, `Sorted.lines_eq_nil_iff`: no class is counted, and there are no lines,
> exactly if the sorted classes are empty.

A layout holds all classes of the base and of the configured labels (`perm_classes_rows`) and no row
without a class, so it is empty only if they are all missing:

> `layout_eq_nil_iff`: when a layout has no lines;
> `empty_only_without_classes`: all of it together.
-/

namespace ClassTidy

/-! ## Sorted classes -/

section

variable {width : String → Nat} {limit : Nat}

@[simp] theorem Packing.cut_eq_nil_iff {groups : List (List String)} :
    cut width limit groups = [] ↔ groups = [] := by
  cases groups with
  | nil => simp [cut]
  | cons first rest => simp [cut]

/-- Every group with a class gets on a line. -/
@[simp] theorem pack_eq_nil_iff {groups : List (List String)} :
    pack width limit groups = [] ↔ ∀ group ∈ groups, group = [] := by
  simp [pack]

@[simp] theorem Shelf.isEmpty_iff {shelf : Shelf} :
    shelf.isEmpty = true ↔ ∀ bucket ∈ shelf.buckets, bucket.classes = [] := by
  simp [isEmpty]

theorem Shelf.pack_groups_eq_nil_iff {shelf : Shelf} :
    pack width limit shelf.groups = [] ↔ shelf.isEmpty = true := by
  simp [groups]

namespace Sorted

variable {x : Sorted}

@[simp] theorem isEmpty_iff :
    x.isEmpty = true ↔ x.uncategorized = [] ∧ ∀ shelf ∈ x.shelves, shelf.isEmpty = true := by
  simp [isEmpty]

/-- **No class is counted** exactly if there is none. -/
theorem size_eq_zero_iff : x.size = 0 ↔ x.isEmpty = true := by
  rw [← length_inOrder x .after, List.length_eq_zero_iff]
  simp [inOrder, and_comm]

/-- **There are no lines** exactly if there is no class. -/
theorem lines_eq_nil_iff {placement : Placement} :
    x.lines width limit placement = [] ↔ x.isEmpty = true := by
  have hshelves : (x.shelves.flatMap fun shelf => pack width limit shelf.groups) = []
      ↔ ∀ shelf ∈ x.shelves, shelf.isEmpty = true := by
    simp only [List.flatMap_eq_nil_iff, Shelf.pack_groups_eq_nil_iff]
  rw [isEmpty_iff, ← hshelves]
  unfold lines
  split
  next hnone => rw [List.isEmpty_iff.mp hnone, eq_self, true_and]
  next hsome =>
    have hne : x.uncategorized ≠ [] := by simpa using hsome
    cases placement with
    | before => simp [hne]
    | after => simp [hne]

end Sorted

end

/-! ## Layouts -/

namespace Attribute

variable {viewports : List String} {a : Attribute}

@[simp] theorem names_eq_nil_iff {label : String} :
    a.names label = [] ↔ a.byViewport.get? label = none ∨ a.byViewport.get? label = some [] := by
  unfold names
  cases a.byViewport.get? label <;> simp

@[simp] theorem combined_eq_nil_iff :
    a.combined viewports = [] ↔ a.base = [] ∧ ∀ label ∈ viewports, a.names label = [] := by
  simp [combined, scopedTo_eq_map_names]

end Attribute

namespace Settings

variable {s : Settings} {a : Attribute}

/-- There are no rows exactly if no row holds a class. -/
theorem rows_eq_nil_iff : s.rows a = [] ↔ (s.rows a).flatMap (Row.classes s) = [] := by
  constructor
  · intro hrows
    rw [hrows, List.flatMap_nil]
  · intro hclasses
    rw [List.eq_nil_iff_forall_not_mem]
    intro row hrow
    exact classes_ne_nil_of_mem_rows hrow (List.flatMap_eq_nil_iff.mp hclasses row hrow)

/-- **A layout has no lines** exactly if the mode is not known, there are no categories, or there is
no class to lay out. -/
theorem layout_eq_nil_iff :
    s.layout a = [] ↔ s.mode = .unknown ∨ s.taxonomy = [] ∨ a.combined s.viewports = [] := by
  by_cases ht : s.taxonomy = []
  · simp [layout_eq_nil (Or.inl ht) a, ht]
  by_cases hm : s.mode = .unknown
  · simp [layout_eq_nil (Or.inr hm) a, hm]
  have hclasses : (s.rows a).flatMap (Row.classes s) = [] ↔ a.combined s.viewports = [] := by
    have hperm := perm_classes_rows ht hm a
    rw [← List.length_eq_zero_iff, hperm.length_eq, List.length_eq_zero_iff]
  rw [layout_eq_rows, List.map_eq_nil_iff, rows_eq_nil_iff, hclasses]
  simp [ht, hm]

/-- **Nothing is shown only if there is nothing to show.** Any sorted classes are empty exactly if
none is counted, and exactly if they have no lines, for every width and limit. A layout has no lines
exactly if the mode is not known, or there are no categories, or there are no base classes and the
list of every configured label is missing or empty. And with a known mode and a category no class is
dropped: the lines are the texts of rows, which hold the base classes and the scoped classes of the
configured labels, each as often as it is given. -/
theorem empty_only_without_classes :
    (∀ (x : Sorted) (width : String → Nat) (limit : Nat) (placement : Placement),
      (x.isEmpty = true ↔ x.size = 0) ∧
      (x.isEmpty = true ↔ x.lines width limit placement = [])) ∧
    ∀ (s : Settings) (a : Attribute),
      (s.layout a = [] ↔ s.mode = .unknown ∨ s.taxonomy = [] ∨
        (a.base = [] ∧ ∀ label ∈ s.viewports,
          a.byViewport.get? label = none ∨ a.byViewport.get? label = some [])) ∧
      (s.mode ≠ .unknown → s.taxonomy ≠ [] →
        s.layout a = (s.rows a).map (Row.text s) ∧
        ((s.rows a).flatMap (Row.classes s)).Perm (a.combined s.viewports)) := by
  refine ⟨?_, ?_⟩
  · intro x width limit placement
    exact ⟨Sorted.size_eq_zero_iff.symm, Sorted.lines_eq_nil_iff.symm⟩
  · intro s a
    refine ⟨?_, ?_⟩
    · simp [layout_eq_nil_iff]
    · intro hm ht
      exact ⟨layout_eq_rows s a, perm_classes_rows ht hm a⟩

/-- A class without characters under the empty label, an entry that owns nothing, and lists that are
empty or not configured. -/
theorem empty_only_without_classes_empty_label :
    let s : Settings :=
      { taxonomy := [⟨"box", "flex"⟩, ⟨"none", ""⟩], viewports := ["md", "", "sm"],
        mode := .inline }
    let a : Attribute := { byViewport := .ofList [("lg", ["flex"]), ("", [""]), ("md", [])] }
    let a' : Attribute := { byViewport := .ofList [("lg", ["flex"]), ("md", [])] }
    (s.mode ≠ .unknown ∧ s.taxonomy ≠ []) ∧
      s.layout a = [":"] ∧ s.layout a ≠ [] ∧
      ((s.rows a).flatMap (Row.classes s)).Perm (a.combined s.viewports) ∧
      s.layout a' = [] := by
  intro s a a'
  have hm : s.mode ≠ .unknown := by decide
  have ht : s.taxonomy ≠ [] := List.cons_ne_nil _ _
  have hlayout : s.layout a = [":"] := by decide +kernel
  obtain ⟨-, hlayouts⟩ := empty_only_without_classes
  refine ⟨⟨hm, ht⟩, hlayout, by rw [hlayout]; decide, ((hlayouts s a).2 hm ht).2, ?_⟩
  exact (hlayouts s a').1.mpr (Or.inr (Or.inr (by decide)))

end Settings

end ClassTidy
