import ClassTidy.Layout
import ClassTidy.Proofs.Packing
import ClassTidy.Proofs.Partition

/-!
# Where the lines of a layout come from

A layout is a list of texts, which does not say what classes a line holds. `Settings.rows` is the
same list with the origin of every line: the uncategorized classes of a pass, consecutive groups of
one shelf of a pass, or a whole pass on one line.

> `layout_eq_rows`: the lines of a layout are the texts of its rows;
> `flatMap_classes_passRows`: the rows of a pass hold its classes in the order of the shelves.

What is wider than the limit can be told from its origin:

> `line_width_contract`: a line beyond the limit is uncategorized, or a viewport on one line, or one
> single group; and but for a viewport on one line no line mixes categories.
-/

namespace ClassTidy

open Packing (cut line flatten_cut ne_nil_of_mem_cut infix_of_mem_cut mem_groups_of_mem_cut
  width_le_of_mem_cut)

/-- What a line holds. A pass is a list of classes that are sorted together. -/
inductive Row where
  /-- The uncategorized classes of a pass. -/
  | uncategorized (pass : List String)
  /-- Consecutive groups of one shelf of a pass, and the position of the shelf. -/
  | groups (pass : List String) (position : Nat) (run : List (List String))
  /-- All classes of a pass. -/
  | joined (pass : List String)
deriving DecidableEq

namespace Row

/-- The classes on the line, in order. -/
def classes (s : Settings) : Row → List String
  | uncategorized pass => (s.sort pass).uncategorized
  | groups _ _ run => run.flatten
  | joined pass => (s.sort pass).inOrder s.placement

/-- The line. -/
def text (s : Settings) (row : Row) : String :=
  spaced (row.classes s)

end Row

namespace Settings

/-- The rows of the shelves of a pass. -/
def shelfRows (s : Settings) (pass : List String) : List Row :=
  (s.sort pass).shelves.zipIdx.flatMap fun (shelf, i) =>
    (cut s.measure.width s.printWidth shelf.groups).map (.groups pass i)

/-- The rows of a pass. -/
def passRows (s : Settings) (pass : List String) : List Row :=
  if (s.sort pass).uncategorized.isEmpty then s.shelfRows pass
  else match s.placement with
    | .before => .uncategorized pass :: s.shelfRows pass
    | .after => s.shelfRows pass ++ [.uncategorized pass]

/-- The one row of a pass whose lines are joined, if there are any. -/
def joinedRows (s : Settings) (pass : List String) : List Row :=
  if (s.passRows pass).isEmpty then [] else [.joined pass]

/-- The rows of an attribute. -/
def rows (s : Settings) (a : Attribute) : List Row :=
  match s.mode with
  | .separate => s.passRows a.base ++ s.viewports.eraseDups.flatMap fun label =>
      s.joinedRows (a.scopedTo label)
  | .separateCategorized => s.passRows a.base ++ s.viewports.eraseDups.flatMap fun label =>
      s.passRows (a.scopedTo label)
  | .inline => s.passRows (a.combined s.viewports)
  | .unknown => []

/-- The passes whose rows stand by themselves: all of them, but in separate mode that of the base
classes alone. -/
def passes (s : Settings) (a : Attribute) : List (List String) :=
  match s.mode with
  | .separate => [a.base]
  | .separateCategorized => a.base :: s.viewports.eraseDups.map a.scopedTo
  | .inline => [a.combined s.viewports]
  | .unknown => []

/-! ## Rows and lines -/

/-- The positions of shelves do not bear on what is made of the shelves. -/
private theorem flatMap_zipIdx_fst {α β : Type} (f : α → List β) (l : List α) :
    l.zipIdx.flatMap (fun p => f p.1) = l.flatMap f := by
  rw [← List.flatMap_map Prod.fst f, List.zipIdx_map_fst]

/-- The groups of a shelf are packed as they are, since none of them is empty. -/
theorem pack_groups (width : String → Nat) (limit : Nat) (shelf : Shelf) :
    pack width limit shelf.groups = (cut width limit shelf.groups).map line := by
  unfold pack Shelf.groups
  rw [List.filter_filter]
  simp only [Bool.and_self]

/-- The rows of the shelves have the texts that the groups of each shelf are packed into. -/
theorem map_text_shelfRows (s : Settings) (pass : List String) :
    (s.shelfRows pass).map (Row.text s)
      = (s.sort pass).shelves.flatMap fun shelf =>
          pack s.measure.width s.printWidth shelf.groups := by
  unfold shelfRows
  rw [List.map_flatMap, ← flatMap_zipIdx_fst fun shelf : Shelf =>
    pack s.measure.width s.printWidth shelf.groups]
  apply List.flatMap_congr
  rintro ⟨shelf, i⟩ -
  show ((cut s.measure.width s.printWidth shelf.groups).map (.groups pass i)).map (Row.text s)
    = pack s.measure.width s.printWidth shelf.groups
  rw [List.map_map, pack_groups]
  rfl

/-- The rows of the shelves hold the classes of each bucket. -/
@[simp] theorem flatMap_classes_shelfRows (s : Settings) (pass : List String) :
    (s.shelfRows pass).flatMap (Row.classes s)
      = (s.sort pass).shelves.flatMap fun shelf => shelf.buckets.flatMap (·.classes) := by
  unfold shelfRows
  rw [List.flatMap_assoc, ← flatMap_zipIdx_fst fun shelf : Shelf =>
    shelf.buckets.flatMap (·.classes)]
  apply List.flatMap_congr
  rintro ⟨shelf, i⟩ -
  calc ((cut s.measure.width s.printWidth shelf.groups).map (Row.groups pass i)).flatMap
          (Row.classes s)
      = (cut s.measure.width s.printWidth shelf.groups).flatMap List.flatten :=
        List.flatMap_map ..
    _ = (cut s.measure.width s.printWidth shelf.groups).flatten.flatten := by
        rw [List.flatMap_def, List.flatten_flatten]
    _ = shelf.groups.flatten := by rw [flatten_cut]
    _ = shelf.buckets.flatMap (·.classes) := by
        rw [Shelf.groups, List.flatten_filter_not_isEmpty, List.flatMap_def]

/-- The lines of a pass are the texts of its rows. -/
theorem passLines_eq (s : Settings) (pass : List String) :
    s.passLines pass = (s.passRows pass).map (Row.text s) := by
  unfold passLines Sorted.lines passRows
  rw [← map_text_shelfRows]
  split
  next => rfl
  next =>
    cases s.placement with
    | before => rfl
    | after =>
      rw [List.map_append]
      rfl

/-- The rows of a pass hold its classes, in the order of the shelves. -/
@[simp] theorem flatMap_classes_passRows (s : Settings) (pass : List String) :
    (s.passRows pass).flatMap (Row.classes s) = (s.sort pass).inOrder s.placement := by
  unfold passRows Sorted.inOrder
  rw [← flatMap_classes_shelfRows]
  split
  next hnone =>
    rw [List.isEmpty_iff.mp hnone]
    cases s.placement <;> simp
  next =>
    cases s.placement with
    | before => rfl
    | after =>
      rw [List.flatMap_append, List.flatMap_singleton]
      rfl

/-- A joined row holds the classes of its pass in the same order. -/
@[simp] theorem flatMap_classes_joinedRows (s : Settings) (pass : List String) :
    (s.joinedRows pass).flatMap (Row.classes s) = (s.sort pass).inOrder s.placement := by
  unfold joinedRows
  split
  next hnone =>
    rw [← flatMap_classes_passRows, List.isEmpty_iff.mp hnone]
  next => exact List.flatMap_singleton ..

/-- A row of the shelves takes a run of the groups of one shelf. -/
theorem mem_shelfRows {s : Settings} {pass : List String} {row : Row}
    (h : row ∈ s.shelfRows pass) :
    ∃ i shelf run, (s.sort pass).shelves[i]? = some shelf ∧
      run ∈ cut s.measure.width s.printWidth shelf.groups ∧ row = .groups pass i run := by
  obtain ⟨⟨shelf, i⟩, hshelf, hrow⟩ := List.mem_flatMap.mp h
  obtain ⟨run, hrun, rfl⟩ := List.mem_map.mp hrow
  exact ⟨i, shelf, run, List.mem_zipIdx_iff_getElem?.mp hshelf, hrun, rfl⟩

/-- What the rows of a pass can be. -/
theorem mem_passRows {s : Settings} {pass : List String} {row : Row} (h : row ∈ s.passRows pass) :
    (row = .uncategorized pass ∧ (s.sort pass).uncategorized ≠ []) ∨
      ∃ i shelf run, (s.sort pass).shelves[i]? = some shelf ∧
        run ∈ cut s.measure.width s.printWidth shelf.groups ∧ row = .groups pass i run := by
  unfold passRows at h
  split at h
  next => exact Or.inr (mem_shelfRows h)
  next hsome =>
    have hne : (s.sort pass).uncategorized ≠ [] := by
      intro he
      rw [he] at hsome
      exact hsome rfl
    cases hp : s.placement with
    | before =>
      rw [hp] at h
      rcases List.mem_cons.mp h with rfl | h
      · exact Or.inl ⟨rfl, hne⟩
      · exact Or.inr (mem_shelfRows h)
    | after =>
      rw [hp] at h
      rcases List.mem_append.mp h with h | h
      · exact Or.inr (mem_shelfRows h)
      · exact Or.inl ⟨List.mem_singleton.mp h, hne⟩

/-- The groups of a shelf have classes. -/
theorem ne_nil_of_mem_groups {shelf : Shelf} {group : List String} (h : group ∈ shelf.groups) :
    group ≠ [] := by
  have hne := (List.mem_filter.mp h).2
  simpa using hne

/-- No row of a pass is without classes. -/
theorem classes_ne_nil_of_mem_passRows {s : Settings} {pass : List String} {row : Row}
    (h : row ∈ s.passRows pass) : row.classes s ≠ [] := by
  rcases mem_passRows h with ⟨rfl, hne⟩ | ⟨i, shelf, run, -, hrun, rfl⟩
  · exact hne
  · obtain ⟨group, hgroup⟩ := List.exists_mem_of_ne_nil run (ne_nil_of_mem_cut hrun)
    have hne : group ≠ [] := ne_nil_of_mem_groups (mem_groups_of_mem_cut hrun hgroup)
    intro he
    exact hne (List.flatten_eq_nil_iff.mp he group hgroup)

/-- The lines of a pass as one are the text of the joined row. -/
theorem joinLines_passLines (s : Settings) (pass : List String) :
    joinLines (s.passLines pass) = (s.joinedRows pass).map (Row.text s) := by
  have htext : spaced (s.passLines pass) = Row.text s (.joined pass) := by
    rw [passLines_eq, Row.text, Row.classes, ← flatMap_classes_passRows, List.flatMap_def,
      ← spaced_map_spaced, List.map_map]
    · rfl
    · intro l hl
      obtain ⟨row, hrow, rfl⟩ := List.mem_map.mp hl
      exact classes_ne_nil_of_mem_passRows hrow
  unfold joinLines joinedRows
  rw [htext, passLines_eq, List.isEmpty_map]
  split <;> rfl

/-- The lines of a layout are the texts of its rows. -/
theorem layout_eq_rows (s : Settings) (a : Attribute) :
    s.layout a = (s.rows a).map (Row.text s) := by
  unfold layout rows separateLines
  cases s.mode with
  | separate =>
    simp only [passLines_eq s a.base, joinLines_passLines, List.map_append, List.map_flatMap]
  | separateCategorized =>
    simp only [passLines_eq, id_eq, List.map_append, List.map_flatMap]
  | inline => exact passLines_eq s _
  | unknown => rfl

/-- Without categories or with an unknown mode there are no lines. -/
theorem layout_eq_nil {s : Settings} (h : s.taxonomy = [] ∨ s.mode = .unknown) (a : Attribute) :
    s.layout a = [] := by
  unfold layout separateLines
  rcases h with ht | hm
  · have hpass : ∀ pass, s.passLines pass = [] := by
      intro pass
      unfold passLines sort
      rw [Sorted.ofClasses_eq_empty (Or.inr ht)]
      rfl
    simp only [hpass]
    cases s.mode <;> simp [joinLines]
  · rw [hm]

/-! ## The width of a line -/

/-- The rows of an attribute are rows of its passes, but in separate mode those of the viewports are
joined. -/
theorem mem_rows {s : Settings} {a : Attribute} {row : Row} (h : row ∈ s.rows a) :
    (∃ pass ∈ s.passes a, row ∈ s.passRows pass) ∨
      (s.mode = .separate ∧ ∃ label ∈ s.viewports, row = .joined (a.scopedTo label)) := by
  unfold rows at h
  unfold passes
  cases hm : s.mode with
  | separate =>
    rw [hm] at h
    rcases List.mem_append.mp h with h | h
    · exact Or.inl ⟨a.base, List.mem_singleton.mpr rfl, h⟩
    · obtain ⟨label, hlabel, h⟩ := List.mem_flatMap.mp h
      unfold joinedRows at h
      split at h
      next => exact absurd h List.not_mem_nil
      next => exact Or.inr ⟨rfl, label, List.mem_eraseDups.mp hlabel, List.mem_singleton.mp h⟩
  | separateCategorized =>
    rw [hm] at h
    rcases List.mem_append.mp h with h | h
    · exact Or.inl ⟨a.base, List.mem_cons_self .., h⟩
    · obtain ⟨label, hlabel, h⟩ := List.mem_flatMap.mp h
      exact Or.inl ⟨a.scopedTo label, List.mem_cons_of_mem _ (List.mem_map_of_mem hlabel), h⟩
  | inline =>
    rw [hm] at h
    exact Or.inl ⟨_, List.mem_singleton.mpr rfl, h⟩
  | unknown =>
    rw [hm] at h
    exact absurd h List.not_mem_nil

/-- The classes of a row of a pass belong to one category, or none of them is owned. -/
theorem owner_of_mem_passRows {s : Settings} {pass : List String} {row : Row}
    (h : row ∈ s.passRows pass) :
    (∀ cls ∈ row.classes s, owner? s.taxonomy.ranking s.viewports cls = none) ∨
      ∃ i, ∀ cls ∈ row.classes s,
        ∃ e, owner? s.taxonomy.ranking s.viewports cls = some e ∧ e.category = i := by
  rcases mem_passRows h with ⟨rfl, -⟩ | ⟨i, shelf, run, hshelf, hrun, rfl⟩
  · exact Or.inl fun cls hcls => Sorted.owner_of_mem_uncategorized hcls
  · refine Or.inr ⟨i, fun cls hcls => ?_⟩
    obtain ⟨group, hgroup, hcls⟩ := List.mem_flatten.mp hcls
    exact Sorted.owner_of_mem_groups hshelf (mem_groups_of_mem_cut hrun hgroup) hcls

/-- **The width contract.** The lines are the texts of the rows. A row that is wider than the limit
holds the uncategorized classes of its pass, or is a viewport on one line in separate mode, or
holds one single group of a shelf of its pass. In particular a row with two groups or more fits the
limit; such a row takes consecutive groups of one shelf. And but for a viewport on one line no row
mixes the classes of two categories, or owned classes with others. -/
theorem line_width_contract (s : Settings) (a : Attribute) :
    s.layout a = (s.rows a).map (Row.text s) ∧
    ∀ row ∈ s.rows a,
      (s.printWidth < s.measure.width (row.text s) →
        (∃ pass ∈ s.passes a, row = .uncategorized pass) ∨
        (s.mode = .separate ∧ ∃ label ∈ s.viewports, row = .joined (a.scopedTo label)) ∨
        ∃ pass ∈ s.passes a, ∃ i shelf group, (s.sort pass).shelves[i]? = some shelf ∧
          group ∈ shelf.groups ∧ row = .groups pass i [group]) ∧
      (∀ pass i run, row = .groups pass i run →
        pass ∈ s.passes a ∧
        (∃ shelf, (s.sort pass).shelves[i]? = some shelf ∧ run <:+: shelf.groups) ∧
        (2 ≤ run.length → s.measure.width (row.text s) ≤ s.printWidth)) ∧
      ((s.mode = .separate ∧ ∃ label ∈ s.viewports, row = .joined (a.scopedTo label)) ∨
        (∀ cls ∈ row.classes s, owner? s.taxonomy.ranking s.viewports cls = none) ∨
        ∃ i, ∀ cls ∈ row.classes s,
          ∃ e, owner? s.taxonomy.ranking s.viewports cls = some e ∧ e.category = i) := by
  refine ⟨layout_eq_rows s a, ?_⟩
  intro row hrow
  rcases mem_rows hrow with ⟨pass, hpass, hrow⟩ | ⟨hmode, label, hlabel, rfl⟩
  · refine ⟨?_, ?_, Or.inr (owner_of_mem_passRows hrow)⟩
    · intro hwide
      rcases mem_passRows hrow with ⟨rfl, -⟩ | ⟨i, shelf, run, hshelf, hrun, rfl⟩
      · exact Or.inl ⟨pass, hpass, rfl⟩
      · -- A run of two groups would fit, so there is one.
        have hpos : 0 < run.length := List.length_pos_iff.mpr (ne_nil_of_mem_cut hrun)
        have hfew : ¬2 ≤ run.length := by
          intro htwo
          exact absurd (width_le_of_mem_cut hrun htwo) (Nat.not_le.mpr hwide)
        obtain ⟨group, rfl⟩ := List.length_eq_one_iff.mp (show run.length = 1 by omega)
        have hgroup : group ∈ shelf.groups :=
          mem_groups_of_mem_cut hrun (List.mem_singleton.mpr rfl)
        exact Or.inr (Or.inr ⟨pass, hpass, i, shelf, group, hshelf, hgroup, rfl⟩)
    · intro pass' i run heq
      rcases mem_passRows hrow with ⟨rfl, -⟩ | ⟨i', shelf, run', hshelf, hrun, rfl⟩
      · exact absurd heq (by simp)
      · obtain ⟨rfl, rfl, rfl⟩ := Row.groups.inj heq
        refine ⟨hpass, ⟨shelf, hshelf, infix_of_mem_cut hrun⟩, ?_⟩
        intro htwo
        exact width_le_of_mem_cut hrun htwo
  · have hjoined : s.mode = .separate ∧
        ∃ label' ∈ s.viewports, Row.joined (a.scopedTo label) = .joined (a.scopedTo label') :=
      ⟨hmode, label, hlabel, rfl⟩
    refine ⟨fun _ => Or.inr (Or.inl hjoined), ?_, Or.inl hjoined⟩
    intro pass i run heq
    exact absurd heq (by simp)

/-- A group that is too wide by itself, before one that would not fit beside it. -/
theorem line_width_contract_wide_group :
    let s : Settings := { taxonomy := [⟨"layout", "flex p-*"⟩], printWidth := 3 }
    let a : Attribute := { base := ["p-4", "x", "flex"] }
    let row : Row := .groups a.base 0 [["flex"]]
    row ∈ s.rows a ∧ s.printWidth < s.measure.width (row.text s) ∧
      ((∃ pass ∈ s.passes a, row = .uncategorized pass) ∨
        (s.mode = .separate ∧ ∃ label ∈ s.viewports, row = .joined (a.scopedTo label)) ∨
        ∃ pass ∈ s.passes a, ∃ i shelf group, (s.sort pass).shelves[i]? = some shelf ∧
          group ∈ shelf.groups ∧ row = .groups pass i [group]) := by
  intro s a row
  have hrows : s.rows a = [row, .groups a.base 0 [["p-4"]], .uncategorized a.base] := by
    unfold rows passRows shelfRows Settings.sort Sorted.ofClasses
    rw [Taxonomy.ranking_eq_insertionSort]
    decide +kernel
  have hrow : row ∈ s.rows a := by
    rw [hrows]
    exact List.mem_cons_self ..
  have hwide : s.printWidth < s.measure.width (row.text s) := by decide
  exact ⟨hrow, hwide, ((line_width_contract s a).2 row hrow).1 hwide⟩

end Settings

end ClassTidy
