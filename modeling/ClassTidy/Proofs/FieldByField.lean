import ClassTidy.Attribute.Json
import ClassTidy.Proofs.Json.Fields
import ClassTidy.Settings.Json

/-!
# Settings and attributes are read field by field

Settings and attributes are records: each field sets one part, and takes well-formed texts for it.
So from an object each part is read as if its member stood alone:

> `read_by_field`: whether an object is read, and what each part of it is, depends on the members of
> the fields alone, each on its own.
-/

namespace ClassTidy

open Json

namespace Settings

/-- The parts of settings, in the order of their fields. -/
def parts : List (RecordPart Settings) :=
  [ ⟨"categories", Taxonomy, taxonomy⟩, ⟨"viewports", List String, viewports⟩,
    ⟨"viewportGrouping", Mode, mode⟩, ⟨"uncategorizedPosition", Placement, placement⟩,
    ⟨"printWidth", Nat, printWidth⟩, ⟨"widthMeasure", Measure, measure⟩ ]

theorem takesOnly_fields : ∀ f ∈ fields, f.change.TakesOnly WellFormed := by
  intro f hf
  simp only [fields, List.mem_cons, List.not_mem_nil, or_false] at hf
  rcases hf with rfl | rfl | rfl | rfl | rfl | rfl
  · exact (Reader.TakesOnly.string "a string").orderedMap.map _
  · exact (Reader.TakesOnly.string "a string").list.map _
  · exact (Reader.TakesOnly.choice Mode.ofName).map _
  · exact (Reader.TakesOnly.choice Placement.ofName).map _
  · exact (Reader.TakesOnly.natural "usize").map _
  · exact (Reader.TakesOnly.choice Measure.ofName).map _

theorem setsOnly_fields : ∀ f ∈ fields, f.SetsOnly parts := by
  intro f hf
  simp only [fields, List.mem_cons, List.not_mem_nil, or_false] at hf
  rcases hf with rfl | rfl | rfl | rfl | rfl | rfl
  all_goals exact Reader.Yields.map ⟨fun _ => by simp [parts]⟩

theorem fieldsSetParts : FieldsSetParts fields parts where
  names := rfl
  takesOnly := takesOnly_fields
  setsOnly := setsOnly_fields
  eq_of_parts s t h := by
    simp only [parts, List.forall_mem_cons] at h
    obtain ⟨htaxonomy, hviewports, hmode, hplacement, hwidth, hmeasure, _⟩ := h
    cases s
    cases t
    simp only [mk.injEq]
    exact ⟨htaxonomy, hviewports, hmode, hplacement, hwidth, hmeasure⟩

end Settings

namespace Attribute

/-- The parts of an attribute, in the order of their fields. -/
def parts : List (RecordPart Attribute) :=
  [ ⟨"baseClasses", List String, base⟩,
    ⟨"viewportClasses", OrderedMap String (List String), byViewport⟩ ]

theorem takesOnly_fields : ∀ f ∈ fields, f.change.TakesOnly WellFormed := by
  intro f hf
  simp only [fields, List.mem_cons, List.not_mem_nil, or_false] at hf
  rcases hf with rfl | rfl
  · exact (Reader.TakesOnly.string "a string").list.map _
  · exact (Reader.TakesOnly.string "a string").list.orderedMap.map _

theorem setsOnly_fields : ∀ f ∈ fields, f.SetsOnly parts := by
  intro f hf
  simp only [fields, List.mem_cons, List.not_mem_nil, or_false] at hf
  rcases hf with rfl | rfl
  all_goals exact Reader.Yields.map ⟨fun _ => by simp [parts]⟩

theorem fieldsSetParts : FieldsSetParts fields parts where
  names := rfl
  takesOnly := takesOnly_fields
  setsOnly := setsOnly_fields
  eq_of_parts a b h := by
    simp only [parts, List.forall_mem_cons] at h
    obtain ⟨hbase, hviewport, _⟩ := h
    cases a
    cases b
    simp only [mk.injEq]
    exact ⟨hbase, hviewport⟩

end Attribute

/-- A key that denotes no character, a number too large for any float, and brackets with nothing but
a blank in them. -/
private theorem wellFormed_unreadable :
    WellFormed "[\x7b\"\\ud800\": 1e999\x7d, [ ]]".toList := by
  have hbody : StringBody "\\ud800".toList :=
    .unit (show IsUnit ['d', '8', '0', '0'] 0xD800 from ⟨rfl, rfl⟩) .nil
  have hkey : IsKey "\"\\ud800\"".toList := ⟨[], _, [], blanks_nil, hbody, blanks_nil, rfl⟩
  have hnumeral : Numeral.SpelledBy ⟨false, ['1'], [], some (false, ['9', '9', '9'])⟩
      "1e999".toList :=
    ⟨[], ['e', '9', '9', '9'], ⟨⟨by simp, by simp⟩, by simp⟩, .none,
      .plain (Or.inl rfl) ⟨by simp, by simp⟩, rfl⟩
  have hblank : Blanks [' '] := blanks_singleton rfl
  have hnumber : WellFormed " 1e999".toList := (WellFormed.number hnumeral).behindBlanks hblank
  have hmember : IsMember "\"\\ud800\": 1e999".toList := ⟨_, _, hkey, hnumber, rfl⟩
  have hobject : WellFormed "\x7b\"\\ud800\": 1e999\x7d".toList :=
    wellFormed_of_members (List.forall_mem_singleton.mpr hmember)
  have hempty : WellFormed " [ ]".toList := (WellFormed.empty .array hblank).behindBlanks hblank
  have hitems : ∀ item ∈ ["\x7b\"\\ud800\": 1e999\x7d".toList, " [ ]".toList], WellFormed item :=
    List.forall_mem_cons.mpr ⟨hobject, List.forall_mem_singleton.mpr hempty⟩
  exact .array hitems

/-- **Objects are read field by field.** -/
theorem read_by_field :
    ReadsByField Settings.ofJson Settings.parts {} ∧
      ReadsByField Attribute.ofJson Attribute.parts {} :=
  ⟨Settings.fieldsSetParts.readsByField, Attribute.fieldsSetParts.readsByField⟩

/-- Fields in another order than their own, a key with an escape, and between them a member that is
no field: a key that denotes no character, a number too large for any float, and brackets. The
escaped key may not be given again in plain letters. -/
theorem read_by_field_escaped_key :
    let width : MemberText :=
      { lead := ['\n'], key := "print\\u0057idth".toList, name := "printWidth", gap := []
        value := " 100 ".toList
        lead_blank := blanks_singleton rfl
        key_spells := spells_written_append "print".toList
          (.unit (show IsUnit ['0', '0', '5', '7'] 'W'.toNat from ⟨rfl, rfl⟩)
            (spells_written "idth".toList))
        gap_blank := blanks_nil }
    let unknown := MemberText.written "x" "[\x7b\"\\ud800\": 1e999\x7d, [ ]]".toList
    let viewports := MemberText.written "viewports" "[\"sm\"]".toList
    let again := MemberText.written "printWidth" "7".toList
    Settings.ofJson (objectText [width, unknown, viewports])
        = .ok { viewports := ["sm"], printWidth := 100 } ∧
      ∃ d, Settings.ofJson (objectText [width, unknown, again]) = .error d := by
  intro width unknown viewports again
  have hwidth : width.Fits (Settings.parts.map (·.name)) :=
    MemberText.fits_of_delimited (by decide) (by decide)
  have hviewports : viewports.Fits (Settings.parts.map (·.name)) :=
    MemberText.fits_of_delimited (by decide) (by decide)
  have hagain : again.Fits (Settings.parts.map (·.name)) :=
    MemberText.fits_of_delimited (by decide) (by decide)
  have hunknown : unknown.Fits (Settings.parts.map (·.name)) :=
    MemberText.fits_of_wellFormed wellFormed_unreadable
  have hread : Settings.ofJson (objectText [width]) = .ok { printWidth := 100 } :=
    ofText_of_toOption (by decide +kernel)
  have hread' : Settings.ofJson (objectText [viewports]) = .ok { viewports := ["sm"] } :=
    ofText_of_toOption (by decide +kernel)
  constructor
  · apply read_by_field.1.read_eq_ok Settings.fieldsSetParts.eq_of_parts
    · simpa using ⟨hwidth, hunknown, hviewports⟩
    · show List.Nodup _
      decide
    · have hname : unknown.name ∉ Settings.parts.map (·.name) := by decide
      refine List.forall_mem_cons.mpr ⟨fun _ => ⟨_, hread, ?_⟩, List.forall_mem_cons.mpr
        ⟨fun h => absurd h hname, List.forall_mem_singleton.mpr fun _ => ⟨_, hread', ?_⟩⟩⟩
      · simp [Settings.parts, width]
      · simp [Settings.parts, viewports, MemberText.written]
    · simp [Settings.parts, width, unknown, viewports, MemberText.written]
  · apply read_by_field.1.repeated
    · simpa using ⟨hwidth, hunknown, hagain⟩
    · show ¬List.Nodup _
      decide

end ClassTidy
