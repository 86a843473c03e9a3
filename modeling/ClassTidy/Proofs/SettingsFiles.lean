import ClassTidy.Proofs.Json.Written
import ClassTidy.Proofs.Json.Yielded
import ClassTidy.Settings.Json

/-!
# Settings files are read as they were written

Each choice is read from its name, and each field from what is written for it. Only the taxonomy may
change: it is written as a map, so categories of one name are merged.

> `ofJson_toText`: written settings are read again, with their taxonomy merged.

What is read from a map has distinct names (`loaded_of_ofJson`), so from then on nothing changes any
more:

> `settings_round_trip`: settings that have been read may be written and read again.
-/

namespace ClassTidy

namespace Mode

/-- A mode has its own name. -/
@[simp] theorem ofName_name (m : Mode) : ofName m.name = m := by
  cases m <;> decide

end Mode

namespace Placement

@[simp] theorem ofName_name (p : Placement) : ofName p.name = p := by
  cases p <;> decide

end Placement

namespace Measure

@[simp] theorem ofName_name (m : Measure) : ofName m.name = m := by
  cases m <;> decide

end Measure

namespace Settings

open Json

/-- The taxonomy that is written has one category for each name. -/
theorem taxonomyOf_categoryMap (t : Taxonomy) :
    taxonomyOf (categoryMap t) = mergedBy Category.name t := by
  unfold taxonomyOf categoryMap
  rw [OrderedMap.toList_ofList, mergedBy_map, List.map_map]
  exact List.map_id _

/-- What is written for each field, and the change that it makes. -/
def writtenFields (s : Settings) : List (GivenField Settings) :=
  [ ⟨"categories",
      (Value.object ((categoryMap s.taxonomy).toList.map fun (name, spec) =>
        (name, .string spec))).compact,
      fun t => { t with taxonomy := taxonomyOf (categoryMap s.taxonomy) }⟩,
    ⟨"viewports", (Value.strings s.viewports).compact,
      fun t => { t with viewports := s.viewports }⟩,
    ⟨"viewportGrouping", writtenString s.mode.name, fun t => { t with mode := s.mode }⟩,
    ⟨"uncategorizedPosition", writtenString s.placement.name,
      fun t => { t with placement := s.placement }⟩,
    ⟨"printWidth", Nat.toDigits 10 s.printWidth, fun t => { t with printWidth := s.printWidth }⟩,
    ⟨"widthMeasure", writtenString s.measure.name, fun t => { t with measure := s.measure }⟩ ]

/-- Each field takes what is written for it. -/
theorem fits_writtenFields {s : Settings} (hwidth : s.printWidth < UInt64.size) :
    ∀ g ∈ s.writtenFields, g.Fits fields := by
  have hmode := Reader.Takes.choice Mode.ofName s.mode.name
  have hplacement := Reader.Takes.choice Placement.ofName s.placement.name
  have hmeasure := Reader.Takes.choice Measure.ofName s.measure.name
  simp only [Mode.ofName_name, Placement.ofName_name, Measure.ofName_name]
    at hmode hplacement hmeasure
  intro g hg
  simp only [writtenFields, List.mem_cons, List.not_mem_nil, or_false] at hg
  rcases hg with rfl | rfl | rfl | rfl | rfl | rfl
  · exact ⟨_, rfl, (Reader.Takes.ofMap fun p _ => .string "a string" p.2).map _⟩
  · exact ⟨_, rfl, (Reader.Takes.strings "a string" s.viewports).map _⟩
  · exact ⟨_, rfl, hmode.map _⟩
  · exact ⟨_, rfl, hplacement.map _⟩
  · exact ⟨_, rfl, (Reader.Takes.natural "usize" hwidth).map _⟩
  · exact ⟨_, rfl, hmeasure.map _⟩

/-- **Written settings are read again**, with their taxonomy merged. -/
theorem ofJson_toText {s : Settings} (hwidth : s.printWidth < UInt64.size) :
    ofJson s.toJson.toText = .ok { s with taxonomy := mergedBy Category.name s.taxonomy } := by
  have hnames : (s.writtenFields.map (·.name)).Nodup := by
    simp only [writtenFields, List.map_cons, List.map_nil]
    decide
  have htakes : reader.Takes s.toJson.compact
      { s with taxonomy := taxonomyOf (categoryMap s.taxonomy) } := by
    rw [toJson, Value.compact_object]
    exact Reader.Takes.record hnames (fits_writtenFields hwidth) "struct FormatterConfig" {}
  rw [taxonomyOf_categoryMap] at htakes
  exact ofText_of_takes htakes

/-! ## Settings that have been read -/

/-- What every settings file promises: no name comes twice, and the width is a machine word. -/
structure Loaded (s : Settings) : Prop where
  names_nodup : (s.taxonomy.map Category.name).Nodup
  width_lt : s.printWidth < UInt64.size

/-- Each field keeps what settings files promise. -/
theorem keeps_loaded : ∀ f ∈ fields, f.Keeps Loaded := by
  intro f hf
  simp only [fields, List.mem_cons, List.not_mem_nil, or_false] at hf
  rcases hf with rfl | rfl | rfl | rfl | rfl | rfl
  · -- The names are the keys of a map, which are distinct.
    refine Reader.Yields.map ⟨fun {_ m _} _ s hs => ⟨?_, hs.width_lt⟩⟩
    show ((m.toList.map fun (name, spec) => (⟨name, spec⟩ : Category)).map Category.name).Nodup
    rw [List.map_map]
    exact m.nodup
  · exact Reader.Yields.map ⟨fun _ _ hs => ⟨hs.names_nodup, hs.width_lt⟩⟩
  · exact Reader.Yields.map ⟨fun _ _ hs => ⟨hs.names_nodup, hs.width_lt⟩⟩
  · exact Reader.Yields.map ⟨fun _ _ hs => ⟨hs.names_nodup, hs.width_lt⟩⟩
  · have hnatural := Reader.Yields.natural "usize"
    exact Reader.Yields.map ⟨fun h _ hs => ⟨hs.names_nodup, hnatural.of_read h⟩⟩
  · exact Reader.Yields.map ⟨fun _ _ hs => ⟨hs.names_nodup, hs.width_lt⟩⟩

/-- Settings that have been read keep the promise. -/
theorem loaded_of_ofJson {text : String} {s : Settings} (h : ofJson text = .ok s) : s.Loaded := by
  have hstart : Loaded {} := ⟨List.nodup_nil, by decide⟩
  exact (Reader.Yields.record keeps_loaded hstart).of_ofText h

/-- So they may be written and read again. -/
theorem Loaded.ofJson_toText {s : Settings} (h : s.Loaded) : ofJson s.toJson.toText = .ok s := by
  have hmerged : mergedBy Category.name s.taxonomy = s.taxonomy :=
    mergedBy_eq_self_iff.mpr h.names_nodup
  rw [Settings.ofJson_toText h.width_lt, hmerged]

/-- **Settings and their files.** Written settings are read as they were, but that categories of
one name become one, where the first was and with the specification of the last; so they are read as
they were exactly if no name comes twice. This is so for all settings that have been read from a
text: they may be written and read again. -/
theorem settings_round_trip (s : Settings) :
    (s.printWidth < UInt64.size →
      ofJson s.toJson.toText = .ok { s with taxonomy := mergedBy Category.name s.taxonomy } ∧
      (ofJson s.toJson.toText = .ok s ↔ (s.taxonomy.map Category.name).Nodup)) ∧
    (∀ text, ofJson text = .ok s →
      (s.taxonomy.map Category.name).Nodup ∧ ofJson s.toJson.toText = .ok s) := by
  have hmerged : ({ s with taxonomy := mergedBy Category.name s.taxonomy } : Settings) = s ↔
      (s.taxonomy.map Category.name).Nodup := by
    rw [← mergedBy_eq_self_iff]
    constructor
    · intro h
      exact congrArg Settings.taxonomy h
    · intro h
      rw [h]
  constructor
  · intro hwidth
    have hread : ofJson s.toJson.toText
        = .ok { s with taxonomy := mergedBy Category.name s.taxonomy } := ofJson_toText hwidth
    refine ⟨hread, ?_⟩
    rw [hread, Except.ok.injEq]
    exact hmerged
  · intro text htext
    have hloaded := loaded_of_ofJson htext
    exact ⟨hloaded.names_nodup, hloaded.ofJson_toText⟩

/-- A name that is given twice, characters that are escaped, and the largest width; and a file that
gives its fields as an array. -/
theorem settings_round_trip_repeated_name :
    let s : Settings :=
      { taxonomy := [⟨"a\"", "x"⟩, ⟨"b", "\n\u0001"⟩, ⟨"a\"", "y\\"⟩]
        viewports := ["é"]
        mode := .unknown
        printWidth := UInt64.size - 1 }
    let t : Settings := { taxonomy := [⟨"a", "y"⟩, ⟨"b", ""⟩], mode := .unknown }
    let text := "[\x7b\"\\u0061\": \"x\", \"b\": \"\", \"a\": \"y\"\x7d, [], \"no\"] "
    s.printWidth < UInt64.size ∧
      ofJson s.toJson.toText = .ok
        { s with taxonomy := [⟨"a\"", "y\\"⟩, ⟨"b", "\n\u0001"⟩] } ∧
      ¬ofJson s.toJson.toText = .ok s ∧
      ofJson text = .ok t ∧ ofJson t.toJson.toText = .ok t := by
  intro s t text
  have hwidth : s.printWidth < UInt64.size := by decide
  have htext : ofJson text = .ok t :=
    Json.ofText_of_toOption (by decide +kernel)
  obtain ⟨hread, hsame⟩ := (settings_round_trip s).1 hwidth
  refine ⟨hwidth, hread, ?_, htext, ((settings_round_trip t).2 text htext).2⟩
  rw [hsame]
  decide

end Settings

end ClassTidy
