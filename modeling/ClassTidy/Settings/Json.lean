import ClassTidy.Json.Printer
import ClassTidy.Json.Record
import ClassTidy.Settings.Basic

/-!
# Settings files

Settings are kept as a JSON record. The taxonomy is an object from names to specifications, so
categories of one name become one, at the place of the first and with the specification of the last.
-/

namespace ClassTidy.Settings

open Json

/-- The taxonomy as a map from names to specifications. -/
def categoryMap (t : Taxonomy) : OrderedMap String String :=
  .ofList (t.map fun c => (c.name, c.spec))

/-- The taxonomy of a map from names to specifications. -/
def taxonomyOf (m : OrderedMap String String) : Taxonomy :=
  m.toList.map fun (name, spec) => ⟨name, spec⟩

/-- The settings as a JSON value. -/
def toJson (s : Settings) : Value :=
  .object [
    ("categories", .object ((categoryMap s.taxonomy).toList.map fun (name, spec) =>
      (name, .string spec))),
    ("viewports", .strings s.viewports),
    ("viewportGrouping", .string s.mode.name),
    ("uncategorizedPosition", .string s.placement.name),
    ("printWidth", .number s.printWidth),
    ("widthMeasure", .string s.measure.name)]

/-- The fields of a settings record, in the order of its array form. -/
def fields : List (Json.Field Settings) :=
  [ ⟨"categories", (Reader.orderedMap (.string "a string")).map fun m s =>
      { s with taxonomy := taxonomyOf m }⟩,
    ⟨"viewports", (Reader.list (.string "a string")).map fun l s => { s with viewports := l }⟩,
    ⟨"viewportGrouping", (Reader.choice Mode.ofName).map fun x s => { s with mode := x }⟩,
    ⟨"uncategorizedPosition", (Reader.choice Placement.ofName).map fun x s =>
      { s with placement := x }⟩,
    ⟨"printWidth", (Reader.natural "usize").map fun n s => { s with printWidth := n }⟩,
    ⟨"widthMeasure", (Reader.choice Measure.ofName).map fun x s => { s with measure := x }⟩ ]

/-- Reads settings. -/
def reader : Reader Settings :=
  .record "struct FormatterConfig" fields {}

/-- The settings in a text. -/
def ofJson (text : String) : Except Defect Settings :=
  reader.ofText text

end ClassTidy.Settings
