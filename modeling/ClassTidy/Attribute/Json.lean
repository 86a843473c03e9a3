import ClassTidy.Attribute.Basic
import ClassTidy.Json.Printer
import ClassTidy.Json.Record

/-!
# Attributes that are given as JSON

An attribute whose classes have been told apart already is a JSON record of its base classes and an
object from viewport labels to lists of bare names.
-/

namespace ClassTidy.Attribute

open Json

/-- The attribute as a JSON value. -/
def toJson (a : Attribute) : Value :=
  .object [
    ("baseClasses", .strings a.base),
    ("viewportClasses", .object (a.byViewport.toList.map fun (label, names) =>
      (label, .strings names)))]

/-- The fields of an attribute record, in the order of its array form. -/
def fields : List (Json.Field Attribute) :=
  [ ⟨"baseClasses", (Reader.list (.string "a string")).map fun l a => { a with base := l }⟩,
    ⟨"viewportClasses", (Reader.orderedMap (.list (.string "a string"))).map fun m a =>
      { a with byViewport := m }⟩ ]

/-- Reads an attribute. -/
def reader : Reader Attribute :=
  .record "struct ParsedClasses" fields {}

/-- The attribute in a text. -/
def ofJson (text : String) : Except Defect Attribute :=
  reader.ofText text

end ClassTidy.Attribute
