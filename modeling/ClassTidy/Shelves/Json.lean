import ClassTidy.Json.Printer
import ClassTidy.Shelves.Basic

/-!
# Sorted classes as JSON

Each bucket is written as a pair of its key and its classes.
-/

namespace ClassTidy

open Json

/-- The bucket as a JSON value. -/
def Bucket.toJson (b : Bucket) : Value :=
  .array [.string b.key, .strings b.classes]

/-- The shelf as a JSON value. -/
def Shelf.toJson (s : Shelf) : Value :=
  .object [("name", .string s.name), ("groups", .array (s.buckets.map Bucket.toJson))]

/-- The sorted classes as a JSON value. -/
def Sorted.toJson (s : Sorted) : Value :=
  .object [
    ("categories", .array (s.shelves.map Shelf.toJson)),
    ("uncategorized", .strings s.uncategorized)]

end ClassTidy
