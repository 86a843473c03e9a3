import ClassTidy.Taxonomy.Basic
import ClassTidy.Viewport

/-!
# The ranking of a taxonomy's entries

All declared entries of all categories stand in one list, longest stem first and otherwise in
declaration order. The owner of a class is the first of them whose stem begins the class's lookup
key: an entry with the longest such stem and, of those, the one declared first.

Each entry knows the bucket that it fills by two positions, its category in the taxonomy and its key
among the keys of that category, so that the ranking may be sorted without losing track of buckets.
-/

namespace ClassTidy

/-- A declared entry and the bucket that it fills. -/
structure Entry where
  /-- The position of its category in the taxonomy. -/
  category : Nat
  /-- The position of its key among the keys of the category. -/
  bucket : Nat
  key : String
deriving DecidableEq, Repr

namespace Entry

/-- The text that a class of this entry begins with. -/
def stem (e : Entry) : String :=
  ClassTidy.stem e.key

def length (e : Entry) : Nat :=
  e.stem.length

/-- Whether the entry was declared with a final star. -/
def isWildcard (e : Entry) : Bool :=
  ClassTidy.isWildcard e.key

/-- Whether the stem begins the lookup key. -/
def begins (e : Entry) (key : String) : Bool :=
  e.stem.toList.isPrefixOf key.toList

end Entry

/-- The entries that the category at a position declares, with repeats. -/
def Category.entries (c : Category) (position : Nat) : List Entry :=
  c.declared.map fun key => ⟨position, c.keys.idxOf key, key⟩

namespace Taxonomy

/-- All entries in declaration order, with repeats. -/
def entries (t : Taxonomy) : List Entry :=
  t.zipIdx.flatMap fun (c, position) => c.entries position

/-- All entries, longest stem first. The sort is stable, so ties keep declaration order. -/
def ranking (t : Taxonomy) : List Entry :=
  t.entries.mergeSort fun a b => b.length ≤ a.length

/-- The name and the keys of each category, in order. -/
def shelfKeys (t : Taxonomy) : List (String × List String) :=
  t.map fun c => (c.name, c.keys)

end Taxonomy

/-- The entry of a ranking that owns a class, or `none` if no stem begins its lookup key. -/
def owner? (ranking : List Entry) (viewports : List String) (cls : String) : Option Entry :=
  let key := lookupKey viewports cls
  ranking.find? (·.begins key)

end ClassTidy
