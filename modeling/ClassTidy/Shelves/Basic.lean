import ClassTidy.Taxonomy.Ranking

/-!
# Sorting classes onto shelves

Each category has a shelf with one bucket per key. A class goes into the bucket of the entry that
owns it; a class without an owner stays uncategorized. Within a bucket the classes keep their order.
-/

namespace ClassTidy

/-- The classes of one entry. -/
structure Bucket where
  key : String
  classes : List String
deriving DecidableEq, Repr

/-- The buckets of one category. -/
structure Shelf where
  name : String
  buckets : List Bucket
deriving DecidableEq, Repr

/-- Puts a class at the end of the bucket. -/
def Bucket.push (b : Bucket) (cls : String) : Bucket :=
  { b with classes := b.classes ++ [cls] }

namespace Shelf

/-- Puts a class into the bucket at a position. -/
def push (s : Shelf) (position : Nat) (cls : String) : Shelf :=
  { s with buckets := s.buckets.modify position (·.push cls) }

def isEmpty (s : Shelf) : Bool :=
  s.buckets.all (·.classes.isEmpty)

/-- The class lists of the buckets that hold a class. -/
def groups (s : Shelf) : List (List String) :=
  (s.buckets.map (·.classes)).filter (!·.isEmpty)

/-- The classes of the first bucket with the key. -/
def get? (s : Shelf) (key : String) : Option (List String) :=
  (s.buckets.find? (·.key == key)).map (·.classes)

end Shelf

/-- Classes sorted by category. -/
structure Sorted where
  shelves : List Shelf := []
  uncategorized : List String := []
deriving DecidableEq, Repr

namespace Sorted

/-- The shelves of a taxonomy before a class is sorted: an empty bucket for every key. -/
def vacant (t : Taxonomy) : Sorted :=
  { shelves := t.shelfKeys.map fun (name, keys) => ⟨name, keys.map (⟨·, []⟩)⟩ }

/-- Puts one class where its owner says: into a bucket, found by the two positions of the owner, or
among the uncategorized classes. -/
def file (ranking : List Entry) (viewports : List String) (s : Sorted) (cls : String) : Sorted :=
  match owner? ranking viewports cls with
  | some e => { s with shelves := s.shelves.modify e.category (·.push e.bucket cls) }
  | none => { s with uncategorized := s.uncategorized ++ [cls] }

/-- Sorts the classes by their owners. Without classes or categories there are no shelves. -/
def ofClasses (t : Taxonomy) (viewports : List String) (classes : List String) : Sorted :=
  if classes.isEmpty || t.isEmpty then {}
  else classes.foldl (file t.ranking viewports) (vacant t)

/-- Whether there is no class at all. -/
def isEmpty (s : Sorted) : Bool :=
  s.uncategorized.isEmpty && s.shelves.all (·.isEmpty)

def shelf? (s : Sorted) (name : String) : Option Shelf :=
  s.shelves.find? (·.name == name)

/-- The number of classes on the shelves and off them. -/
def size (s : Sorted) : Nat :=
  s.uncategorized.length + (s.shelves.flatMap (·.buckets)).foldr (·.classes.length + ·) 0

end Sorted

end ClassTidy
