import ClassTidy.Text.Blank

/-!
# Taxonomies

A taxonomy is an ordered list of categories. A category has a name and a specification, whose words
are the entries that it declares. An entry owns the classes that begin with its stem; the stem is
the entry itself, less one final star if there is one.

Names may repeat: categories are told apart by position. Entries may repeat within a category; the
repeats share one key.
-/

namespace ClassTidy

/-- A category of classes. -/
structure Category where
  /-- The name. -/
  name : String
  /-- The entries, separated by blanks. -/
  spec : String
deriving DecidableEq, Repr

/-- The declared entries, in order and with repeats. -/
def Category.declared (c : Category) : List String :=
  Text.words c.spec

/-- The distinct entries, in order of first declaration. -/
def Category.keys (c : Category) : List String :=
  c.declared.eraseDups

/-- Categories in the order in which their classes are laid out. -/
abbrev Taxonomy := List Category

/-- Whether the entry ends in a star. -/
def isWildcard (key : String) : Bool :=
  key.toList.getLast? == some '*'

/-- The text that a class of this entry begins with: the entry less one final star. -/
def stem (key : String) : String :=
  if isWildcard key then String.ofList key.toList.dropLast else key

end ClassTidy
