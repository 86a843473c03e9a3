import ClassTidy.Attribute.Basic
import ClassTidy.Packing
import ClassTidy.Settings.Basic
import ClassTidy.Shelves.Basic

/-!
# Laying out an attribute

Sorted classes become lines: the groups of each category are packed by themselves, and the
uncategorized classes make one line before or after them. The mode says which classes are sorted
together.
-/

namespace ClassTidy

/-- The lines of sorted classes. -/
def Sorted.lines (s : Sorted) (width : String → Nat) (limit : Nat) (placement : Placement) :
    List String :=
  let categorized := s.shelves.flatMap fun shelf => pack width limit shelf.groups
  if s.uncategorized.isEmpty then categorized
  else match placement with
    | .before => spaced s.uncategorized :: categorized
    | .after => categorized ++ [spaced s.uncategorized]

namespace Settings

/-- The classes sorted by the taxonomy. -/
def sort (s : Settings) (classes : List String) : Sorted :=
  Sorted.ofClasses s.taxonomy s.viewports classes

/-- The lines of classes that are sorted together. -/
def passLines (s : Settings) (classes : List String) : List String :=
  (s.sort classes).lines s.measure.width s.printWidth s.placement

/-- The lines of the base classes, then what `join` makes of the lines of each viewport. -/
def separateLines (s : Settings) (a : Attribute) (join : List String → List String) :
    List String :=
  s.passLines a.base
    ++ s.viewports.eraseDups.flatMap fun label => join (s.passLines (a.scopedTo label))

/-- All lines as one, if there are any. -/
def joinLines (lines : List String) : List String :=
  if lines.isEmpty then [] else [spaced lines]

/-- The lines of an attribute. -/
def layout (s : Settings) (a : Attribute) : List String :=
  match s.mode with
  | .separate => s.separateLines a joinLines
  | .separateCategorized => s.separateLines a id
  | .inline => s.passLines (a.combined s.viewports)
  | .unknown => []

end Settings

end ClassTidy
