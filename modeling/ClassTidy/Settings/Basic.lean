import ClassTidy.Taxonomy.Basic
import ClassTidy.Width.Display

/-!
# Settings

What a layout depends on besides the classes. Each choice has a name in settings files; a name that
is not known stands for the choice that `ofName` falls back to.
-/

namespace ClassTidy

/-- How scoped classes are laid out beside the base classes. -/
inductive Mode where
  /-- After the base classes, one line for each viewport. -/
  | separate
  /-- After the base classes, the lines of each viewport by category. -/
  | separateCategorized
  /-- Together with the base classes. -/
  | inline
  /-- Not known: there are no lines. -/
  | unknown
deriving DecidableEq, Repr

namespace Mode

def name : Mode → String
  | separate => "separate"
  | separateCategorized => "separate-categorized"
  | inline => "inline"
  | unknown => "unknown"

/-- The mode of a name; every other name stands for the unknown mode. -/
def ofName (s : String) : Mode :=
  if s = "separate" then separate
  else if s = "separate-categorized" then separateCategorized
  else if s = "inline" then inline
  else unknown

end Mode

/-- Where the line of uncategorized classes stands. -/
inductive Placement where
  | before
  | after
deriving DecidableEq, Repr

namespace Placement

def name : Placement → String
  | before => "beforeCategorized"
  | after => "afterCategorized"

/-- The placement of a name; every other name stands for `after`. -/
def ofName (s : String) : Placement :=
  if s = "beforeCategorized" then before else after

end Placement

/-- How the width of a line is measured. -/
inductive Measure where
  | chars
  /-- In columns of a terminal. -/
  | display
deriving DecidableEq, Repr

namespace Measure

def name : Measure → String
  | chars => "chars"
  | display => "display"

/-- The measure of a name; every other name stands for `chars`. -/
def ofName (s : String) : Measure :=
  if s = "display" then display else chars

def width : Measure → String → Nat
  | chars => String.length
  | display => Width.columns

end Measure

/-- What a layout depends on besides the classes. -/
structure Settings where
  /-- The categories, in the order of their lines. -/
  taxonomy : Taxonomy := []
  /-- The viewport labels, in order; repeats add nothing. -/
  viewports : List String := []
  mode : Mode := .separate
  placement : Placement := .after
  /-- The width that a line of several groups may have. -/
  printWidth : Nat := 80
  measure : Measure := .chars
deriving DecidableEq, Repr

end ClassTidy
