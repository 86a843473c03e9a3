import ClassTidy.OrderedMap
import ClassTidy.Text.Blank
import ClassTidy.Viewport

/-!
# Class attributes

An attribute holds base classes and, for each viewport label, the bare names of the classes scoped
to it. A raw text is split into words; each word goes to the first label that scopes it, and to the
base classes if there is none.
-/

namespace ClassTidy

/-- The classes of an attribute, told apart by scope. -/
structure Attribute where
  /-- The classes without a scope. -/
  base : List String := []
  /-- The bare names of the scoped classes, by label. -/
  byViewport : OrderedMap String (List String) := ∅

namespace Attribute

/-- Adds one class at the end of the list that it belongs to. -/
def push (viewports : List String) (a : Attribute) (cls : String) : Attribute :=
  match scope? viewports cls with
  | some (label, name) => { a with byViewport := a.byViewport.push label name }
  | none => { a with base := a.base ++ [cls] }

/-- The attribute that a raw text stands for. -/
def ofText (viewports : List String) (text : String) : Attribute :=
  (Text.words text).foldl (push viewports) {}

/-- The classes scoped to a label, with their scope. -/
def scopedTo (a : Attribute) (label : String) : List String :=
  ((a.byViewport.get? label).getD []).map (inScope label)

/-- Gives a label its list of bare names. -/
def setViewport (a : Attribute) (label : String) (names : List String) : Attribute :=
  { a with byViewport := a.byViewport.insert label names }

/-- The base classes, then the scoped classes of each distinct label in order. -/
def combined (a : Attribute) (viewports : List String) : List String :=
  a.base ++ viewports.eraseDups.flatMap a.scopedTo

end Attribute

end ClassTidy
