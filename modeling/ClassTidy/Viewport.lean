/-!
# Viewport labels

A class such as `md:hidden` is scoped to a viewport: its scope is the label `md` and a colon, its
bare name is `hidden`. Of several labels that fit, the first in the list of labels counts; the empty
label never does.
-/

namespace ClassTidy

/-- The rest of the class behind `label:`, if it begins so. -/
def afterLabel? (label cls : String) : Option String :=
  ((label.toList ++ [':']).isPrefixOf? cls.toList).map String.ofList

/-- The first non-empty label that scopes the class, and the bare name behind it. -/
def scope? (viewports : List String) (cls : String) : Option (String × String) :=
  viewports.findSome? fun label =>
    if label.isEmpty then none else (afterLabel? label cls).map (label, ·)

/-- The class without its scope. The labels are tried in order, and the first that is not empty and
scopes the class is taken off. -/
def bareName : List String → String → String
  | [], cls => cls
  | label :: labels, cls =>
    if label.isEmpty then bareName labels cls
    else match afterLabel? label cls with
      | some name => name
      | none => bareName labels cls

/-- The class put into the scope of a label. -/
def inScope (label name : String) : String :=
  label ++ ":" ++ name

/-- The characters before the first `${`. -/
def beforeInterpolation : List Char → List Char
  | [] => []
  | c :: cs => if c = '$' ∧ cs.head? = some '{' then [] else c :: beforeInterpolation cs

/-- The class up to its first interpolation `${`, whose text is not known in advance. -/
def literalPart (cls : String) : String :=
  String.ofList (beforeInterpolation cls.toList)

/-- The part of a class that decides which entry owns it. The scope is taken off before the cut,
so an interpolation inside the scope keeps the class from being read as scoped. -/
def lookupKey (viewports : List String) (cls : String) : String :=
  literalPart (bareName viewports cls)

end ClassTidy
