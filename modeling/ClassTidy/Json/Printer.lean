/-!
# Writing JSON

Values are written in one line without blanks, or one element to a line, indented by two spaces
for each bracket that is open. In strings only quotes, backslashes and control characters below
U+0020 are escaped.
-/

namespace ClassTidy.Json

/-- A value to be written. -/
inductive Value where
  | number (n : Nat)
  | string (s : String)
  | array (items : List Value)
  /-- An object, as its members in order. -/
  | object (members : List (String × Value))

/-- A character as it is written in a string. -/
def escapedChar (c : Char) : List Char :=
  if c = '"' ∨ c = '\\' then ['\\', c]
  else if c = '\x08' then ['\\', 'b']
  else if c = '\x0C' then ['\\', 'f']
  else if c = '\n' then ['\\', 'n']
  else if c = '\r' then ['\\', 'r']
  else if c = '\t' then ['\\', 't']
  else if c.toNat < 0x20 then
    ['\\', 'u', '0', '0', Nat.digitChar (c.toNat / 16), Nat.digitChar (c.toNat % 16)]
  else [c]

def writtenString (s : String) : List Char :=
  '"' :: s.toList.flatMap escapedChar ++ ['"']

namespace Value

mutual

/-- The value in one line. -/
def compact : Value → List Char
  | number n => Nat.toDigits 10 n
  | string s => writtenString s
  | array items => '[' :: compactItems items ++ [']']
  | object members => '{' :: compactMembers members ++ ['}']

/-- The items of an array in one line, with commas between them. -/
def compactItems : List Value → List Char
  | [] => []
  | [v] => v.compact
  | v :: w :: items => v.compact ++ ',' :: compactItems (w :: items)

/-- The members of an object in one line, with commas between them. -/
def compactMembers : List (String × Value) → List Char
  | [] => []
  | [(key, v)] => writtenString key ++ ':' :: v.compact
  | (key, v) :: m :: members =>
    writtenString key ++ ':' :: v.compact ++ ',' :: compactMembers (m :: members)

end

/-- A line end and the indent within so many brackets. -/
def newLine (depth : Nat) : List Char :=
  '\n' :: List.replicate (2 * depth) ' '

mutual

/-- The value with a line for each item, within so many brackets. -/
def prettyAt (depth : Nat) : Value → List Char
  | number n => Nat.toDigits 10 n
  | string s => writtenString s
  | array [] => ['[', ']']
  | array (v :: items) =>
    '[' :: prettyItems (depth + 1) (v :: items) ++ newLine depth ++ [']']
  | object [] => ['{', '}']
  | object (m :: members) =>
    '{' :: prettyMembers (depth + 1) (m :: members) ++ newLine depth ++ ['}']

/-- The items of an array, each on a line of its own. -/
def prettyItems (depth : Nat) : List Value → List Char
  | [] => []
  | [v] => newLine depth ++ v.prettyAt depth
  | v :: w :: items =>
    newLine depth ++ v.prettyAt depth ++ ',' :: prettyItems depth (w :: items)

/-- The members of an object, each on a line of its own. -/
def prettyMembers (depth : Nat) : List (String × Value) → List Char
  | [] => []
  | [(key, v)] => newLine depth ++ writtenString key ++ [':', ' '] ++ v.prettyAt depth
  | (key, v) :: m :: members =>
    newLine depth ++ writtenString key ++ [':', ' '] ++ v.prettyAt depth
      ++ ',' :: prettyMembers depth (m :: members)

end

/-- The value in one line. -/
def toText (v : Value) : String :=
  String.ofList v.compact

/-- The value with a line for each item. -/
def toPrettyText (v : Value) : String :=
  String.ofList (v.prettyAt 0)

def strings (l : List String) : Value :=
  array (l.map string)

end Value

end ClassTidy.Json
