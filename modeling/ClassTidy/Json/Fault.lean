import ClassTidy.Decimal.Shortest
import ClassTidy.Text.Quoted

/-!
# What can be wrong with a JSON text

A text is read once from left to right, and the first fault ends the reading. A `Fault` says what
is wrong and how many bytes of the text lie behind the place; a `Defect` says the place by line and
column. Columns count bytes.
-/

namespace ClassTidy.Json

/-- The number of bytes of the characters in UTF-8. -/
def byteLength (cs : List Char) : Nat :=
  cs.foldr (·.utf8Size + ·) 0

/-- The two kinds of bracket. -/
inductive Bracket where
  | array
  | object
deriving DecidableEq, Repr

def Bracket.closer : Bracket → Char
  | array => ']'
  | object => '}'

/-- A value that stands where another kind of value is wanted. -/
inductive Found where
  | null
  | bool (b : Bool)
  /-- An integer between -2^63 and 2^64. -/
  | integer (n : Int)
  | float (x : Float)
  | string (s : String)
  | array
  | object

/-- The value as messages call it. -/
def Found.describe : Found → String
  | null => "null"
  | bool b => "boolean `" ++ (if b then "true" else "false") ++ "`"
  | integer n => "integer `" ++ toString n ++ "`"
  | float x => "floating point `" ++ Decimal.text x ++ "`"
  | string s => "string " ++ Text.quoted s
  | array => "sequence"
  | object => "map"

/-- What is wrong. -/
inductive Cause where
  /-- The text ends where a value is due, or within one. -/
  | endInValue
  | endIn (b : Bracket)
  | endInString
  | noValue
  /-- A letter that does not continue `null`, `true` or `false`. -/
  | badWord
  /-- A key is not followed by a colon. -/
  | noColon
  /-- Neither a comma nor the closing bracket follows an element or a member. -/
  | noComma (b : Bracket)
  /-- An object has something other than a string for a key. -/
  | badKey
  | trailingComma
  | trailingText
  | badNumeral
  | numberTooLarge
  | badEscape
  /-- A surrogate escape without its other half. -/
  | loneSurrogate
  /-- No second escape follows the first half of a surrogate pair. -/
  | unfinishedPair
  | controlCharacter
  | wrongKind (found : Found) (wanted : String)
  | negative (n : Int) (wanted : String)
  | repeatedField (name : String)

/-- The wording of a cause. -/
def Cause.message : Cause → String
  | endInValue => "EOF while parsing a value"
  | endIn .array => "EOF while parsing a list"
  | endIn .object => "EOF while parsing an object"
  | endInString => "EOF while parsing a string"
  | noValue => "expected value"
  | badWord => "expected ident"
  | noColon => "expected `:`"
  | noComma b => "expected `,` or `" ++ b.closer.toString ++ "`"
  | badKey => "key must be a string"
  | trailingComma => "trailing comma"
  | trailingText => "trailing characters"
  | badNumeral => "invalid number"
  | numberTooLarge => "number out of range"
  | badEscape => "invalid escape"
  | loneSurrogate => "lone leading surrogate in hex escape"
  | unfinishedPair => "unexpected end of hex escape"
  | controlCharacter => "control character (\\u0000-\\u001F) found while parsing a string"
  | wrongKind found wanted => "invalid type: " ++ found.describe ++ ", expected " ++ wanted
  | negative n wanted => "invalid value: integer `" ++ toString n ++ "`, expected " ++ wanted
  | repeatedField name => "duplicate field `" ++ name ++ "`"

/-- What is wrong, and the number of bytes behind the place. -/
structure Fault where
  cause : Cause
  left : Nat

namespace Fault

/-- A fault at the place up to which the text has been read. -/
def here (cause : Cause) (rest : List Char) : Fault := ⟨cause, byteLength rest⟩

/-- A fault one byte further: in what comes next, if anything does. The place may lie within a
character; it is only counted, never cut. -/
def next (cause : Cause) (rest : List Char) : Fault := ⟨cause, byteLength rest - 1⟩

end Fault

/-- What is wrong with a text, and where. -/
structure Defect where
  cause : Cause
  /-- One more than the number of line feeds before the place. -/
  line : Nat
  /-- The number of bytes between the last of these line feeds and the place. -/
  column : Nat

namespace Defect

/-- A fault in a text, by line and column. -/
def ofFault (text : String) (f : Fault) : Defect :=
  let bytes := text.toUTF8.toList
  let before := bytes.take (bytes.length - f.left)
  { cause := f.cause
    line := before.count 0x0A + 1
    column := (before.reverse.takeWhile (· != 0x0A)).length }

/-- The wording of a defect. -/
def message (d : Defect) : String :=
  d.cause.message ++ " at line " ++ toString d.line ++ " column " ++ toString d.column

end Defect

end ClassTidy.Json
