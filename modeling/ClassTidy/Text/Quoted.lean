import ClassTidy.Text.GraphemeExtend
import ClassTidy.Text.Unprintable

/-!
# Quoted text

A text between double quotes for messages to people. What would not be seen is escaped: line ends,
tabs and zero by a letter or digit, other characters without a printed form of their own by their
code point.
-/

namespace ClassTidy.Text

/-- The code point of a character between braces, in lower-case hexadecimal digits. -/
def codePointEscape (c : Char) : List Char :=
  ['\\', 'u', '{'] ++ Nat.toDigits 16 c.toNat ++ ['}']

/-- A character as it stands between double quotes. -/
def quotedChar (c : Char) : List Char :=
  if c = '\x00' then ['\\', '0']
  else if c = '\t' then ['\\', 't']
  else if c = '\r' then ['\\', 'r']
  else if c = '\n' then ['\\', 'n']
  else if c = '"' ∨ c = '\\' then ['\\', c]
  else if graphemeExtend.contains c || unprintable.contains c then codePointEscape c
  else [c]

/-- The text between double quotes. -/
def quoted (s : String) : String :=
  String.ofList ('"' :: s.toList.flatMap quotedChar ++ ['"'])

end ClassTidy.Text
