import ClassTidy.Text.GraphemeExtend
import ClassTidy.Width.Cells
import ClassTidy.Width.Emoji

/-!
# Display width

The number of columns that a text takes on a terminal. It is the sum of what its characters take by
themselves, apart from sequences that are drawn as one: a line end, emoji with selectors, skin
tones, joiners and tags, flags, and some ligatures.

The text is read from its end. What has been read matters only through its first character or
sequence, the `Ahead` of the next character, so that one step gives the columns that the character
adds and the new `Ahead`. A step may take columns back, when the character turns what follows it
into a narrower sequence.
-/

namespace ClassTidy.Width

open Text (CodePoints)

/-- What begins the text behind a character, as far as it bears on the width. -/
inductive Sequence where
  /-- Nothing that changes the character before it. -/
  | plain
  | lineFeed
  | emoji
  | skinTone
  /-- A flag letter: one regional indicator that is not yet paired. -/
  | flagLetter
  /-- Two or more flag letters. -/
  | flagLetters
  /-- A joiner and an emoji. -/
  | joinedEmoji
  /-- A keycap, a joiner and an emoji. -/
  | joinedKeycap
  /-- One flag letter, a joiner and an emoji. -/
  | joinedFlagLetter
  /-- An even number of flag letters, a joiner and an emoji. -/
  | joinedFlagsEven
  /-- An odd number of flag letters above one, a joiner and an emoji. -/
  | joinedFlagsOdd
  /-- A tag sequence before a joiner and an emoji, read back to so many tag letters and, before
  them, so many tag digits. -/
  | joinedTag (letters digits : Nat)
  /-- An Arabic Alef, after transparent marks. -/
  | alef
  /-- A Hebrew Lamed, with a joiner before it or not. -/
  | lamed (joined : Bool)
  /-- A Buginese Ya, with a joiner before it or not. -/
  | ya (joined : Bool)
  /-- A Buginese vowel sign I before a joiner and Ya. -/
  | joinedVowelI
  /-- A Tifinagh consonant, with a joiner before it or not. -/
  | tifinagh (joined : Bool)
  /-- The Tifinagh joiner before a consonant. -/
  | tifinaghJoiner
  /-- One of the Lisu tone letters that combine with a tone letter before them. -/
  | lisuTone
  /-- An Old Turkic I, with a joiner before it or not. -/
  | orkhonI (joined : Bool)
  | khmerLetter
  | kiratRaiE
  | kiratRaiAI
deriving DecidableEq, Repr

namespace Sequence

/-- Sequences that begin with a letter of a ligature: a variation selector before them is kept
apart from the ligature. -/
def isLetter : Sequence → Bool
  | alef | lamed _ | ya _ | joinedVowelI | tifinagh _ | tifinaghJoiner | lisuTone | orkhonI _
  | khmerLetter => true
  | _ => false

/-- The sequence with a joiner before it, for ligatures whose parts a joiner links. -/
def join? : Sequence → Option Sequence
  | lamed _ => some (lamed true)
  | ya _ => some (ya true)
  | tifinagh _ => some (tifinagh true)
  | orkhonI _ => some (orkhonI true)
  | joinedVowelI => some joinedVowelI
  | tifinaghJoiner => some tifinaghJoiner
  | lisuTone => some lisuTone
  | khmerLetter => some khmerLetter
  | _ => none

/-- Sequences behind which an emoji variation sequence has been joined already, so that a further
emoji before them adds nothing. -/
def isJoined : Sequence → Bool
  | joinedEmoji | joinedKeycap => true
  | _ => false

end Sequence

/-- What stands behind a character: variation selectors, then a sequence. -/
structure Ahead where
  sequence : Sequence := .plain
  /-- The selector for the text form stands first. -/
  text : Bool := false
  /-- The selector for the emoji form stands first. -/
  emoji : Bool := false
  /-- The selector for the full-width form stands first. -/
  fullwidth : Bool := false
deriving DecidableEq, Repr

namespace Ahead

def plain : Ahead := {}

def of (s : Sequence) : Ahead := { sequence := s }

def withEmoji (a : Ahead) : Ahead :=
  if a.sequence.isLetter || a.sequence.isJoined then { a with emoji := true }
  else { emoji := true }

def withText (a : Ahead) : Ahead :=
  if a.sequence.isLetter then { a with text := true } else { text := true }

def withFullwidth (a : Ahead) : Ahead :=
  if a.sequence.isLetter then { a with fullwidth := true } else { fullwidth := true }

/-- Forgets an emoji selector that does not apply; what it had replaced does not come back. -/
def withoutEmoji (a : Ahead) : Ahead :=
  if a.sequence.isLetter then { a with emoji := false } else plain

end Ahead

def joiner : Char := '\u200D'

/-- Whether the character is a regional indicator, half of a flag. -/
def isFlagLetter (c : Char) : Bool := 0x1F1E6 ≤ c.toNat && c.toNat ≤ 0x1F1FF

def isSkinTone (c : Char) : Bool := 0x1F3FB ≤ c.toNat && c.toNat ≤ 0x1F3FF

def isTifinaghConsonant (c : Char) : Bool :=
  (0x2D31 ≤ c.toNat && c.toNat ≤ 0x2D65) || c.toNat == 0x2D6F

/-- Whether the character is a tag letter or, if asked, a tag digit. -/
def isTag (digit : Bool) (c : Char) : Bool :=
  if digit then 0xE0030 ≤ c.toNat && c.toNat ≤ 0xE0039
  else 0xE0061 ≤ c.toNat && c.toNat ≤ 0xE007A

/-- The Arabic letters of the joining group Alef. -/
def alefs : CodePoints :=
  [(0x622, 0x623), (0x625, 0x625), (0x627, 0x627), (0x671, 0x673), (0x675, 0x675),
    (0x773, 0x774), (0x870, 0x882)]

/-- The Arabic letters of the joining group Lam. -/
def lams : CodePoints :=
  [(0x644, 0x644), (0x6B5, 0x6B8), (0x76A, 0x76A), (0x8A6, 0x8A6), (0x8C7, 0x8C7)]

/-- The Khmer letters that can stand below another. -/
def khmerLetters : CodePoints :=
  [(0x1780, 0x1782), (0x1784, 0x1787), (0x1789, 0x178C), (0x178E, 0x1793), (0x1795, 0x1798),
    (0x179B, 0x179D), (0x17A0, 0x17A0), (0x17A2, 0x17A2), (0x17A7, 0x17A7), (0x17AB, 0x17AC),
    (0x17AF, 0x17AF)]

/-- Ignorable marks that do not come between the parts of a ligature. -/
def ligatureTransparent : CodePoints :=
  [(0x34F, 0x34F), (0x17B4, 0x17B5), (0x180B, 0x180D), (0x180F, 0x180F), (0x200D, 0x200D),
    (0xFE00, 0xFE0F), (0xE0100, 0xE01EF)]

/-- Quotation marks that have a full-width form. -/
def quotationMarks : CodePoints :=
  [(0x2018, 0x2019), (0x201C, 0x201D)]

/-- Whether the character is drawn on a neighbour or not at all. -/
def isZeroWidth (c : Char) : Bool :=
  ignorable.contains c || conjoiningJamo.contains c || attached.contains c
    || (Text.graphemeExtend.contains c && !spacingMarks.contains c)

/-- Whether the character has a text form of one column, where by itself it is an emoji of two.
Enclosed ideographs stay wide in their text form. -/
def hasNarrowText (c : Char) : Bool :=
  variationBases.contains c && emojiByDefault.contains c
    && !(0x1F200 ≤ c.toNat && c.toNat ≤ 0x1F2FF)

/-- The columns that a character takes by itself. -/
def alone (c : Char) : Nat :=
  if c.toNat ≤ 0xA0 then 1
  else if isZeroWidth c then 0
  else if c.toNat == 0x17D8 then 3
  else if wide.contains c || emojiByDefault.contains c || isSkinTone c then 2
  else 1

/-- What a character is for the character before it, if no sequence is continued. -/
def ahead (c : Char) : Ahead :=
  let n := c.toNat
  if n == 0x0A then .of .lineFeed
  else if n ≤ 0xA0 then .plain
  else if n == 0xFE0F then { emoji := true }
  else if n == 0xFE0E then { text := true }
  else if n == 0xFE01 then { fullwidth := true }
  else if emojiByDefault.contains c then .of .emoji
  else if isSkinTone c then .of .skinTone
  else if isFlagLetter c then .of .flagLetter
  else if alefs.contains c then .of .alef
  else if n == 0x5DC then .of (.lamed false)
  else if n == 0x1A10 then .of (.ya false)
  else if isTifinaghConsonant c then .of (.tifinagh false)
  else if n == 0xA4FC || n == 0xA4FD then .of .lisuTone
  else if n == 0x10C03 then .of (.orkhonI false)
  else if khmerLetters.contains c then .of .khmerLetter
  else if n == 0x16D67 then .of .kiratRaiE
  else if n == 0x16D68 then .of .kiratRaiAI
  else .plain

/-- How a character goes on the sequence behind it: the columns it adds and what it begins, or
`none` if it stands by itself. -/
def continue? (c : Char) : Sequence → Option (Int × Sequence)
  | .plain => none
  | .lineFeed => none
  | .emoji => if c = joiner then some (0, .joinedEmoji) else none
  | .skinTone =>
    if skinToneBases.contains c then some (0, .emoji)
    else if c = joiner then some (0, .joinedEmoji)
    else none
  | .flagLetter => if isFlagLetter c then some (1, .flagLetters) else none
  | .flagLetters =>
    if isFlagLetter c then some (1, .flagLetters)
    else if c = joiner then some (0, .joinedEmoji)
    else none
  | .joinedEmoji =>
    if c.toNat == 0x20E3 then some (0, .joinedKeycap)
    else if isFlagLetter c then some (1, .joinedFlagLetter)
    else if isSkinTone c then some (0, .skinTone)
    else if c.toNat == 0xE007F then some (0, .joinedTag 0 0)
    else if emojiByDefault.contains c then some (0, .emoji)
    else none
  | .joinedKeycap => none
  | .joinedFlagLetter => if isFlagLetter c then some (-1, .joinedFlagsEven) else none
  | .joinedFlagsEven =>
    if isFlagLetter c then some (3, .joinedFlagsOdd)
    else if c = joiner then some (0, .joinedEmoji)
    else none
  | .joinedFlagsOdd =>
    if isFlagLetter c then some (-1, .joinedFlagsEven)
    else if c = joiner then some (0, .joinedEmoji)
    else none
  | .joinedTag letters digits =>
    if isTag false c && digits == 0 && letters < 6 then some (0, .joinedTag (letters + 1) 0)
    else if isTag true c && digits < 3 && (0 < digits || letters ≤ 4) then
      some (0, .joinedTag letters (digits + 1))
    else if c.toNat == 0x1F3F4 && (digits == 3 || (digits == 0 && 3 ≤ letters)) then
      some (0, .emoji)
    else none
  | .alef =>
    if lams.contains c then some (0, .plain)
    else if isZeroWidth c && !joiningBreaks.contains c then some (0, .alef)
    else none
  | .lamed joined => if joined && c.toNat == 0x5D0 then some (0, .plain) else none
  | .ya joined => if joined && c.toNat == 0x1A17 then some (0, .joinedVowelI) else none
  | .joinedVowelI => if c.toNat == 0x1A15 then some (0, .plain) else none
  | .tifinagh joined =>
    if c.toNat == 0x2D7F then some (1, .tifinaghJoiner)
    else if joined && isTifinaghConsonant c then some (0, .plain)
    else none
  | .tifinaghJoiner => if isTifinaghConsonant c then some (-1, .plain) else none
  | .lisuTone => if 0xA4F8 ≤ c.toNat && c.toNat ≤ 0xA4FB then some (0, .plain) else none
  | .orkhonI joined => if joined && c.toNat == 0x10C32 then some (0, .plain) else none
  | .khmerLetter => if c.toNat == 0x17D2 then some (-1, .plain) else none
  | .kiratRaiE =>
    if c.toNat == 0x16D63 then some (0, .plain)
    else if c.toNat == 0x16D67 then some (0, .kiratRaiAI)
    else if c.toNat == 0x16D68 then some (1, .kiratRaiE)
    else if c.toNat == 0x16D69 then some (0, .plain)
    else none
  | .kiratRaiAI => if c.toNat == 0x16D63 then some (0, .plain) else none

/-- The character by itself. -/
def stepAlone (c : Char) : Int × Ahead :=
  (alone c, ahead c)

/-- A character before a sequence without selectors. -/
def stepSequence (c : Char) (s : Sequence) : Int × Ahead :=
  match s.join? with
  | some joined =>
    if c = joiner then (0, .of joined)
    else if ligatureTransparent.contains c then (0, .of s)
    else next
  | none => next
where
  /-- Goes on with the sequence if the character can. -/
  next : Int × Ahead :=
    match continue? c s with
    | some (columns, s') => (columns, .of s')
    | none => stepAlone c

/-- A character beyond the ASCII range and its Latin controls, when no emoji selector applies. -/
def stepWide (c : Char) (a : Ahead) : Int × Ahead :=
  if c.toNat == 0xFE0F then (0, a.withEmoji)
  else if c.toNat == 0xFE0E then (0, a.withText)
  else if c.toNat == 0xFE01 && !a.sequence.isLetter then (0, a.withFullwidth)
  else if a.text && hasNarrowText c then (1, .plain)
  else if a.fullwidth && quotationMarks.contains c then (2, .plain)
  else stepSequence c a.sequence

/-- The columns that a character adds before what stands behind it, and what stands behind the
character before it. -/
def step (c : Char) (a : Ahead) : Int × Ahead :=
  if a.emoji && variationBases.contains c then
    -- The emoji form takes two columns, unless the sequence behind a joiner has them already.
    (if a.sequence.isJoined then 0 else 2, .of .emoji)
  else
    let a := if a.emoji then a.withoutEmoji else a
    -- Up to the no-break space only the two characters of a line end take part in a sequence.
    if c.toNat ≤ 0xA0 then
      (if c = '\r' ∧ a = .of .lineFeed then 0 else 1, ahead c)
    else stepWide c a

/-- The columns of a list of characters and what it begins with. -/
def scan : List Char → Int × Ahead
  | [] => (0, .plain)
  | c :: cs =>
    let (columns, a) := scan cs
    let (added, a') := step c a
    (columns + added, a')

/-- The number of columns that a text takes. -/
def columns (s : String) : Nat :=
  (scan s.toList).1.toNat

end ClassTidy.Width
