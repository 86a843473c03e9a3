import Mathlib.Data.List.TakeWhile
import ClassTidy.Json.Numeral
import ClassTidy.Json.StringLiteral
import ClassTidy.Json.Values

/-!
# The grammar of JSON

Which texts are JSON, told by how a text is made up and not by how it is read. A relation is given
where the parts of a text denote something:

> `Spells`: what stands between the quotes of a string, and the characters that it denotes;
> `Numeral.SpelledBy`: the text of a numeral, and its parts;
> `WellFormed`: the texts of values, with blanks around them.

`StringBody` is the form alone of what stands between quotes: an escaped surrogate may be on its
own, though it denotes no character.
-/

namespace ClassTidy.Json

/-! ## Blanks -/

def Blanks (cs : List Char) : Prop :=
  ∀ c ∈ cs, isBlank c = true

theorem blanks_nil : Blanks [] := by
  intro c hc
  cases hc

theorem blanks_singleton {c : Char} (h : isBlank c = true) : Blanks [c] :=
  List.forall_mem_singleton.mpr h

theorem Blanks.append {cs ds : List Char} (hcs : Blanks cs) (hds : Blanks ds) :
    Blanks (cs ++ ds) := by
  intro c hc
  rcases List.mem_append.mp hc with hc | hc
  · exact hcs c hc
  · exact hds c hc

/-- Blanks in front of a text are passed over. -/
@[simp] theorem skipBlank_append {blanks : List Char} (h : Blanks blanks) (cs : List Char) :
    skipBlank (blanks ++ cs) = skipBlank cs :=
  List.dropWhile_append_of_pos h

@[simp] theorem skipBlank_cons {c : Char} (h : isBlank c = false) (cs : List Char) :
    skipBlank (c :: cs) = c :: cs :=
  List.dropWhile_cons_of_neg (by simp [h])

@[simp] theorem isBlank_punctuation : isBlank '"' = false ∧ isBlank ',' = false ∧
    isBlank ':' = false ∧ isBlank '}' = false := by
  decide

/-- What is passed over are blanks. -/
theorem exists_blanks (cs : List Char) : ∃ blanks, Blanks blanks ∧ cs = blanks ++ skipBlank cs := by
  refine ⟨cs.takeWhile isBlank, ?_, List.takeWhile_append_dropWhile.symm⟩
  intro c hc
  exact List.mem_takeWhile_imp hc

/-- A text goes on behind its blanks with a character that is none. -/
theorem isBlank_of_skipBlank {cs rest : List Char} {c : Char} (h : skipBlank cs = c :: rest) :
    isBlank c = false := by
  have hhead : (skipBlank cs).head? = some c := by
    rw [h, List.head?_cons]
  have hstop := List.head?_dropWhile_not isBlank cs
  rw [show (cs.dropWhile isBlank).head? = some c from hhead] at hstop
  exact hstop

@[simp] theorem skipBlank_skipBlank (cs : List Char) : skipBlank (skipBlank cs) = skipBlank cs := by
  cases h : skipBlank cs with
  | nil => rfl
  | cons c rest => exact skipBlank_cons (isBlank_of_skipBlank h) rest

theorem skipBlank_append_cons {cs ds : List Char} {c : Char} (h : skipBlank cs = c :: ds)
    (rest : List Char) : skipBlank (cs ++ rest) = c :: (ds ++ rest) := by
  obtain ⟨blanks, hblanks, hcs⟩ := exists_blanks cs
  rw [hcs, h, List.append_assoc, skipBlank_append hblanks, List.cons_append,
    skipBlank_cons (isBlank_of_skipBlank h)]

/-! ## Strings -/

/-- The letters of the short escapes, and the characters that they stand for. -/
def shortEscapes : List (Char × Char) :=
  [('"', '"'), ('\\', '\\'), ('/', '/'), ('b', '\x08'), ('f', '\x0C'), ('n', '\n'), ('r', '\r'),
    ('t', '\t')]

/-- Four hexadecimal digits that denote the number. -/
def IsUnit (digits : List Char) (n : Nat) : Prop :=
  digits.length = 4 ∧ hexValue? digits = some n

/-- What stands between the quotes of a string, and the characters that it denotes. An escape by
code point is a UTF-16 unit: it denotes a character of the basic plane, and two of them denote one
beyond it. -/
inductive Spells : List Char → List Char → Prop where
  | nil : Spells [] []
  | plain {c : Char} {cs ds : List Char} : c ≠ '"' → c ≠ '\\' → isControl c = false →
    Spells cs ds → Spells (c :: cs) (c :: ds)
  | short {letter c : Char} {cs ds : List Char} : (letter, c) ∈ shortEscapes →
    Spells cs ds → Spells ('\\' :: letter :: cs) (c :: ds)
  | unit {digits : List Char} {c : Char} {cs ds : List Char} : IsUnit digits c.toNat →
    Spells cs ds → Spells ('\\' :: 'u' :: (digits ++ cs)) (c :: ds)
  | pair {first second : List Char} {c : Char} {cs ds : List Char} : 0x10000 ≤ c.toNat →
    IsUnit first (0xD800 + (c.toNat - 0x10000) / 0x400) →
    IsUnit second (0xDC00 + (c.toNat - 0x10000) % 0x400) →
    Spells cs ds → Spells ('\\' :: 'u' :: (first ++ '\\' :: 'u' :: (second ++ cs))) (c :: ds)

/-- What may stand between the quotes of a string. -/
inductive StringBody : List Char → Prop where
  | nil : StringBody []
  | plain {c : Char} {cs : List Char} : c ≠ '"' → c ≠ '\\' → isControl c = false →
    StringBody cs → StringBody (c :: cs)
  | short {letter c : Char} {cs : List Char} : (letter, c) ∈ shortEscapes →
    StringBody cs → StringBody ('\\' :: letter :: cs)
  | unit {digits : List Char} {n : Nat} {cs : List Char} : IsUnit digits n →
    StringBody cs → StringBody ('\\' :: 'u' :: (digits ++ cs))

/-- What denotes characters is of the right form. -/
theorem Spells.stringBody {cs ds : List Char} (h : Spells cs ds) : StringBody cs := by
  induction h with
  | nil => exact .nil
  | plain hquote hslash hcontrol _ ih => exact .plain hquote hslash hcontrol ih
  | short hmem _ ih => exact .short hmem ih
  | unit hunit _ ih => exact .unit hunit ih
  | pair _ hfirst hsecond _ ih => exact .unit hfirst (.unit hsecond ih)

/-! ## Numbers -/

/-- At least one decimal digit, and nothing else. -/
structure Digits (cs : List Char) : Prop where
  ne_nil : cs ≠ []
  isDigit : ∀ c ∈ cs, c.isDigit = true

/-- The text of a fraction, and its digits. -/
inductive SpellsFraction : List Char → List Char → Prop where
  | none : SpellsFraction [] []
  | digits {ds : List Char} : Digits ds → SpellsFraction ('.' :: ds) ds

/-- The text of an exponent, and whether it has a minus sign, and its digits. -/
inductive SpellsExponent : List Char → Option (Bool × List Char) → Prop where
  | none : SpellsExponent [] none
  | plain {e : Char} {ds : List Char} : e = 'e' ∨ e = 'E' → Digits ds →
    SpellsExponent (e :: ds) (some (false, ds))
  | plus {e : Char} {ds : List Char} : e = 'e' ∨ e = 'E' → Digits ds →
    SpellsExponent (e :: '+' :: ds) (some (false, ds))
  | minus {e : Char} {ds : List Char} : e = 'e' ∨ e = 'E' → Digits ds →
    SpellsExponent (e :: '-' :: ds) (some (true, ds))

/-- The digits before the point: no zero stands in front of others. -/
structure WholeDigits (cs : List Char) : Prop extends Digits cs where
  zero_alone : cs.head? = some '0' → cs = ['0']

/-- The text of a numeral. -/
def Numeral.SpelledBy (x : Numeral) (cs : List Char) : Prop :=
  ∃ fraction exponent, WholeDigits x.whole ∧ SpellsFraction fraction x.fraction ∧
    SpellsExponent exponent x.exponent ∧
    cs = (if x.negative then ['-'] else []) ++ (x.whole ++ (fraction ++ exponent))

/-! ## Values -/

/-- Texts with commas between them, in brackets. -/
def inBrackets (b : Bracket) (texts : List (List Char)) : List Char :=
  b.opener :: ([','].intercalate texts ++ [b.closer])

/-- The words that are values. -/
def valueWords : List (List Char) :=
  [['n', 'u', 'l', 'l'], ['t', 'r', 'u', 'e'], ['f', 'a', 'l', 's', 'e']]

/-- The key of a member, with blanks around it. -/
def IsKey (cs : List Char) : Prop :=
  ∃ lead body trail, Blanks lead ∧ StringBody body ∧ Blanks trail ∧
    cs = lead ++ '"' :: (body ++ '"' :: trail)

/-- The text of a value. -/
inductive WellFormed : List Char → Prop where
  | word {cs : List Char} : cs ∈ valueWords → WellFormed cs
  | number {x : Numeral} {cs : List Char} : x.SpelledBy cs → WellFormed cs
  | string {body : List Char} : StringBody body → WellFormed ('"' :: (body ++ ['"']))
  /-- Brackets that hold nothing but blanks. -/
  | empty (b : Bracket) {blanks : List Char} : Blanks blanks →
    WellFormed (b.opener :: (blanks ++ [b.closer]))
  | array {items : List (List Char)} : (∀ item ∈ items, WellFormed item) →
    WellFormed (inBrackets .array items)
  | object {members : List (List Char × List Char)} : (∀ m ∈ members, IsKey m.1) →
    (∀ m ∈ members, WellFormed m.2) →
    WellFormed (inBrackets .object (members.map fun m => m.1 ++ ':' :: m.2))
  /-- Blanks may stand around a value. -/
  | padded {lead cs trail : List Char} : Blanks lead → WellFormed cs → Blanks trail →
    WellFormed (lead ++ (cs ++ trail))

/-- The text of a string, with blanks around it. -/
def SpellsString (text : List Char) (s : String) : Prop :=
  ∃ lead body trail, Blanks lead ∧ Spells body s.toList ∧ Blanks trail ∧
    text = lead ++ '"' :: (body ++ '"' :: trail)

theorem SpellsString.wellFormed {text : List Char} {s : String} (h : SpellsString text s) :
    WellFormed text := by
  obtain ⟨lead, body, trail, hlead, hbody, htrail, rfl⟩ := h
  have hpadded := WellFormed.padded hlead (.string hbody.stringBody) htrail
  rwa [List.cons_append, List.append_assoc, List.singleton_append] at hpadded

/-- The text of an array of strings. -/
def SpellsStrings (text : List Char) (l : List String) : Prop :=
  ∃ items : List (List Char × String), (∀ i ∈ items, SpellsString i.1 i.2) ∧
    text = inBrackets .array (items.map Prod.fst) ∧ l = items.map Prod.snd

theorem SpellsStrings.wellFormed {text : List Char} {l : List String} (h : SpellsStrings text l) :
    WellFormed text := by
  obtain ⟨items, hitems, rfl, _⟩ := h
  apply WellFormed.array
  intro item hitem
  obtain ⟨i, hi, rfl⟩ := List.mem_map.mp hitem
  exact (hitems i hi).wellFormed

end ClassTidy.Json
