import ClassTidy.Json.Reader

/-!
# Numerals

A numeral is a sign, whole digits without a leading zero, a fraction and an exponent. Integers from
`-2^63` to below `2^64` are taken exactly. Any other numeral is a float, worked out in steps that
each round: its digits as a whole number below `2^64`, from which on digits only shift the point,
and then one multiplication or division by a power of ten.
-/

namespace ClassTidy.Json

/-- The parts of a numeral. -/
structure Numeral where
  /-- A minus sign stands first. -/
  negative : Bool
  whole : List Char
  /-- The digits behind the point, none if there is no point. -/
  fraction : List Char
  /-- Whether the exponent has a minus sign, and its digits. -/
  exponent : Option (Bool × List Char)
deriving Repr

/-- The digits at the front and the rest. -/
def spanDigits (cs : List Char) : List Char × List Char :=
  (cs.takeWhile Char.isDigit, cs.dropWhile Char.isDigit)

theorem length_spanDigits_le (cs : List Char) : (spanDigits cs).2.length ≤ cs.length :=
  (List.dropWhile_sublist _).length_le

/-- Reads the digits that are due at this place. `atEnd` is the cause if the text ends here. -/
def someDigits (atEnd : Cause) (cs : List Char) : Reading (List Char) :=
  match cs with
  | [] => .error (.here atEnd [])
  | c :: rest =>
    if c.isDigit then .ok (c :: (spanDigits rest).1, (spanDigits rest).2)
    else .error (.next .badNumeral cs)

theorem length_lt_of_someDigits {atEnd : Cause} {cs ds rest : List Char}
    (h : someDigits atEnd cs = .ok (ds, rest)) : rest.length < cs.length := by
  unfold someDigits at h
  split at h
  · cases h
  · split at h
    · cases h; exact Nat.lt_succ_of_le (length_spanDigits_le _)
    · cases h

/-- Reads the digits before the point. Nothing but a point or an exponent may follow a zero that
stands first. -/
def wholePart (atEnd : Cause) (cs : List Char) : Reading (List Char) :=
  match someDigits atEnd cs with
  | .error e => .error e
  | .ok (digits, rest) =>
    if digits.head? = some '0' ∧ digits ≠ ['0'] then .error (.next .badNumeral (cs.drop 1))
    else .ok (digits, rest)

theorem length_lt_of_wholePart {atEnd : Cause} {cs ds rest : List Char}
    (h : wholePart atEnd cs = .ok (ds, rest)) : rest.length < cs.length := by
  unfold wholePart at h
  split at h
  · cases h
  · next hd =>
    split at h
    · cases h
    · cases h; exact length_lt_of_someDigits hd

/-- Reads a point and the digits behind it, if there is a point. -/
def fractionPart (atEnd : Cause) (cs : List Char) : Reading (List Char) :=
  if cs.head? = some '.' then someDigits atEnd (cs.drop 1) else .ok ([], cs)

theorem length_le_of_fractionPart {atEnd : Cause} {cs ds rest : List Char}
    (h : fractionPart atEnd cs = .ok (ds, rest)) : rest.length ≤ cs.length := by
  unfold fractionPart at h
  split at h
  · have := length_lt_of_someDigits h
    rw [List.length_drop] at this
    omega
  · cases h; exact Nat.le_refl _

/-- Whether the sign that stands first, if any, is a minus, and the rest. -/
def sign (cs : List Char) : Bool × List Char :=
  if cs.head? = some '-' then (true, cs.drop 1)
  else if cs.head? = some '+' then (false, cs.drop 1)
  else (false, cs)

theorem length_sign_le (cs : List Char) : (sign cs).2.length ≤ cs.length := by
  unfold sign
  split
  · simp
  · split <;> simp

/-- Reads an exponent, if there is one. -/
def exponentPart (atEnd : Cause) (cs : List Char) : Reading (Option (Bool × List Char)) :=
  if cs.head? = some 'e' ∨ cs.head? = some 'E' then
    match someDigits atEnd (sign (cs.drop 1)).2 with
    | .error e => .error e
    | .ok (digits, rest) => .ok (some ((sign (cs.drop 1)).1, digits), rest)
  else .ok (none, cs)

theorem length_le_of_exponentPart {atEnd : Cause} {cs rest : List Char}
    {x : Option (Bool × List Char)} (h : exponentPart atEnd cs = .ok (x, rest)) :
    rest.length ≤ cs.length := by
  unfold exponentPart at h
  split at h
  · split at h
    · cases h
    · next hd =>
      cases h
      have := length_lt_of_someDigits hd
      have := length_sign_le (cs.drop 1)
      rw [List.length_drop] at this
      omega
  · cases h; exact Nat.le_refl _

/-- Reads a numeral, `-` or a digit at its front. -/
def numeral (atEnd : Cause) (cs : List Char) : Reading Numeral :=
  let negative := cs.head? == some '-'
  match wholePart atEnd (if negative then cs.drop 1 else cs) with
  | .error e => .error e
  | .ok (whole, cs₁) =>
    match fractionPart atEnd cs₁ with
    | .error e => .error e
    | .ok (fraction, cs₂) =>
      match exponentPart atEnd cs₂ with
      | .error e => .error e
      | .ok (exponent, rest) => .ok (⟨negative, whole, fraction, exponent⟩, rest)

theorem length_lt_of_numeral {atEnd : Cause} {cs rest : List Char} {x : Numeral}
    (h : numeral atEnd cs = .ok (x, rest)) : rest.length < cs.length := by
  simp only [numeral] at h
  split at h
  · cases h
  · next hw =>
    split at h
    · cases h
    · next hf =>
      split at h
      · cases h
      · next he =>
        cases h
        have h₁ := length_lt_of_wholePart hw
        have h₂ := length_le_of_fractionPart hf
        have h₃ := length_le_of_exponentPart he
        split at h₁
        · rw [List.length_drop] at h₁; omega
        · omega

/-- A number as it is told apart in messages. -/
inductive Number where
  /-- An integer from `-2^63` to below `2^64`. -/
  | integer (n : Int)
  | float (x : Float)

/-- Appends digits to a number as long as it stays below the limit. Gives the number and the digits
that are left. -/
def appendDigits (limit n : Nat) : List Char → Nat × List Char
  | [] => (n, [])
  | d :: ds =>
    let m := 10 * n + (d.toNat - '0'.toNat)
    if m < limit then appendDigits limit m ds else (n, d :: ds)

/-- A power of ten as a float, for exponents up to 308. -/
def tenPower (k : Nat) : Float := Float.ofScientific 1 false k

/-- A float divided by `10 ^ k`, by `10 ^ 308` at a time. -/
def divideTenPower (x : Float) (k : Nat) : Float :=
  if k ≤ 308 then x / tenPower k
  else if x == 0 then x
  else divideTenPower (x / tenPower 308) (k - 308)
  termination_by k

/-- A float times `10 ^ e`, or `none` if that is beyond the floats. -/
def timesTenPower? (x : Float) (e : Int) : Option Float :=
  if e < 0 then some (divideTenPower x e.natAbs)
  else if e ≤ 308 then
    let y := x * tenPower e.toNat
    if y.isInf then none else some y
  else if x == 0 then some x
  else none

namespace Numeral

/-- The value of a numeral that no fraction or exponent makes a float. -/
def integerValue (x : Numeral) (n : Nat) : Number :=
  if !x.negative then .integer n
  else if n = 0 ∨ 0x8000000000000000 < n then .float (-n.toUInt64.toFloat)
  else .integer (-n)

/-- A float with the sign of the numeral. -/
def signed (x : Numeral) (f : Float) : Number :=
  .float (if x.negative then -f else f)

/-- The value of a numeral. `rest` is the text behind it, which gives faults their place: an
exponent too large to be counted is reported at the digit that makes it so. -/
def value (x : Numeral) (rest : List Char) : Except Fault Number :=
  -- Digits that no longer fit count by their number: those before the point shift it to the right,
  -- those behind it are dropped.
  let (n, shifted) := appendDigits UInt64.size 0 x.whole
  let (m, unused) := appendDigits UInt64.size n x.fraction
  let shift : Int := shifted.length - (x.fraction.length - unused.length)
  let scaled (e : Int) : Except Fault Number :=
    match timesTenPower? m.toUInt64.toFloat e with
    | some f => .ok (x.signed f)
    | none => .error (.here .numberTooLarge rest)
  match x.exponent with
  | none =>
    if shifted.isEmpty && x.fraction.isEmpty then .ok (x.integerValue n) else scaled shift
  | some (negative, digits) =>
    match appendDigits 0x80000000 0 digits with
    | (e, []) => scaled (if negative then shift - e else shift + e)
    | (_, _ :: behind) =>
      -- An exponent beyond counting: zero stays zero, and a minus sign makes zero of all else.
      if m ≠ 0 && !negative then .error (.here .numberTooLarge (behind ++ rest))
      else .ok (x.signed 0)

end Numeral

/-- Reads a number, `-` or a digit at its front. -/
def number (cs : List Char) : Reading Number :=
  match numeral .endInValue cs with
  | .error e => .error e
  | .ok (x, rest) =>
    match x.value rest with
    | .error e => .error e
    | .ok n => .ok (n, rest)

theorem length_lt_of_number {cs rest : List Char} {n : Number} (h : number cs = .ok (n, rest)) :
    rest.length < cs.length := by
  unfold number at h
  split at h
  · cases h
  · next hx =>
    split at h
    · cases h
    · cases h; exact length_lt_of_numeral hx

end ClassTidy.Json
