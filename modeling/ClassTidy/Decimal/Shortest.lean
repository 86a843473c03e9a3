/-!
# The shortest decimal that reads back as a float

A finite float is a whole number `m` times a power of two. The decimals that are rounded to it lie
between the midpoints to its neighbours, the midpoints included when `m` is even. Of the decimals
with the fewest digits in that interval the nearest to the float is chosen, and the even one of two
that are equally near.

All bounds are compared as fractions of whole numbers, so that nothing is rounded on the way.
-/

namespace ClassTidy.Decimal

/-- A positive decimal: its digits, and the power of ten of the first one. -/
structure Digits where
  /-- The digits, the first of them not zero. -/
  digits : List Char
  exponent : Int
deriving DecidableEq, Repr

/-- A positive fraction of whole numbers. -/
structure Fraction where
  num : Nat
  den : Nat

namespace Fraction

/-- The fraction `n * b ^ e`. -/
def scaled (n b : Nat) (e : Int) : Fraction :=
  if 0 ≤ e then ⟨n * b.pow e.toNat, 1⟩ else ⟨n, b.pow (-e).toNat⟩

def lt (a b : Fraction) : Bool := a.num * b.den < b.num * a.den

def mul (a b : Fraction) : Fraction := ⟨a.num * b.num, a.den * b.den⟩

end Fraction

/-- The positive finite float `mantissa * 2 ^ exponent`. -/
structure Binary where
  mantissa : Nat
  exponent : Int
  /-- The float below is nearer than the float above: the mantissa is the least with its exponent
  and not the least of all. -/
  nearBelow : Bool

namespace Binary

/-- The positive finite float with the given bits. -/
def ofBits (bits : UInt64) : Binary :=
  let fraction : Nat := bits.toNat % 0x10000000000000
  let field : Nat := bits.toNat / 0x10000000000000 % 0x800
  if field = 0 then ⟨fraction, -1074, false⟩
  else ⟨0x10000000000000 + fraction, (field : Int) - 1075, fraction = 0 ∧ 1 < field⟩

/-- Four times the value over `2 ^ exponent`: the scale on which the midpoints are whole. -/
def quarters (x : Binary) : Nat := 4 * x.mantissa

/-- The midpoint to the float below, on the scale of quarters. -/
def lower (x : Binary) : Nat := x.quarters - (if x.nearBelow then 1 else 2)

/-- The midpoint to the float above, on the scale of quarters. -/
def upper (x : Binary) : Nat := x.quarters + 2

/-- A number on the scale of quarters as a fraction. -/
def value (x : Binary) (quarters : Nat) : Fraction :=
  Fraction.scaled quarters 2 (x.exponent - 2)

/-- Whether a fraction is rounded to the float. -/
def covers (x : Binary) (a : Fraction) : Bool :=
  if x.mantissa % 2 = 0 then !a.lt (x.value x.lower) && !(x.value x.upper).lt a
  else (x.value x.lower).lt a && a.lt (x.value x.upper)

/-- A power of ten above the value, and at most a thousand times the power of its first digit: it is
counted off the lengths of numerator and denominator. -/
def ceiling (x : Binary) : Int :=
  let v := x.value x.quarters
  (Nat.toDigits 10 v.num).length - (Nat.toDigits 10 v.den).length + 1

/-- The nearest multiple of `10 ^ e` that is rounded to the float, if one of the two neighbours of
the value is; its number of units. -/
def onGrid? (x : Binary) (e : Int) : Option Nat :=
  let v := (x.value x.quarters).mul (Fraction.scaled 1 10 (-e))
  let below := v.num / v.den
  let above := below + 1
  let fits (n : Nat) : Bool := 0 < n && x.covers (Fraction.scaled n 10 e)
  match fits below, fits above with
  | true, false => some below
  | false, true => some above
  | false, false => none
  | true, true =>
    let twice := 2 * (v.num % v.den)
    if twice < v.den then some below
    else if v.den < twice then some above
    else some (if below % 2 = 0 then below else above)

/-- The digits on the coarsest of so many grids, from `10 ^ e` downwards, that has a decimal for the
float. -/
def onCoarsest (x : Binary) : Nat → Int → Digits
  | 0, _ => ⟨[], 0⟩
  | grids + 1, e =>
    match x.onGrid? e with
    | some n =>
      let digits := Nat.toDigits 10 n
      ⟨digits, e + digits.length - 1⟩
    | none => x.onCoarsest grids (e - 1)

/-- The fewest digits that are rounded to the float. Seventeen digits always suffice, and the first
three grids may lie above the first digit. -/
def shortest (x : Binary) : Digits :=
  x.onCoarsest 21 x.ceiling

end Binary

/-- The digits without the zeros at their end. -/
def trimZeros (digits : List Char) : List Char :=
  (digits.reverse.dropWhile (· == '0')).reverse

/-- A power of ten as an exponent: a sign and at least two digits. -/
def exponentText (e : Int) : List Char :=
  let digits := Nat.toDigits 10 e.natAbs
  (if e < 0 then '-' else '+') :: (if digits.length < 2 then '0' :: digits else digits)

/-- The text of a positive decimal. From `0.00001` to below `10 ^ 16` the digits stand by their
place, with a fraction in every case; otherwise behind the first digit, with an exponent. -/
def positional (d : Digits) : List Char :=
  let digits := trimZeros d.digits
  if -5 ≤ d.exponent ∧ d.exponent < 0 then
    ['0', '.'] ++ List.replicate (d.exponent.natAbs - 1) '0' ++ digits
  else if 0 ≤ d.exponent ∧ d.exponent < 16 then
    let whole := d.exponent.toNat + 1
    let padded := digits ++ List.replicate (whole - digits.length) '0'
    let fraction := padded.drop whole
    padded.take whole ++ '.' :: (if fraction.isEmpty then ['0'] else fraction)
  else
    match digits with
    | [] => []
    | first :: rest =>
      first :: (if rest.isEmpty then [] else '.' :: rest) ++ 'e' :: exponentText d.exponent

/-- The text of a finite float. -/
def text (x : Float) : String :=
  let bits := x.toBits
  let sign := if bits.toNat < 0x8000000000000000 then [] else ['-']
  let magnitude := bits.toNat % 0x8000000000000000
  String.ofList <| sign ++
    if magnitude = 0 then ['0', '.', '0']
    else positional (Binary.ofBits magnitude.toUInt64).shortest

end ClassTidy.Decimal
