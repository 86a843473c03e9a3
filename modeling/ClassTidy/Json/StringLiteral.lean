import ClassTidy.Json.Reader

/-!
# String literals

The characters of a literal between its quotes. Escapes by code point stand for UTF-16 units: two of
them make a character beyond the basic plane, and neither may stand alone. Where the value of a
literal does not matter, only the form of its escapes is looked at.
-/

namespace ClassTidy.Json

/-- The value of a hexadecimal digit. -/
def hexDigit? (c : Char) : Option Nat :=
  if '0' ≤ c ∧ c ≤ '9' then some (c.toNat - '0'.toNat)
  else if 'a' ≤ c ∧ c ≤ 'f' then some (c.toNat - 'a'.toNat + 10)
  else if 'A' ≤ c ∧ c ≤ 'F' then some (c.toNat - 'A'.toNat + 10)
  else none

/-- The number that a list of hexadecimal digits denotes. -/
def hexValue? (digits : List Char) : Option Nat :=
  digits.foldl (fun n? c => n?.bind fun n => (hexDigit? c).map (16 * n + ·)) (some 0)

/-- Reads four hexadecimal digits. A text of less than four bytes is read to its end, and of a
longer one four bytes are. -/
def hexFour (cs : List Char) : Reading Nat :=
  if byteLength (cs.take 4) < 4 then .error (.here .endInString [])
  else match (cs.take 4).length, hexValue? (cs.take 4) with
    | 4, some n => .ok (n, cs.drop 4)
    | _, _ => .error ⟨.badEscape, byteLength cs - 4⟩

theorem length_lt_of_hexFour {cs rest : List Char} {n : Nat} (h : hexFour cs = .ok (n, rest)) :
    rest.length < cs.length := by
  unfold hexFour at h
  split at h
  · cases h
  · split at h
    · next hlen _ => cases h; simp only [List.length_take, List.length_drop] at hlen ⊢; omega
    · cases h

/-- Whether the number is the first unit of a surrogate pair. -/
def isLeading (n : Nat) : Bool := 0xD800 ≤ n && n ≤ 0xDBFF

/-- Whether the number is the second unit of a surrogate pair. -/
def isTrailing (n : Nat) : Bool := 0xDC00 ≤ n && n ≤ 0xDFFF

/-- The character that a surrogate pair stands for. -/
def pairChar (first second : Nat) : Char :=
  Char.ofNat (0x10000 + (first - 0xD800) * 0x400 + (second - 0xDC00))

/-- Takes the backslash and the letter off that begin an escape by code point. -/
def unitMark (cs : List Char) : Except Fault (List Char) :=
  match cs with
  | [] => .error (.here .endInString [])
  | [c] => .error (if c = '\\' then .here .endInString [] else .next .unfinishedPair cs)
  | c :: u :: digits =>
    if c = '\\' then
      if u = 'u' then .ok digits else .error (.next .unfinishedPair (u :: digits))
    else .error (.next .unfinishedPair cs)

theorem length_lt_of_unitMark {cs rest : List Char} (h : unitMark cs = .ok rest) :
    rest.length < cs.length := by
  unfold unitMark at h
  split at h
  · cases h
  · cases h
  · split at h
    · split at h
      · cases h; simp only [List.length_cons]; omega
      · cases h
    · cases h

/-- Reads the second half of a surrogate pair, an escape of its own. -/
def secondHalf (first : Nat) (cs : List Char) : Reading Char :=
  match unitMark cs with
  | .error e => .error e
  | .ok digits =>
    match hexFour digits with
    | .error e => .error e
    | .ok (second, rest) =>
      if isTrailing second then .ok (pairChar first second, rest)
      else .error (.here .loneSurrogate rest)

theorem length_lt_of_secondHalf {first : Nat} {cs rest : List Char} {c : Char}
    (h : secondHalf first cs = .ok (c, rest)) : rest.length < cs.length := by
  unfold secondHalf at h
  split at h
  · cases h
  · next hm =>
    split at h
    · cases h
    · next hx =>
      split at h
      · obtain ⟨-, rfl⟩ := Prod.mk.inj (Except.ok.inj h)
        exact Nat.lt_trans (length_lt_of_hexFour hx) (length_lt_of_unitMark hm)
      · cases h

/-- Reads the digits of an escape by code point, and the escape behind it if the two make a pair. -/
def codePoint (cs : List Char) : Reading Char :=
  match hexFour cs with
  | .error e => .error e
  | .ok (n, rest) =>
    if isTrailing n then .error (.here .loneSurrogate rest)
    else if isLeading n then secondHalf n rest
    else .ok (Char.ofNat n, rest)

theorem length_lt_of_codePoint {cs rest : List Char} {c : Char}
    (h : codePoint cs = .ok (c, rest)) : rest.length < cs.length := by
  unfold codePoint at h
  split at h
  · cases h
  · next hx =>
    have := length_lt_of_hexFour hx
    split at h
    · cases h
    · split at h
      · exact Nat.lt_trans (length_lt_of_secondHalf h) this
      · cases h; exact this

/-- The character that a letter behind a backslash stands for. -/
def shortEscape? (c : Char) : Option Char :=
  if c = '"' ∨ c = '\\' ∨ c = '/' then some c
  else if c = 'b' then some '\x08'
  else if c = 'f' then some '\x0C'
  else if c = 'n' then some '\n'
  else if c = 'r' then some '\r'
  else if c = 't' then some '\t'
  else none

/-- Reads an escape from behind its backslash. -/
def escape (cs : List Char) : Reading Char :=
  match cs with
  | [] => .error (.here .endInString [])
  | c :: rest =>
    if c = 'u' then codePoint rest
    else match shortEscape? c with
      | some d => .ok (d, rest)
      | none => .error (.next .badEscape cs)

theorem length_lt_of_escape {cs rest : List Char} {c : Char} (h : escape cs = .ok (c, rest)) :
    rest.length < cs.length := by
  unfold escape at h
  split at h
  · cases h
  · split at h
    · exact Nat.lt_succ_of_lt (length_lt_of_codePoint h)
    · split at h
      · cases h; exact Nat.lt_succ_self _
      · cases h

/-- Whether the character may not stand in a literal as it is. -/
def isControl (c : Char) : Bool := c.toNat < 0x20

/-- Reads a literal from behind its opening quote. -/
def literal (cs : List Char) : Reading (List Char) :=
  match cs with
  | [] => .error (.here .endInString [])
  | c :: rest =>
    if c = '"' then .ok ([], rest)
    else if c = '\\' then
      match _h : escape rest with
      | .error e => .error e
      | .ok (d, rest') =>
        match literal rest' with
        | .ok (ds, rest'') => .ok (d :: ds, rest'')
        | .error e => .error e
    else if isControl c then .error (.here .controlCharacter rest)
    else
      match literal rest with
      | .ok (ds, rest') => .ok (c :: ds, rest')
      | .error e => .error e
  termination_by cs.length
  decreasing_by
    · have := length_lt_of_escape _h
      simp only [List.length_cons]
      omega
    · simp

theorem length_lt_of_literal {cs ds rest : List Char} (h : literal cs = .ok (ds, rest)) :
    rest.length < cs.length := by
  fun_induction literal cs generalizing ds with
  | case1 => cases h
  | case2 => cases h; exact Nat.lt_succ_self _
  | case3 => cases h
  | case4 rest' d r he ds' r' hl _ ih =>
    cases h
    have := ih hl
    have := length_lt_of_escape he
    simp only [List.length_cons]
    omega
  | case5 => cases h
  | case6 => cases h
  | case7 c rest' hq hb hc ds' r' hl ih =>
    cases h
    have := ih hl
    simp only [List.length_cons]
    omega
  | case8 => cases h

/-- Passes over an escape from behind its backslash. Surrogates are not looked at. -/
def skipEscape (cs : List Char) : Except Fault (List Char) :=
  match cs with
  | [] => .error (.here .endInString [])
  | c :: rest =>
    if c = 'u' then (hexFour rest).map Prod.snd
    else if (shortEscape? c).isSome then .ok rest
    else .error (.next .badEscape cs)

theorem length_lt_of_skipEscape {cs rest : List Char} (h : skipEscape cs = .ok rest) :
    rest.length < cs.length := by
  unfold skipEscape at h
  split at h
  · cases h
  · next c cs' =>
    split at h
    · cases hx : hexFour cs' with
      | error e => rw [hx] at h; cases h
      | ok p =>
        rw [hx] at h
        cases h
        exact Nat.lt_succ_of_lt (length_lt_of_hexFour hx)
    · split at h
      · cases h; exact Nat.lt_succ_self _
      · cases h

/-- Passes over a literal from behind its opening quote. -/
def skipLiteral (cs : List Char) : Except Fault (List Char) :=
  match cs with
  | [] => .error (.here .endInString [])
  | c :: rest =>
    if c = '"' then .ok rest
    else if c = '\\' then
      match _h : skipEscape rest with
      | .error e => .error e
      | .ok rest' => skipLiteral rest'
    else if isControl c then .error (.here .controlCharacter cs)
    else skipLiteral rest
  termination_by cs.length
  decreasing_by
    · have := length_lt_of_skipEscape _h
      simp only [List.length_cons]
      omega
    · simp

theorem length_lt_of_skipLiteral {cs rest : List Char} (h : skipLiteral cs = .ok rest) :
    rest.length < cs.length := by
  fun_induction skipLiteral cs with
  | case1 => cases h
  | case2 => cases h; exact Nat.lt_succ_self _
  | case3 => cases h
  | case4 rest' r he _ ih =>
    have := ih h
    have := length_lt_of_skipEscape he
    simp only [List.length_cons]
    omega
  | case5 => cases h
  | case6 c rest' hq hb hc ih => exact Nat.lt_succ_of_lt (ih h)

end ClassTidy.Json
