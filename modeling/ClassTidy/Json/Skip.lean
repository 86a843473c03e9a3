import ClassTidy.Json.Numeral
import ClassTidy.Json.StringLiteral

/-!
# Passing over a value

A value that is not wanted is passed over: only its form is looked at. The brackets that are open
are kept in a list, so that the depth of a value does not matter.
-/

namespace ClassTidy.Json

/-- Passes over a member's key and its colon. -/
def skipKey (cs : List Char) : Except Fault (List Char) :=
  match skipBlank cs with
  | [] => .error (.here (.endIn .object) [])
  | c :: rest =>
    if c = '"' then
      match skipLiteral rest with
      | .error e => .error e
      | .ok rest' => colon rest'
    else .error (.next .badKey (c :: rest))

/-- From behind a complete value to the place of the next one: closes brackets until a comma comes.
Gives the brackets still open there, none if the outermost value is complete. -/
def closeBrackets : List Bracket → List Char → Reading (List Bracket)
  | [], cs => .ok ([], cs)
  | b :: outer, cs =>
    match skipBlank cs with
    | [] => .error (.here (.endIn b) [])
    | c :: rest =>
      if c = ',' then
        match b with
        | .array => .ok (.array :: outer, rest)
        | .object =>
          match skipKey rest with
          | .error e => .error e
          | .ok rest' => .ok (.object :: outer, rest')
      else if c = b.closer then closeBrackets outer rest
      else .error (.next (.noComma b) (c :: rest))

/-- From behind an opening bracket to the place of the next value. -/
def openBracket (b : Bracket) (outer : List Bracket) (cs : List Char) : Reading (List Bracket) :=
  match skipBlank cs with
  | [] => .error (.here (.endIn b) [])
  | c :: rest =>
    if c = b.closer then closeBrackets outer rest
    else match b with
      | .array => .ok (.array :: outer, c :: rest)
      | .object =>
        match skipKey (c :: rest) with
        | .error e => .error e
        | .ok rest' => .ok (.object :: outer, rest')

/-- Passes over a value that is neither array nor object, from its first character. -/
def skipScalar (cs : List Char) : Except Fault (List Char) :=
  match cs with
  | [] => .error (.here .endInValue [])
  | c :: rest =>
    if c = 'n' then word ['u', 'l', 'l'] rest
    else if c = 't' then word ['r', 'u', 'e'] rest
    else if c = 'f' then word ['a', 'l', 's', 'e'] rest
    else if c = '"' then skipLiteral rest
    else if c = '-' ∨ c.isDigit then (numeral .badNumeral cs).map Prod.snd
    else .error (.next .noValue cs)

/-- From the place of a value to the place of the next one, as `closeBrackets` does. -/
def skipStep (outer : List Bracket) (cs : List Char) : Reading (List Bracket) :=
  match skipBlank cs with
  | [] => .error (.here .endInValue [])
  | c :: rest =>
    if c = '[' then openBracket .array outer rest
    else if c = '{' then openBracket .object outer rest
    else match skipScalar (c :: rest) with
      | .error e => .error e
      | .ok rest' => closeBrackets outer rest'

/-! ## Every step goes forward -/

theorem length_lt_of_skipKey {cs rest : List Char} (h : skipKey cs = .ok rest) :
    rest.length < cs.length := by
  unfold skipKey at h
  split at h
  · cases h
  · next hb =>
    split at h
    · split at h
      · cases h
      · next hl =>
        have h₁ := length_lt_of_colon h
        have h₂ := length_lt_of_skipLiteral hl
        have h₃ := length_lt_of_skipBlank hb
        omega
    · cases h

theorem length_le_of_closeBrackets {bs bs' : List Bracket} {cs rest : List Char}
    (h : closeBrackets bs cs = .ok (bs', rest)) : rest.length ≤ cs.length := by
  induction bs generalizing cs with
  | nil => cases h; exact Nat.le_refl _
  | cons b outer ih =>
    rw [closeBrackets] at h
    split at h
    · cases h
    · next hb =>
      have h₁ := length_lt_of_skipBlank hb
      split at h
      · split at h
        · cases h; omega
        · split at h
          · cases h
          · next hk => cases h; have := length_lt_of_skipKey hk; omega
      · split at h
        · have := ih h; omega
        · cases h

theorem length_le_of_openBracket {b : Bracket} {outer bs' : List Bracket} {cs rest : List Char}
    (h : openBracket b outer cs = .ok (bs', rest)) : rest.length ≤ cs.length := by
  unfold openBracket at h
  split at h
  · cases h
  · next hb =>
    have h₁ := length_lt_of_skipBlank hb
    split at h
    · have := length_le_of_closeBrackets h; omega
    · split at h
      · cases h; simp only [List.length_cons]; omega
      · split at h
        · cases h
        · next hk =>
          cases h
          have := length_lt_of_skipKey hk
          simp only [List.length_cons] at this
          omega

theorem length_lt_of_skipScalar {cs rest : List Char} (h : skipScalar cs = .ok rest) :
    rest.length < cs.length := by
  unfold skipScalar at h
  split at h
  · cases h
  · next c r =>
    split at h
    · exact Nat.lt_succ_of_le (length_word_le h)
    · split at h
      · exact Nat.lt_succ_of_le (length_word_le h)
      · split at h
        · exact Nat.lt_succ_of_le (length_word_le h)
        · split at h
          · exact Nat.lt_succ_of_lt (length_lt_of_skipLiteral h)
          · split at h
            · cases hn : numeral .badNumeral (c :: r) with
              | error e => rw [hn] at h; cases h
              | ok p => rw [hn] at h; cases h; exact length_lt_of_numeral hn
            · cases h

theorem length_lt_of_skipStep {outer bs' : List Bracket} {cs rest : List Char}
    (h : skipStep outer cs = .ok (bs', rest)) : rest.length < cs.length := by
  unfold skipStep at h
  split at h
  · cases h
  · next hb =>
    have h₁ := length_lt_of_skipBlank hb
    split at h
    · have := length_le_of_openBracket h; omega
    · split at h
      · have := length_le_of_openBracket h; omega
      · split at h
        · cases h
        · next hs =>
          have h₂ := length_lt_of_skipScalar hs
          have h₃ := length_le_of_closeBrackets h
          simp only [List.length_cons] at h₂
          omega

/-- Passes over a value and what completes the brackets that are open around it. -/
def skipWithin (outer : List Bracket) (cs : List Char) : Except Fault (List Char) :=
  match _h : skipStep outer cs with
  | .error e => .error e
  | .ok ([], rest) => .ok rest
  | .ok (b :: outer', rest) => skipWithin (b :: outer') rest
  termination_by cs.length
  decreasing_by exact length_lt_of_skipStep _h

theorem length_lt_of_skipWithin {outer : List Bracket} {cs rest : List Char}
    (h : skipWithin outer cs = .ok rest) : rest.length < cs.length := by
  fun_induction skipWithin outer cs with
  | case1 => cases h
  | case2 outer cs rest' hs => cases h; exact length_lt_of_skipStep hs
  | case3 outer cs b outer' rest' hs ih =>
    exact Nat.lt_trans (ih h) (length_lt_of_skipStep hs)

/-- Passes over one value. -/
def skipValue (cs : List Char) : Except Fault (List Char) :=
  skipWithin [] cs

end ClassTidy.Json
