import ClassTidy.Json.Fault

/-!
# Readers

A reader takes a value off the front of a text and gives it with the rest. It takes at least one
character, which is what lets lists of values be read by recursion on the length of the text.
-/

namespace ClassTidy.Json

/-- The outcome of reading: a value and the rest of the text, or a fault. -/
abbrev Reading (α : Type) := Except Fault (α × List Char)

/-- A way to read values. -/
structure Reader (α : Type) where
  /-- Takes a value off the front of the text. -/
  read : List Char → Reading α
  /-- The rest is shorter than the text. -/
  length_lt : ∀ {cs a rest}, read cs = .ok (a, rest) → rest.length < cs.length

/-- The blanks of JSON: space, tab, line feed and carriage return. -/
def isBlank (c : Char) : Bool :=
  c = ' ' || c = '\t' || c = '\n' || c = '\r'

/-- The text from its first character that is no blank. -/
def skipBlank (cs : List Char) : List Char :=
  cs.dropWhile isBlank

theorem length_skipBlank_le (cs : List Char) : (skipBlank cs).length ≤ cs.length :=
  (List.dropWhile_sublist _).length_le

theorem length_lt_of_skipBlank {cs rest : List Char} {c : Char} (h : skipBlank cs = c :: rest) :
    rest.length < cs.length := by
  have := length_skipBlank_le cs
  rw [h, List.length_cons] at this
  omega

/-- Takes the given characters off the front, the rest of a word such as `null`. -/
def word : List Char → List Char → Except Fault (List Char)
  | [], cs => .ok cs
  | _ :: _, [] => .error (.here .endInValue [])
  | w :: ws, c :: cs => if w = c then word ws cs else .error (.next .badWord (c :: cs))

theorem length_word_le {ws cs rest : List Char} (h : word ws cs = .ok rest) :
    rest.length ≤ cs.length := by
  induction ws generalizing cs with
  | nil => cases h; exact Nat.le_refl _
  | cons w ws ih =>
    cases cs with
    | nil => cases h
    | cons c cs =>
      rw [word] at h
      split at h
      · exact Nat.le_succ_of_le (ih h)
      · cases h

/-- Takes the colon behind a key off the front. -/
def colon (cs : List Char) : Except Fault (List Char) :=
  match skipBlank cs with
  | [] => .error (.here (.endIn .object) [])
  | c :: rest => if c = ':' then .ok rest else .error (.next .noColon (c :: rest))

theorem length_lt_of_colon {cs rest : List Char} (h : colon cs = .ok rest) :
    rest.length < cs.length := by
  unfold colon at h
  split at h
  · cases h
  · next c r hc =>
    split at h
    · cases h; exact length_lt_of_skipBlank hc
    · cases h

namespace Reader

variable {α β : Type}

/-- Reads a value and turns it into another. -/
def map (f : α → β) (r : Reader α) : Reader β where
  read cs :=
    match r.read cs with
    | .ok (a, rest) => .ok (f a, rest)
    | .error e => .error e
  length_lt {cs b rest} h := by
    split at h
    · next a rest' ha => cases h; exact r.length_lt ha
    · cases h

/-- Fails in the same way on every text. -/
def fail (fault : List Char → Fault) : Reader α where
  read cs := .error (fault cs)
  length_lt h := by cases h

/-- Reads the colon behind a key, then the value. -/
def afterColon (r : Reader α) : Reader α where
  read cs :=
    match colon cs with
    | .ok rest => r.read rest
    | .error e => .error e
  length_lt {cs a rest} h := by
    split at h
    · next rest' hc => exact Nat.lt_trans (r.length_lt h) (length_lt_of_colon hc)
    · cases h

/-- Reads a text that holds one value and otherwise blanks. -/
def ofText (r : Reader α) (text : String) : Except Defect α :=
  match r.read text.toList with
  | .error e => .error (.ofFault text e)
  | .ok (a, rest) =>
    match skipBlank rest with
    | [] => .ok a
    | c :: rest' => .error (.ofFault text (.next .trailingText (c :: rest')))

end Reader

end ClassTidy.Json
