import ClassTidy.Json.Skip
import ClassTidy.Json.Values

/-!
# Records

A record is written as an object whose keys are the names of its fields, in any order, or as an
array of its fields in their own order. Fields that are left out keep what they had at the start.
Members with other keys are passed over; a field may not be given twice.
-/

namespace ClassTidy.Json

/-- Passes over a value. -/
def Reader.skipped : Reader Unit where
  read cs :=
    match skipValue cs with
    | .error e => .error e
    | .ok rest => .ok ((), rest)
  length_lt {cs u rest} h := by
    split at h
    · cases h
    · next hs => cases h; exact length_lt_of_skipWithin hs

/-- A field of a record: its name, and a reader for what its value does to the record. -/
structure Field (σ : Type) where
  name : String
  /-- Reads a value and gives the change that it makes. -/
  change : Reader (σ → σ)

namespace Field

variable {σ : Type}

/-- The fault of a field that is given again, in the text behind its name. A brace that closes the
record is passed over before the place is taken. -/
def repeated (name : String) (cs : List Char) : Fault :=
  let rest := skipBlank cs
  .here (.repeatedField name) (if rest.head? = some '}' then rest.drop 1 else rest)

/-- Reads the member with the given key into a record, of which the names already given are kept. -/
def member (fields : List (Field σ)) (s : List String × σ) (key : String) :
    Reader (List String × σ) :=
  match fields.find? (·.name == key) with
  | none => Reader.skipped.afterColon.map fun _ => s
  | some f =>
    if key ∈ s.1 then .fail (repeated key)
    else f.change.afterColon.map fun change => (key :: s.1, change s.2)

/-- Reads an array of fields from behind one of its elements, with the fields to come. -/
def elements : List (Field σ) → σ → List Char → Reading σ
  | [], s, cs =>
    match skipBlank cs with
    | [] => .error (.here (.endIn .array) [])
    | c :: rest =>
      if c = ']' then .ok (s, rest)
      else if c = ',' then
        -- All fields have been read: a comma is looked behind, but no element may follow it.
        match afterComma .array rest with
        | .error e => .error e
        | .ok rest' => .error (.next .trailingText rest')
      else .error (.next .trailingText (c :: rest))
  | f :: fields, s, cs =>
    match skipBlank cs with
    | [] => .error (.here (.endIn .array) [])
    | c :: rest =>
      if c = ']' then .ok (s, rest)
      else if c = ',' then
        match afterComma .array rest with
        | .error e => .error e
        | .ok rest' =>
          match f.change.read rest' with
          | .error e => .error e
          | .ok (change, rest'') => elements fields (change s) rest''
      else .error (.next (.noComma .array) (c :: rest))

theorem length_lt_of_elements {fields : List (Field σ)} {s s' : σ} {cs rest : List Char}
    (h : elements fields s cs = .ok (s', rest)) : rest.length < cs.length := by
  induction fields generalizing s cs with
  | nil =>
    rw [elements] at h
    split at h
    · cases h
    · next hb =>
      split at h
      · cases h; exact length_lt_of_skipBlank hb
      · split at h
        · split at h <;> cases h
        · cases h
  | cons f fields ih =>
    rw [elements] at h
    split at h
    · cases h
    · next hb =>
      have h₁ := length_lt_of_skipBlank hb
      split at h
      · cases h; exact h₁
      · split at h
        · split at h
          · cases h
          · next hc =>
            have h₂ := length_le_of_afterComma hc
            split at h
            · cases h
            · next hf =>
              have h₃ := f.change.length_lt hf
              have h₄ := ih h
              omega
        · cases h

/-- Reads an array of fields from behind its opening bracket. -/
def array (fields : List (Field σ)) (s : σ) (cs : List Char) : Reading σ :=
  match skipBlank cs, fields with
  | [], _ => .error (.here (.endIn .array) [])
  | c :: rest, [] =>
    if c = ']' then .ok (s, rest) else .error (.next .trailingText (c :: rest))
  | c :: rest, f :: fields =>
    if c = ']' then .ok (s, rest)
    else match f.change.read (c :: rest) with
      | .error e => .error e
      | .ok (change, rest') => elements fields (change s) rest'

theorem length_lt_of_array {fields : List (Field σ)} {s s' : σ} {cs rest : List Char}
    (h : array fields s cs = .ok (s', rest)) : rest.length < cs.length := by
  unfold array at h
  split at h
  · cases h
  · next hb =>
    split at h
    · cases h; exact length_lt_of_skipBlank hb
    · cases h
  · next hb =>
    have h₁ := length_lt_of_skipBlank hb
    split at h
    · cases h; exact h₁
    · split at h
      · cases h
      · next hf =>
        have h₂ := Reader.length_lt _ hf
        have h₃ := length_lt_of_elements h
        simp only [List.length_cons] at h₂
        omega

end Field

/-- Reads a record whose fields are those of `start` where nothing else is given. -/
def Reader.record {σ : Type} (wanted : String) (fields : List (Field σ)) (start : σ) :
    Reader σ where
  read cs :=
    match skipBlank cs with
    | '[' :: rest => Field.array fields start rest
    | rest => (object.map Prod.snd).read rest
  length_lt {cs s rest} h := by
    split at h
    · next hb => exact Nat.lt_trans (Field.length_lt_of_array h) (length_lt_of_skipBlank hb)
    · exact Nat.lt_of_lt_of_le (Reader.length_lt _ h) (length_skipBlank_le cs)
where
  /-- Reads the record as an object. -/
  object : Reader (List String × σ) :=
    .bracketed .object wanted (fun s => .member (Field.member fields s)) ([], start)

end ClassTidy.Json
