import ClassTidy.Json.Numeral
import ClassTidy.Json.StringLiteral
import ClassTidy.OrderedMap

/-!
# Readers for values of a wanted kind

Each reader passes over blanks first. A value of another kind is a fault behind that value, or in
front of it if it is an array or an object.
-/

namespace ClassTidy.Json

/-- The fault of a value, with which the text begins, that is of another kind than wanted. A value
that is malformed has its own fault. -/
def wrongKind (wanted : String) (cs : List Char) : Fault :=
  match cs with
  | [] => .here .endInValue []
  | c :: rest =>
    if c = '[' then .here (.wrongKind .array wanted) cs
    else if c = '{' then .here (.wrongKind .object wanted) cs
    else if c = 'n' then ofWord ['u', 'l', 'l'] .null rest
    else if c = 't' then ofWord ['r', 'u', 'e'] (.bool true) rest
    else if c = 'f' then ofWord ['a', 'l', 's', 'e'] (.bool false) rest
    else if c = '"' then
      match literal rest with
      | .error e => e
      | .ok (s, behind) => .here (.wrongKind (.string (.ofList s)) wanted) behind
    else if c = '-' ∨ c.isDigit then
      match number cs with
      | .error e => e
      | .ok (.integer n, behind) => .here (.wrongKind (.integer n) wanted) behind
      | .ok (.float x, behind) => .here (.wrongKind (.float x) wanted) behind
    else .next .noValue cs
where
  /-- The fault of a word, or what is wrong with the word itself. -/
  ofWord (letters : List Char) (found : Found) (rest : List Char) : Fault :=
    match word letters rest with
    | .error e => e
    | .ok behind => .here (.wrongKind found wanted) behind

/-- The text behind a comma, which a closing bracket must not follow. -/
def afterComma (b : Bracket) (cs : List Char) : Except Fault (List Char) :=
  if (skipBlank cs).head? = some b.closer then .error (.next .trailingComma (skipBlank cs))
  else .ok (skipBlank cs)

theorem length_le_of_afterComma {b : Bracket} {cs rest : List Char}
    (h : afterComma b cs = .ok rest) : rest.length ≤ cs.length := by
  unfold afterComma at h
  split at h
  · cases h
  · cases h; exact length_skipBlank_le cs

/-- Reads items between commas up to the closing bracket. Each item is read into what the items
before it have made. -/
def series {σ : Type} (b : Bracket) (item : σ → Reader σ) (s : σ) (cs : List Char) : Reading σ :=
  match _h : (item s).read cs with
  | .error e => .error e
  | .ok (s', rest) =>
    match _hb : skipBlank rest with
    | [] => .error (.here (.endIn b) [])
    | c :: rest' =>
      if c = b.closer then .ok (s', rest')
      else if c = ',' then
        match _hc : afterComma b rest' with
        | .error e => .error e
        | .ok rest'' => series b item s' rest''
      else .error (.next (.noComma b) (c :: rest'))
  termination_by cs.length
  decreasing_by
    have h₁ := (item s).length_lt _h
    have h₂ := length_lt_of_skipBlank _hb
    have h₃ := length_le_of_afterComma _hc
    omega

theorem length_lt_of_series {σ : Type} {b : Bracket} {item : σ → Reader σ} {s s' : σ}
    {cs rest : List Char} (h : series b item s cs = .ok (s', rest)) : rest.length < cs.length := by
  fun_induction series b item s cs with
  | case1 => cases h
  | case2 => cases h
  | case3 s cs _ rest₁ hi r hb =>
    cases h
    have := (item s).length_lt hi
    have := length_lt_of_skipBlank hb
    omega
  | case4 => cases h
  | case5 s cs _ rest₁ hi r r' hc hb _ ih =>
    have := ih h
    have := (item s).length_lt hi
    have := length_lt_of_skipBlank hb
    have := length_le_of_afterComma hc
    omega
  | case6 => cases h

namespace Bracket

def opener : Bracket → Char
  | array => '['
  | object => '{'

end Bracket

/-- The value of a series in brackets, or `start` if the brackets hold nothing. -/
def enclosed {σ : Type} (b : Bracket) (wanted : String) (item : σ → Reader σ) (start : σ)
    (cs : List Char) : Reading σ :=
  match skipBlank cs with
  | [] => .error (.here .endInValue [])
  | c :: rest =>
    if c = b.opener then
      match skipBlank rest with
      | [] => .error (.here (.endIn b) [])
      | d :: rest' =>
        if d = b.closer then .ok (start, rest') else series b item start (d :: rest')
    else .error (wrongKind wanted (c :: rest))

theorem length_lt_of_enclosed {σ : Type} {b : Bracket} {wanted : String} {item : σ → Reader σ}
    {start s : σ} {cs rest : List Char} (h : enclosed b wanted item start cs = .ok (s, rest)) :
    rest.length < cs.length := by
  unfold enclosed at h
  split at h
  · cases h
  · next hb =>
    have h₁ := length_lt_of_skipBlank hb
    split at h
    · split at h
      · cases h
      · next hb' =>
        have h₂ := length_lt_of_skipBlank hb'
        split at h
        · cases h; omega
        · have := length_lt_of_series h
          simp only [List.length_cons] at this
          omega
    · cases h

namespace Reader

variable {α : Type}

/-- Reads what the brackets hold, starting from `start` when they hold nothing. -/
def bracketed {σ : Type} (b : Bracket) (wanted : String) (item : σ → Reader σ) (start : σ) :
    Reader σ where
  read := enclosed b wanted item start
  length_lt := length_lt_of_enclosed

def string (wanted : String) : Reader String where
  read cs :=
    match skipBlank cs with
    | [] => .error (.here .endInValue [])
    | c :: rest =>
      if c = '"' then
        match literal rest with
        | .error e => .error e
        | .ok (s, behind) => .ok (.ofList s, behind)
      else .error (wrongKind wanted (c :: rest))
  length_lt {cs s rest} h := by
    split at h
    · cases h
    · next hb =>
      have h₁ := length_lt_of_skipBlank hb
      split at h
      · split at h
        · cases h
        · next hl => cases h; have := length_lt_of_literal hl; omega
      · cases h

def list (item : Reader α) : Reader (List α) :=
  bracketed .array "a sequence" (fun l => item.map (l ++ [·])) []

/-- Reads a key, then what `value` makes of the rest for this key. -/
def member (value : String → Reader α) : Reader α where
  read cs :=
    match skipBlank cs with
    | [] => .error (.here .endInValue [])
    | c :: rest =>
      if c = '"' then
        match literal rest with
        | .error e => .error e
        | .ok (key, behind) => (value (.ofList key)).read behind
      else .error (.next .badKey (c :: rest))
  length_lt {cs s rest} h := by
    split at h
    · cases h
    · next hb =>
      have h₁ := length_lt_of_skipBlank hb
      split at h
      · split at h
        · cases h
        · next hl =>
          have h₂ := length_lt_of_literal hl
          have h₃ := (value _).length_lt h
          omega
      · cases h

/-- Reads an object as a map. A key that is given again keeps its place and takes the last value. -/
def orderedMap (value : Reader α) : Reader (OrderedMap String α) :=
  bracketed .object "a map"
    (fun m => member fun key => value.afterColon.map fun a => m.insert key a) ∅

/-- Reads a number that is an integer from zero to below `2^64`. -/
def natural (wanted : String) : Reader Nat where
  read cs :=
    match skipBlank cs with
    | [] => .error (.here .endInValue [])
    | c :: rest =>
      if c = '-' ∨ c.isDigit then
        match number (c :: rest) with
        | .error e => .error e
        | .ok (.integer n, behind) =>
          if 0 ≤ n then .ok (n.toNat, behind) else .error (.here (.negative n wanted) behind)
        | .ok (.float x, behind) => .error (.here (.wrongKind (.float x) wanted) behind)
      else .error (wrongKind wanted (c :: rest))
  length_lt {cs n rest} h := by
    split at h
    · cases h
    · next hb =>
      have h₁ := length_lt_of_skipBlank hb
      split at h
      · split at h
        · cases h
        · next hn =>
          split at h
          · cases h
            have := length_lt_of_number hn
            simp only [List.length_cons] at this
            omega
          · cases h
        · cases h
      · cases h

def null (wanted : String) : Reader Unit where
  read cs :=
    match skipBlank cs with
    | [] => .error (.here .endInValue [])
    | c :: rest =>
      if c = 'n' then
        match word ['u', 'l', 'l'] rest with
        | .error e => .error e
        | .ok behind => .ok ((), behind)
      else .error (wrongKind wanted (c :: rest))
  length_lt {cs u rest} h := by
    split at h
    · cases h
    · next hb =>
      have h₁ := length_lt_of_skipBlank hb
      split at h
      · split at h
        · cases h
        · next hw => cases h; have := length_word_le hw; omega
      · cases h

/-- Reads the end of an object that may hold no further member. -/
def lastBrace : Reader Unit where
  read cs :=
    match skipBlank cs with
    | [] => .error (.here (.endIn .object) [])
    | c :: rest => if c = '}' then .ok ((), rest) else .error (.here .noValue (c :: rest))
  length_lt {cs u rest} h := by
    split at h
    · cases h
    · next hb =>
      split at h
      · cases h; exact length_lt_of_skipBlank hb
      · cases h

/-- Reads one value and then another, of which the first is kept. -/
def andThen {β : Type} (r : Reader α) (r' : Reader β) : Reader α where
  read cs :=
    match r.read cs with
    | .error e => .error e
    | .ok (a, rest) =>
      match r'.read rest with
      | .error e => .error e
      | .ok (_, rest') => .ok (a, rest')
  length_lt {cs a rest} h := by
    split at h
    · cases h
    · next hr =>
      split at h
      · cases h
      · next hr' =>
        cases h
        exact Nat.lt_trans (r'.length_lt hr') (r.length_lt hr)

/-- Reads one of several choices by its name: the name as a string, or an object that has the name
for its only key and `null` for its value. -/
def choice (ofName : String → α) : Reader α where
  read cs :=
    match skipBlank cs with
    | [] => .error (.here .endInValue [])
    | c :: rest =>
      if c = '"' then ((string "a string").map ofName).read (c :: rest)
      else if c = '{' then
        match skipBlank rest with
        | [] => .error (.here (.endIn .object) [])
        | d :: rest' =>
          if d = '}' then .error (.next .noValue (d :: rest')) else named.read (d :: rest')
      else .error (.next .noValue (c :: rest))
  length_lt {cs a rest} h := by
    split at h
    · cases h
    · next hb =>
      have h₁ := length_lt_of_skipBlank hb
      split at h
      · have := Reader.length_lt _ h
        simp only [List.length_cons] at this
        omega
      · split at h
        · split at h
          · cases h
          · next hb' =>
            have h₂ := length_lt_of_skipBlank hb'
            split at h
            · cases h
            · have := Reader.length_lt _ h
              simp only [List.length_cons] at this
              omega
        · cases h
where
  /-- Reads the only member of an object, and the brace that closes it. -/
  named : Reader α :=
    (member fun name => (null "unit").afterColon.map fun _ => ofName name).andThen lastBrace

end Reader

end ClassTidy.Json
