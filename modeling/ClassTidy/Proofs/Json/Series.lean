import ClassTidy.Json.Values
import ClassTidy.Proofs.Json.Numerals

/-!
# Series in brackets

A series is read and passed over entry by entry, up to the bracket that closes it. So an entry must
not begin with that bracket (`StartsEntry`), and no value does:

> `WellFormed.startsEntry`: how the texts of values begin.

What a series makes of its first item decides how it goes on (`series_eq`).
-/

namespace ClassTidy.Json

namespace Bracket

theorem endsNumeral_closer (b : Bracket) (rest : List Char) : EndsNumeral (b.closer :: rest) := by
  cases b with
  | array => exact endsNumeral_cons (by decide) rest
  | object => exact endsNumeral_cons (by decide) rest

@[simp] theorem isBlank_opener (b : Bracket) : isBlank b.opener = false := by
  cases b <;> rfl

@[simp] theorem isBlank_closer (b : Bracket) : isBlank b.closer = false := by
  cases b <;> rfl

theorem comma_ne_closer (b : Bracket) : ',' ≠ b.closer := by
  cases b <;> decide

theorem opener_ne (b : Bracket) : b.opener ≠ ']' ∧ b.opener ≠ '}' := by
  cases b <;> decide

/-- What starts an entry is no closing bracket. -/
theorem closer_ne {b : Bracket} {c : Char} (hc : c ≠ ']' ∧ c ≠ '}') : c ≠ b.closer := by
  cases b with
  | array => exact hc.1
  | object => exact hc.2

end Bracket

/-! ## How entries begin -/

/-- Behind blanks, the text begins with a character that closes no bracket. -/
def StartsEntry (text : List Char) : Prop :=
  ∃ c cs, skipBlank text = c :: cs ∧ c ≠ ']' ∧ c ≠ '}'

theorem startsEntry_cons {c : Char} (hblank : isBlank c = false) (hc : c ≠ ']' ∧ c ≠ '}')
    (cs : List Char) : StartsEntry (c :: cs) :=
  ⟨c, cs, skipBlank_cons hblank cs, hc⟩

theorem StartsEntry.append {text : List Char} (h : StartsEntry text) (rest : List Char) :
    StartsEntry (text ++ rest) := by
  obtain ⟨c, cs, hcs, hc⟩ := h
  exact ⟨c, cs ++ rest, skipBlank_append_cons hcs rest, hc⟩

theorem StartsEntry.behindBlanks {lead text : List Char} (hlead : Blanks lead)
    (h : StartsEntry text) : StartsEntry (lead ++ text) := by
  rw [StartsEntry, skipBlank_append hlead]
  exact h

theorem startsEntry_of_isKey {key : List Char} (h : IsKey key) (rest : List Char) :
    StartsEntry (key ++ rest) := by
  obtain ⟨lead, body, trail, hlead, _, _, rfl⟩ := h
  exact ((startsEntry_cons rfl (by decide) _).behindBlanks hlead).append rest

/-- A digit is no blank and closes no bracket. -/
theorem not_special_of_isDigit {c : Char} (h : c.isDigit = true) :
    isBlank c = false ∧ c ≠ ']' ∧ c ≠ '}' := by
  have hne : ∀ {d : Char}, d.isDigit = false → c ≠ d := by
    intro d hd hcd
    rw [hcd, hd] at h
    cases h
  refine ⟨?_, hne rfl, hne rfl⟩
  simp only [isBlank, Bool.or_eq_false_iff, decide_eq_false_iff_not]
  exact ⟨⟨⟨hne rfl, hne rfl⟩, hne rfl⟩, hne rfl⟩

/-- A numeral begins with a minus sign or a digit. -/
theorem Numeral.SpelledBy.exists_cons {x : Numeral} {text : List Char} (h : x.SpelledBy text) :
    ∃ c cs, text = c :: cs ∧ (c = '-' ∨ c.isDigit = true) := by
  obtain ⟨fraction, exponent, hwhole, _, _, rfl⟩ := h
  cases x.negative with
  | true => exact ⟨'-', _, rfl, Or.inl rfl⟩
  | false =>
    obtain ⟨d, ds, hds⟩ := List.exists_cons_of_ne_nil hwhole.ne_nil
    rw [hds]
    exact ⟨d, _, rfl, Or.inr (hwhole.isDigit d (hds ▸ List.mem_cons_self ..))⟩

/-- **No value begins with a closing bracket.** -/
theorem WellFormed.startsEntry {text : List Char} (h : WellFormed text) : StartsEntry text := by
  have hbracket : ∀ (b : Bracket) (cs : List Char), StartsEntry (b.opener :: cs) := fun b cs =>
    startsEntry_cons b.isBlank_opener b.opener_ne cs
  induction h with
  | word hword =>
    simp only [valueWords, List.mem_cons, List.not_mem_nil, or_false] at hword
    rcases hword with rfl | rfl | rfl
    all_goals exact startsEntry_cons rfl (by decide) _
  | number hnumber =>
    obtain ⟨c, cs, rfl, hc⟩ := hnumber.exists_cons
    rcases hc with rfl | hc
    · exact startsEntry_cons rfl (by decide) cs
    · exact startsEntry_cons (not_special_of_isDigit hc).1 (not_special_of_isDigit hc).2 cs
  | string _ => exact startsEntry_cons rfl (by decide) _
  | empty b _ => exact hbracket b _
  | array _ _ => exact hbracket .array _
  | object _ _ _ => exact hbracket .object _
  | padded hlead _ _ ih => exact (ih.append _).behindBlanks hlead

theorem WellFormed.ne_nil {text : List Char} (h : WellFormed text) : text ≠ [] := by
  intro hnil
  obtain ⟨c, cs, hcs, _⟩ := h.startsEntry
  rw [hnil] at hcs
  cases hcs

/-! ## Joined texts -/

/-- Joined texts begin with the first one. -/
theorem exists_intercalate_cons (text : List Char) (texts : List (List Char)) :
    ∃ more, [','].intercalate (text :: texts) = text ++ more := by
  cases texts with
  | nil => exact ⟨[], by rw [List.intercalate_singleton, List.append_nil]⟩
  | cons next texts =>
    refine ⟨',' :: [','].intercalate (next :: texts), ?_⟩
    rw [List.intercalate_cons_cons, List.append_assoc, List.singleton_append]

theorem StartsEntry.intercalate {text : List Char} (h : StartsEntry text)
    (texts : List (List Char)) (rest : List Char) :
    StartsEntry ([','].intercalate (text :: texts) ++ rest) := by
  obtain ⟨more, hmore⟩ := exists_intercalate_cons text texts
  rw [hmore, List.append_assoc]
  exact h.append _

/-- Blanks in front of joined texts belong to the first one. -/
theorem intercalate_append_cons (lead text : List Char) (texts : List (List Char)) :
    [','].intercalate ((lead ++ text) :: texts) = lead ++ [','].intercalate (text :: texts) := by
  cases texts with
  | nil => rw [List.intercalate_singleton, List.intercalate_singleton]
  | cons next texts =>
    rw [List.intercalate_cons_cons, List.intercalate_cons_cons]
    simp only [List.append_assoc]

/-! ## One item after the other -/

section Series

variable {σ : Type} {b : Bracket} {item : σ → Reader σ} {s s' : σ}

/-- A comma is passed over with the blanks behind it, unless the closing bracket follows. -/
theorem afterComma_eq_ok_iff {cs rest : List Char} :
    afterComma b cs = .ok rest ↔ skipBlank cs = rest ∧ rest.head? ≠ some b.closer := by
  unfold afterComma
  split
  next hcloser =>
    constructor
    · intro h
      cases h
    · intro h
      obtain ⟨rfl, hne⟩ := h
      exact absurd hcloser hne
  next hne =>
    rw [Except.ok.injEq]
    constructor
    · intro h
      subst h
      exact ⟨rfl, hne⟩
    · exact fun h => h.1

theorem afterComma_of_startsEntry {cs : List Char} (h : StartsEntry cs) :
    afterComma b cs = .ok (skipBlank cs) := by
  obtain ⟨c, rest, hcs, hc⟩ := h
  rw [afterComma_eq_ok_iff, hcs, List.head?_cons]
  refine ⟨rfl, ?_⟩
  intro hcloser
  exact Bracket.closer_ne hc (Option.some.inj hcloser)

/-- A series by what its first item is read as. -/
theorem series_eq (s : σ) (cs : List Char) :
    series b item s cs =
      match (item s).read cs with
      | .error e => .error e
      | .ok (s', rest) =>
        match skipBlank rest with
        | [] => .error (.here (.endIn b) [])
        | c :: rest' =>
          if c = b.closer then .ok (s', rest')
          else if c = ',' then
            match afterComma b rest' with
            | .error e => .error e
            | .ok rest'' => series b item s' rest''
          else .error (.next (.noComma b) (c :: rest')) := by
  rw [series]
  split
  next h => rw [h]
  next h =>
    rw [h]
    simp only []
    split
    next hb => rw [hb]
    next hb =>
      rw [hb]
      simp only []
      split
      next => rfl
      next =>
        split
        next =>
          split
          next hc => rw [hc]
          next hc => rw [hc]
        next => rfl

/-- The last item of a series. -/
theorem series_closed {cs rest₁ rest : List Char} (h : (item s).read cs = .ok (s', rest₁))
    (hb : skipBlank rest₁ = b.closer :: rest) : series b item s cs = .ok (s', rest) := by
  rw [series_eq, h]
  simp only [hb, if_true]

/-- An item of a series that another one follows. -/
theorem series_comma {cs rest₁ rest rest' : List Char} (h : (item s).read cs = .ok (s', rest₁))
    (hb : skipBlank rest₁ = ',' :: rest) (hc : afterComma b rest = .ok rest') :
    series b item s cs = series b item s' rest' := by
  rw [series_eq, h]
  simp only [hb, if_neg b.comma_ne_closer, if_true, hc]

/-- Blanks in front of a series do not matter if they do not in front of its items. -/
theorem series_skipBlank (hblanks : ∀ s cs, (item s).read (skipBlank cs) = (item s).read cs)
    (s : σ) (cs : List Char) : series b item s (skipBlank cs) = series b item s cs := by
  rw [series_eq, series_eq s cs, hblanks]

end Series

end ClassTidy.Json
