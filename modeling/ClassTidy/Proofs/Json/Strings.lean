import Mathlib.Algebra.Group.Nat.Defs
import ClassTidy.Json.Printer
import ClassTidy.Proofs.Json.Grammar

/-!
# Reading strings

A literal is read as the characters that its text spells, and as nothing else:

> `literal_of_spells`, `spells_of_literal`: both directions, for every text behind the literal;
> `skipLiteral_of_stringBody`: what is of the right form is passed over.

A written string spells its own characters (`spells_written`), so it is read again.
-/

namespace ClassTidy.Json

/-! ## Units -/

/-- A hexadecimal digit takes one byte, and neither ends a literal nor begins an escape. -/
theorem hexDigit?_plain {c : Char} {n : Nat} (h : hexDigit? c = some n) :
    n < 16 ∧ c.utf8Size = 1 ∧ c ≠ '"' ∧ c ≠ '\\' := by
  have hle : ∀ {d e : Char}, d ≤ e → d.toNat ≤ e.toNat := fun hde => hde
  have hdigit : (48 ≤ c.toNat ∧ c.toNat ≤ 57 ∧ n = c.toNat - 48) ∨
      (97 ≤ c.toNat ∧ c.toNat ≤ 102 ∧ n = c.toNat - 97 + 10) ∨
      (65 ≤ c.toNat ∧ c.toNat ≤ 70 ∧ n = c.toNat - 65 + 10) := by
    unfold hexDigit? at h
    split at h
    next hc => cases h; exact Or.inl ⟨hle hc.1, hle hc.2, rfl⟩
    next =>
      split at h
      next hc => cases h; exact Or.inr (Or.inl ⟨hle hc.1, hle hc.2, rfl⟩)
      next =>
        split at h
        next hc => cases h; exact Or.inr (Or.inr ⟨hle hc.1, hle hc.2, rfl⟩)
        next => cases h
  have hne : ∀ {d : Char}, c.toNat ≠ d.toNat → c ≠ d := by
    intro d hd hcd
    exact hd (congrArg Char.toNat hcd)
  refine ⟨by omega, Char.utf8Size_eq_one_iff.mpr ?_, hne ?_, hne ?_⟩
  · show c.toNat ≤ 127
    omega
  · show c.toNat ≠ 34
    omega
  · show c.toNat ≠ 92
    omega

/-- The step by which a number is read off its hexadecimal digits. -/
def hexStep (n? : Option Nat) (c : Char) : Option Nat :=
  n?.bind fun n => (hexDigit? c).map (16 * n + ·)

theorem foldl_hexStep_none (digits : List Char) : digits.foldl hexStep none = none := by
  induction digits with
  | nil => rfl
  | cons d digits ih => exact ih

/-- Digits that denote a number are hexadecimal, and their count bounds the number. -/
theorem of_foldl_hexStep {digits : List Char} {m n : Nat}
    (h : digits.foldl hexStep (some m) = some n) :
    (∀ d ∈ digits, (hexDigit? d).isSome = true) ∧ n < (m + 1) * 16 ^ digits.length := by
  induction digits generalizing m with
  | nil =>
    cases h
    refine ⟨?_, by simp⟩
    intro d hd
    cases hd
  | cons d digits ih =>
    rw [List.foldl_cons] at h
    cases hd : hexDigit? d with
    | none =>
      rw [show hexStep (some m) d = none by simp [hexStep, hd], foldl_hexStep_none] at h
      cases h
    | some k =>
      rw [show hexStep (some m) d = some (16 * m + k) by simp [hexStep, hd]] at h
      obtain ⟨hdigits, hlt⟩ := ih h
      have hk : k < 16 := (hexDigit?_plain hd).1
      refine ⟨?_, ?_⟩
      · intro d' hd'
        rcases List.mem_cons.mp hd' with rfl | hd'
        · rw [hd]
          rfl
        · exact hdigits d' hd'
      · have hmul : (16 * m + k + 1) * 16 ^ digits.length ≤ (m + 1) * 16 * 16 ^ digits.length :=
          Nat.mul_le_mul_right _ (by omega)
        rw [List.length_cons, Nat.pow_succ']
        rw [Nat.mul_assoc] at hmul
        omega

namespace IsUnit

variable {digits : List Char} {n : Nat}

theorem isSome_hexDigit? (h : IsUnit digits n) : ∀ d ∈ digits, (hexDigit? d).isSome = true :=
  (of_foldl_hexStep h.2).1

theorem lt (h : IsUnit digits n) : n < 0x10000 := by
  have hlt := (of_foldl_hexStep h.2).2
  rw [h.1] at hlt
  omega

end IsUnit

/-- Texts whose characters take one byte each have as many bytes as characters. -/
theorem byteLength_eq_length {cs : List Char} (h : ∀ c ∈ cs, c.utf8Size = 1) :
    byteLength cs = cs.length := by
  induction cs with
  | nil => rfl
  | cons c cs ih =>
    show c.utf8Size + byteLength cs = cs.length + 1
    rw [h c (List.mem_cons_self ..), ih fun d hd => h d (List.mem_cons_of_mem _ hd)]
    omega

/-- The digits of a unit are read as its number. -/
theorem hexFour_of_isUnit {digits : List Char} {n : Nat} (h : IsUnit digits n) (rest : List Char) :
    hexFour (digits ++ rest) = .ok (n, rest) := by
  have hbytes : byteLength digits = 4 := by
    rw [byteLength_eq_length, h.1]
    intro d hd
    obtain ⟨m, hm⟩ := Option.isSome_iff_exists.mp (h.isSome_hexDigit? d hd)
    exact (hexDigit?_plain hm).2.1
  have htake : (digits ++ rest).take 4 = digits := List.take_left' h.1
  have hdrop : (digits ++ rest).drop 4 = rest := List.drop_left' h.1
  rw [hexFour, htake, hdrop, hbytes, h.1, h.2]
  rfl

/-- Only the digits of a unit are read. -/
theorem isUnit_of_hexFour {cs rest : List Char} {n : Nat} (h : hexFour cs = .ok (n, rest)) :
    ∃ digits, IsUnit digits n ∧ cs = digits ++ rest := by
  unfold hexFour at h
  split at h
  next => cases h
  next =>
    split at h
    next hlen hvalue =>
      cases h
      exact ⟨cs.take 4, ⟨hlen, hvalue⟩, (List.take_append_drop 4 cs).symm⟩
    next => cases h

/-! ## Escapes -/

theorem shortEscape?_eq_some_iff {letter c : Char} :
    shortEscape? letter = some c ↔ (letter, c) ∈ shortEscapes := by
  unfold shortEscape? shortEscapes
  simp only [List.mem_cons, Prod.mk.injEq, List.not_mem_nil, or_false]
  constructor
  · intro h
    split_ifs at h with hself hb hf hn hr ht <;> cases h
    · rcases hself with rfl | rfl | rfl <;> simp
    all_goals simp [*]
  · intro h
    rcases h with ⟨rfl, rfl⟩ | ⟨rfl, rfl⟩ | ⟨rfl, rfl⟩ | ⟨rfl, rfl⟩ | ⟨rfl, rfl⟩ | ⟨rfl, rfl⟩ |
      ⟨rfl, rfl⟩ | ⟨rfl, rfl⟩ <;> rfl

/-- The letter of an escape by code point stands for no character. -/
theorem ne_u_of_mem_shortEscapes {letter c : Char} (h : (letter, c) ∈ shortEscapes) :
    letter ≠ 'u' := by
  rintro rfl
  rw [← shortEscape?_eq_some_iff] at h
  cases h

/-- No character is a surrogate. -/
theorem not_surrogate (c : Char) :
    isLeading c.toNat = false ∧ isTrailing c.toNat = false := by
  have hc : c.toNat < 0xD800 ∨ 0xDFFF < c.toNat ∧ c.toNat < 0x110000 := c.valid
  simp only [isLeading, isTrailing, Bool.and_eq_false_iff, decide_eq_false_iff_not]
  omega

theorem codePoint_of_unit {digits : List Char} {c : Char} (h : IsUnit digits c.toNat)
    (rest : List Char) : codePoint (digits ++ rest) = .ok (c, rest) := by
  obtain ⟨hleading, htrailing⟩ := not_surrogate c
  simp only [codePoint, hexFour_of_isUnit h, hleading, htrailing, Bool.false_eq_true, if_false,
    Char.ofNat_toNat]

/-- A character beyond the basic plane is read off its two units. -/
theorem codePoint_of_pair {first second : List Char} {c : Char} (hc : 0x10000 ≤ c.toNat)
    (hfirst : IsUnit first (0xD800 + (c.toNat - 0x10000) / 0x400))
    (hsecond : IsUnit second (0xDC00 + (c.toNat - 0x10000) % 0x400)) (rest : List Char) :
    codePoint (first ++ '\\' :: 'u' :: (second ++ rest)) = .ok (c, rest) := by
  have hvalid : c.toNat < 0xD800 ∨ 0xDFFF < c.toNat ∧ c.toNat < 0x110000 := c.valid
  have hleading : isLeading (0xD800 + (c.toNat - 0x10000) / 0x400) = true ∧
      isTrailing (0xD800 + (c.toNat - 0x10000) / 0x400) = false := by
    simp only [isLeading, isTrailing, Bool.and_eq_false_iff, Bool.and_eq_true, decide_eq_true_eq,
      decide_eq_false_iff_not]
    omega
  have htrailing : isTrailing (0xDC00 + (c.toNat - 0x10000) % 0x400) = true := by
    simp only [isTrailing, Bool.and_eq_true, decide_eq_true_eq]
    omega
  have hpair : pairChar (0xD800 + (c.toNat - 0x10000) / 0x400)
      (0xDC00 + (c.toNat - 0x10000) % 0x400) = c := by
    have hsum : 0x10000 + (0xD800 + (c.toNat - 0x10000) / 0x400 - 0xD800) * 0x400
        + (0xDC00 + (c.toNat - 0x10000) % 0x400 - 0xDC00) = c.toNat := by
      omega
    rw [pairChar, hsum, Char.ofNat_toNat]
  have hmark : unitMark ('\\' :: 'u' :: (second ++ rest)) = .ok (second ++ rest) := rfl
  simp only [codePoint, hexFour_of_isUnit hfirst, hleading.1, hleading.2, Bool.false_eq_true,
    if_false, if_true, secondHalf, hmark, hexFour_of_isUnit hsecond, htrailing, hpair]

/-- The two halves of an escaped pair are the units of its character. -/
theorem toNat_pairChar {first second : Nat} (hfirst : isLeading first = true)
    (hsecond : isTrailing second = true) :
    0x10000 ≤ (pairChar first second).toNat ∧
      first = 0xD800 + ((pairChar first second).toNat - 0x10000) / 0x400 ∧
      second = 0xDC00 + ((pairChar first second).toNat - 0x10000) % 0x400 := by
  simp only [isLeading, Bool.and_eq_true, decide_eq_true_eq] at hfirst
  simp only [isTrailing, Bool.and_eq_true, decide_eq_true_eq] at hsecond
  have hvalid : (0x10000 + (first - 0xD800) * 0x400 + (second - 0xDC00)).isValidChar := by
    show _ < 0xD800 ∨ 0xDFFF < _ ∧ _ < 0x110000
    omega
  have hnumber : (pairChar first second).toNat
      = 0x10000 + (first - 0xD800) * 0x400 + (second - 0xDC00) := by
    rw [pairChar, Char.ofNat, dif_pos hvalid]
    rfl
  rw [hnumber]
  omega

/-- The second half of a pair is an escape by code point. -/
theorem exists_of_secondHalf {first : Nat} {cs rest : List Char} {c : Char}
    (h : secondHalf first cs = .ok (c, rest)) :
    ∃ digits second, cs = '\\' :: 'u' :: (digits ++ rest) ∧ IsUnit digits second ∧
      isTrailing second = true ∧ c = pairChar first second := by
  unfold secondHalf at h
  split at h
  next => cases h
  next behind hmark =>
    split at h
    next => cases h
    next second rest' hsecond =>
      obtain ⟨digits, hunit, rfl⟩ := isUnit_of_hexFour hsecond
      split at h
      next htrailing =>
        obtain ⟨rfl, rfl⟩ := Prod.mk.inj (Except.ok.inj h)
        refine ⟨digits, second, ?_, hunit, htrailing, rfl⟩
        unfold unitMark at hmark
        split at hmark
        next => cases hmark
        next => cases hmark
        next =>
          split at hmark
          next hslash =>
            split at hmark
            next hu =>
              cases hmark
              rw [hslash, hu]
            next => cases hmark
          next => cases hmark
      next => cases h

/-- What is read from behind a backslash may stand in front of a text that spells something. -/
theorem spells_of_codePoint {cs rest : List Char} {c : Char} (h : codePoint cs = .ok (c, rest)) :
    ∃ text, cs = text ++ rest ∧
      ∀ {us ds : List Char}, Spells us ds → Spells ('\\' :: 'u' :: (text ++ us)) (c :: ds) := by
  unfold codePoint at h
  split at h
  next => cases h
  next first behind hfirst =>
    obtain ⟨digits, hunit, rfl⟩ := isUnit_of_hexFour hfirst
    split at h
    next => cases h
    next htrailing =>
      split at h
      next hleading =>
        obtain ⟨digits', second, rfl, hunit', htrailing', hchar⟩ := exists_of_secondHalf h
        obtain ⟨hc, hfirst', hsecond'⟩ := toNat_pairChar hleading htrailing'
        rw [← hchar] at hc hfirst' hsecond'
        rw [hfirst'] at hunit
        rw [hsecond'] at hunit'
        refine ⟨digits ++ '\\' :: 'u' :: digits', by simp, ?_⟩
        intro us ds hus
        rw [List.append_assoc]
        exact .pair hc hunit hunit' hus
      next hleading =>
        obtain ⟨rfl, rfl⟩ := Prod.mk.inj (Except.ok.inj h)
        have hvalid : first.isValidChar := by
          have hlt := hunit.lt
          simp only [isLeading, isTrailing, Bool.not_eq_true, Bool.and_eq_false_iff,
            decide_eq_false_iff_not] at hleading htrailing
          show _ < 0xD800 ∨ 0xDFFF < _ ∧ _ < 0x110000
          omega
        have hnumber : (Char.ofNat first).toNat = first := by
          rw [Char.ofNat, dif_pos hvalid]
          rfl
        exact ⟨digits, rfl, fun hus => .unit (by rwa [hnumber]) hus⟩

theorem spells_of_escape {cs rest : List Char} {c : Char} (h : escape cs = .ok (c, rest)) :
    ∃ text, cs = text ++ rest ∧
      ∀ {us ds : List Char}, Spells us ds → Spells ('\\' :: (text ++ us)) (c :: ds) := by
  unfold escape at h
  split at h
  next => cases h
  next letter behind =>
    split at h
    next hu =>
      subst hu
      obtain ⟨text, rfl, hspells⟩ := spells_of_codePoint h
      exact ⟨'u' :: text, rfl, hspells⟩
    next =>
      split at h
      next d hd =>
        cases h
        exact ⟨[letter], rfl, fun hus => .short (shortEscape?_eq_some_iff.mp hd) hus⟩
      next => cases h

/-! ## Literals -/

theorem literal_plain {c : Char} (hquote : c ≠ '"') (hslash : c ≠ '\\')
    (hcontrol : isControl c = false) {cs ds rest : List Char} (h : literal cs = .ok (ds, rest)) :
    literal (c :: cs) = .ok (c :: ds, rest) := by
  rw [literal, if_neg hquote, if_neg hslash, hcontrol, if_neg Bool.false_ne_true, h]

theorem literal_escape {c : Char} {cs cs' ds rest : List Char} (hescape : escape cs = .ok (c, cs'))
    (h : literal cs' = .ok (ds, rest)) : literal ('\\' :: cs) = .ok (c :: ds, rest) := by
  rw [literal, if_neg (by decide), if_pos rfl]
  split
  next e he =>
    rw [hescape] at he
    cases he
  next d cs'' he =>
    rw [hescape] at he
    cases he
    rw [h]

/-- **A literal is read as the characters that its text spells.** -/
theorem literal_of_spells {us ds : List Char} (h : Spells us ds) (rest : List Char) :
    literal (us ++ '"' :: rest) = .ok (ds, rest) := by
  induction h with
  | nil => rw [List.nil_append, literal, if_pos rfl]
  | plain hquote hslash hcontrol _ ih => exact literal_plain hquote hslash hcontrol ih
  | @short letter c cs ds hmem _ ih =>
    have hescape : escape (letter :: (cs ++ '"' :: rest)) = .ok (c, cs ++ '"' :: rest) := by
      rw [escape, if_neg (ne_u_of_mem_shortEscapes hmem), shortEscape?_eq_some_iff.mpr hmem]
    exact literal_escape hescape ih
  | @unit digits c cs ds hunit _ ih =>
    have hescape : escape ('u' :: (digits ++ (cs ++ '"' :: rest)))
        = .ok (c, cs ++ '"' :: rest) := by
      rw [escape, if_pos rfl, codePoint_of_unit hunit]
    have hread := literal_escape hescape ih
    simpa using hread
  | @pair first second c cs ds hc hfirst hsecond _ ih =>
    have hescape : escape ('u' :: (first ++ '\\' :: 'u' :: (second ++ (cs ++ '"' :: rest))))
        = .ok (c, cs ++ '"' :: rest) := by
      rw [escape, if_pos rfl, codePoint_of_pair hc hfirst hsecond]
    have hread := literal_escape hescape ih
    simpa using hread

/-- **A literal that is read spells the characters.** -/
theorem spells_of_literal {cs ds rest : List Char} (h : literal cs = .ok (ds, rest)) :
    ∃ us, cs = us ++ '"' :: rest ∧ Spells us ds := by
  fun_induction literal cs generalizing ds with
  | case1 => cases h
  | case2 => cases h; exact ⟨[], rfl, .nil⟩
  | case3 => cases h
  | case4 behind c rest' hescape ds' rest'' hliteral _ ih =>
    cases h
    obtain ⟨us, rfl, hus⟩ := ih hliteral
    obtain ⟨text, rfl, hspells⟩ := spells_of_escape hescape
    exact ⟨'\\' :: (text ++ us), by simp, hspells hus⟩
  | case5 => cases h
  | case6 => cases h
  | case7 c behind hquote hslash hcontrol ds' rest' hliteral ih =>
    cases h
    obtain ⟨us, rfl, hus⟩ := ih hliteral
    exact ⟨c :: us, rfl, .plain hquote hslash (by simpa using hcontrol) hus⟩
  | case8 => cases h

/-- What may stand between quotes is passed over. -/
theorem skipLiteral_of_stringBody {cs : List Char} (h : StringBody cs) (rest : List Char) :
    skipLiteral (cs ++ '"' :: rest) = .ok rest := by
  have hslash : ∀ {cs cs' : List Char}, skipEscape cs = .ok cs' →
      skipLiteral ('\\' :: cs) = skipLiteral cs' := by
    intro cs cs' hescape
    rw [skipLiteral, if_neg (by decide), if_pos rfl]
    split
    next e he =>
      rw [hescape] at he
      cases he
    next cs'' he =>
      rw [hescape] at he
      cases he
      rfl
  induction h with
  | nil => rw [List.nil_append, skipLiteral, if_pos rfl]
  | @plain c cs hquote hback hcontrol _ ih =>
    rw [List.cons_append, skipLiteral, if_neg hquote, if_neg hback, hcontrol,
      if_neg Bool.false_ne_true, ih]
  | @short letter c cs hmem _ ih =>
    have hescape : skipEscape (letter :: (cs ++ '"' :: rest)) = .ok (cs ++ '"' :: rest) := by
      rw [skipEscape, if_neg (ne_u_of_mem_shortEscapes hmem), shortEscape?_eq_some_iff.mpr hmem]
      rfl
    exact (hslash hescape).trans ih
  | @unit digits n cs hunit _ ih =>
    have hescape : skipEscape ('u' :: (digits ++ (cs ++ '"' :: rest)))
        = .ok (cs ++ '"' :: rest) := by
      rw [skipEscape, if_pos rfl, hexFour_of_isUnit hunit]
      rfl
    rw [List.cons_append, List.cons_append, List.append_assoc, hslash hescape, ih]

/-! ## Written strings -/

/-- The four digits that are written for a control character denote its number. -/
theorem isUnit_control {n : Nat} (hn : n < 0x20) :
    IsUnit ['0', '0', Nat.digitChar (n / 16), Nat.digitChar (n % 16)] n := by
  have hdigits : ∀ m < 0x20,
      hexValue? ['0', '0', Nat.digitChar (m / 16), Nat.digitChar (m % 16)] = some m := by
    decide
  exact ⟨rfl, hdigits n hn⟩

/-- What is written for a character spells the character. -/
theorem spells_escapedChar (c : Char) {us ds : List Char} (h : Spells us ds) :
    Spells (escapedChar c ++ us) (c :: ds) := by
  unfold escapedChar
  split
  next hc => rcases hc with rfl | rfl <;> exact .short (by decide) h
  next hc =>
    obtain ⟨hquote, hslash⟩ := not_or.mp hc
    split
    next hc => subst hc; exact .short (by decide) h
    split
    next hc => subst hc; exact .short (by decide) h
    split
    next hc => subst hc; exact .short (by decide) h
    split
    next hc => subst hc; exact .short (by decide) h
    split
    next hc => subst hc; exact .short (by decide) h
    split
    next hc => exact .unit (isUnit_control hc) h
    next hc => exact .plain hquote hslash (by simp [isControl, hc]) h

/-- What is written for characters may stand in front of a text that spells others. -/
theorem spells_written_append (cs : List Char) {us ds : List Char} (h : Spells us ds) :
    Spells (cs.flatMap escapedChar ++ us) (cs ++ ds) := by
  induction cs with
  | nil => exact h
  | cons c cs ih =>
    rw [List.flatMap_cons, List.append_assoc]
    exact spells_escapedChar c ih

/-- **A written string spells its characters.** -/
theorem spells_written (cs : List Char) : Spells (cs.flatMap escapedChar) cs := by
  have happend := spells_written_append cs .nil
  rwa [List.append_nil, List.append_nil] at happend

theorem spellsString_written (s : String) : SpellsString (writtenString s) s :=
  ⟨[], _, [], blanks_nil, spells_written s.toList, blanks_nil, by simp [writtenString]⟩

/-- So it is read again, from behind its opening quote. -/
theorem literal_writtenString (cs rest : List Char) :
    literal (cs.flatMap escapedChar ++ '"' :: rest) = .ok (cs, rest) :=
  literal_of_spells (spells_written cs) rest

end ClassTidy.Json
