import Mathlib.Data.List.Basic
import ClassTidy.Proofs.Json.Grammar

/-!
# Reading numbers

A numeral is read up to where nothing follows that goes on it (`EndsNumeral`), and what is read is
what it is spelled by:

> `numeral_append`, `spelledBy_of_numeral`: both directions, for every text behind the numeral;

A number is written by its decimal digits. They have no leading zero, so they are the whole digits
of a numeral:

> `number_toDigits`: the digits of a number below `2^64` are read as the number;
> `lt_of_number`: and every integer that is read is below `2^64`.
-/

namespace ClassTidy.Json

/-- The text does not go on a numeral that ends before it. -/
def EndsNumeral (cs : List Char) : Prop :=
  ∀ c, cs.head? = some c → c.isDigit = false ∧ c ≠ '.' ∧ c ≠ 'e' ∧ c ≠ 'E'

theorem endsNumeral_nil : EndsNumeral [] := by
  intro c h
  cases h

/-- What begins with another character ends a numeral. -/
theorem endsNumeral_cons {c : Char} (h : c.isDigit = false ∧ c ≠ '.' ∧ c ≠ 'e' ∧ c ≠ 'E')
    (cs : List Char) : EndsNumeral (c :: cs) := by
  intro d hd
  cases hd
  exact h

/-- Blanks end a numeral. -/
theorem EndsNumeral.blanks {blanks rest : List Char} (h : EndsNumeral rest)
    (hblanks : Blanks blanks) : EndsNumeral (blanks ++ rest) := by
  cases blanks with
  | nil => exact h
  | cons c blanks =>
    have hc : isBlank c = true := hblanks c (List.mem_cons_self ..)
    apply endsNumeral_cons
    simp only [isBlank, Bool.or_eq_true, decide_eq_true_eq] at hc
    rcases hc with ((rfl | rfl) | rfl) | rfl <;> decide

/-! ## Digits -/

theorem isDigit_of_mem_toDigits {n : Nat} {c : Char} (h : c ∈ Nat.toDigits 10 n) :
    c.isDigit = true :=
  Nat.isDigit_of_mem_toDigits (by decide) (by decide) h

theorem exists_cons_toDigits (n : Nat) :
    ∃ d ds, Nat.toDigits 10 n = d :: ds ∧ d.isDigit = true := by
  obtain ⟨d, ds, hds⟩ := List.exists_cons_of_ne_nil (Nat.toDigits_ne_nil (n := n) (b := 10))
  have hd : d ∈ Nat.toDigits 10 n := by
    rw [hds]
    exact List.mem_cons_self ..
  exact ⟨d, ds, hds, isDigit_of_mem_toDigits hd⟩

/-- Only zero is written with a zero first. -/
theorem eq_zero_of_head?_toDigits {n : Nat} (h : (Nat.toDigits 10 n).head? = some '0') : n = 0 := by
  induction n using Nat.strongRecOn with
  | ind n ih =>
    by_cases hn : n < 10
    · rw [Nat.toDigits_of_lt_base hn] at h
      have hdigit : ∀ m < 10, [Nat.digitChar m].head? = some '0' → m = 0 := by decide
      exact hdigit n hn h
    · -- The first digit is the first one of a tenth of the number, which is not zero.
      rw [Nat.toDigits_of_base_le (by decide) (by omega),
        List.head?_append_of_ne_nil _ Nat.toDigits_ne_nil] at h
      have hzero : n / 10 = 0 := ih (n / 10) (by omega) h
      omega

/-- The number that digits denote is read off them as long as it stays below the limit. -/
theorem appendDigits_of_lt {limit n : Nat} {ds : List Char}
    (h : Nat.ofDigitChars 10 ds n < limit) :
    appendDigits limit n ds = (Nat.ofDigitChars 10 ds n, []) := by
  induction ds generalizing n with
  | nil => rw [appendDigits, Nat.ofDigitChars_nil]
  | cons d ds ih =>
    rw [Nat.ofDigitChars_cons] at h ⊢
    -- The digits to come only make the number larger, so it is below the limit already.
    have hle : 10 * n + (d.toNat - '0'.toNat)
        ≤ Nat.ofDigitChars 10 ds (10 * n + (d.toNat - '0'.toNat)) := by
      rw [Nat.ofDigitChars_eq_ofDigitChars_zero]
      exact Nat.le_trans (Nat.le_mul_of_pos_left _ (Nat.pow_pos (by decide))) (Nat.le_add_right _ _)
    simp only [appendDigits]
    rw [if_pos (Nat.lt_of_le_of_lt hle h)]
    exact ih h

/-- Appending digits stays below the limit. -/
theorem appendDigits_lt {limit n : Nat} (h : n < limit) (ds : List Char) :
    (appendDigits limit n ds).1 < limit := by
  induction ds generalizing n with
  | nil => exact h
  | cons d ds ih =>
    simp only [appendDigits]
    split
    next hlt => exact ih hlt
    next => exact h

/-! ## The parts of a numeral -/

/-- The text does not begin with a digit. -/
def EndsDigits (cs : List Char) : Prop :=
  ∀ c, cs.head? = some c → c.isDigit = false

theorem EndsNumeral.endsDigits {cs : List Char} (h : EndsNumeral cs) : EndsDigits cs :=
  fun c hc => (h c hc).1

/-- The digits in front of a text that goes on with no digit. -/
theorem spanDigits_append {ds rest : List Char} (hds : ∀ d ∈ ds, d.isDigit = true)
    (hrest : EndsDigits rest) : spanDigits (ds ++ rest) = (ds, rest) := by
  have hstop : rest.takeWhile Char.isDigit = [] ∧ rest.dropWhile Char.isDigit = rest := by
    cases rest with
    | nil => exact ⟨rfl, rfl⟩
    | cons c rest =>
      have hc : ¬c.isDigit = true := by simp [hrest c rfl]
      exact ⟨List.takeWhile_cons_of_neg hc, List.dropWhile_cons_of_neg hc⟩
  unfold spanDigits
  rw [List.takeWhile_append_of_pos hds, List.dropWhile_append_of_pos hds, hstop.1, hstop.2,
    List.append_nil]

/-- Digits that are due are read up to the first other character. -/
theorem someDigits_append {atEnd : Cause} {ds rest : List Char} (hds : Digits ds)
    (hrest : EndsDigits rest) : someDigits atEnd (ds ++ rest) = .ok (ds, rest) := by
  obtain ⟨d, ds, rfl⟩ := List.exists_cons_of_ne_nil hds.ne_nil
  have hd : d.isDigit = true := hds.isDigit d (List.mem_cons_self ..)
  have htail : ∀ c ∈ ds, c.isDigit = true := fun c hc => hds.isDigit c (List.mem_cons_of_mem _ hc)
  rw [List.cons_append, someDigits, if_pos hd, spanDigits_append htail hrest]

theorem digits_of_someDigits {atEnd : Cause} {cs ds rest : List Char}
    (h : someDigits atEnd cs = .ok (ds, rest)) : Digits ds ∧ cs = ds ++ rest := by
  unfold someDigits at h
  split at h
  next => cases h
  next c cs =>
    split at h
    next hc =>
      cases h
      refine ⟨⟨by simp, ?_⟩, ?_⟩
      · intro d hd
        rcases List.mem_cons.mp hd with rfl | hd
        · exact hc
        · exact List.mem_takeWhile_imp hd
      · exact congrArg (c :: ·) List.takeWhile_append_dropWhile.symm
    next => cases h

theorem wholePart_append {atEnd : Cause} {ds rest : List Char} (hds : WholeDigits ds)
    (hrest : EndsDigits rest) : wholePart atEnd (ds ++ rest) = .ok (ds, rest) := by
  rw [wholePart, someDigits_append hds.toDigits hrest]
  exact if_neg fun hzero => hzero.2 (hds.zero_alone hzero.1)

theorem wholeDigits_of_wholePart {atEnd : Cause} {cs ds rest : List Char}
    (h : wholePart atEnd cs = .ok (ds, rest)) : WholeDigits ds ∧ cs = ds ++ rest := by
  unfold wholePart at h
  split at h
  next => cases h
  next hdigits =>
    split at h
    next => cases h
    next hzero =>
      cases h
      obtain ⟨hds, hcs⟩ := digits_of_someDigits hdigits
      exact ⟨⟨hds, fun hhead => by_contra fun hne => hzero ⟨hhead, hne⟩⟩, hcs⟩

theorem fractionPart_append {atEnd : Cause} {text ds rest : List Char}
    (h : SpellsFraction text ds) (hrest : EndsDigits rest) (hpoint : rest.head? ≠ some '.') :
    fractionPart atEnd (text ++ rest) = .ok (ds, rest) := by
  cases h with
  | none => exact if_neg hpoint
  | digits hds =>
    rw [fractionPart, List.cons_append, List.head?_cons, if_pos rfl]
    exact someDigits_append hds hrest

theorem spellsFraction_of_fractionPart {atEnd : Cause} {cs ds rest : List Char}
    (h : fractionPart atEnd cs = .ok (ds, rest)) :
    ∃ text, SpellsFraction text ds ∧ cs = text ++ rest := by
  unfold fractionPart at h
  split at h
  next hpoint =>
    obtain ⟨behind, rfl⟩ := List.head?_eq_some_iff.mp hpoint
    obtain ⟨hds, hbehind⟩ := digits_of_someDigits h
    exact ⟨'.' :: ds, .digits hds, congrArg ('.' :: ·) hbehind⟩
  next =>
    cases h
    exact ⟨[], .none, rfl⟩

/-- A digit is no sign. -/
theorem sign_digits {ds : List Char} (hds : Digits ds) (rest : List Char) :
    sign (ds ++ rest) = (false, ds ++ rest) := by
  obtain ⟨d, ds, rfl⟩ := List.exists_cons_of_ne_nil hds.ne_nil
  have hd : d.isDigit = true := hds.isDigit d (List.mem_cons_self ..)
  have hsign : d ≠ '-' ∧ d ≠ '+' := by
    constructor <;> rintro rfl <;> cases hd
  rw [sign, List.cons_append, List.head?_cons, if_neg (by simpa using hsign.1),
    if_neg (by simpa using hsign.2)]

theorem exponentPart_append {atEnd : Cause} {text rest : List Char}
    {x : Option (Bool × List Char)} (h : SpellsExponent text x) (hrest : EndsNumeral rest) :
    exponentPart atEnd (text ++ rest) = .ok (x, rest) := by
  -- Behind the letter stand a sign, if any, and the digits.
  have hsome : ∀ {e : Char} {behind ds : List Char} {negative : Bool}, e = 'e' ∨ e = 'E' →
      sign behind = (negative, ds ++ rest) → Digits ds →
      exponentPart atEnd (e :: behind) = .ok (some (negative, ds), rest) := by
    intro e behind ds negative he hsign hds
    rw [exponentPart, List.head?_cons, if_pos (by simpa using he), List.drop_succ_cons,
      List.drop_zero, hsign]
    simp only [someDigits_append hds hrest.endsDigits]
  cases h with
  | none =>
    refine if_neg ?_
    rintro (hhead | hhead)
    · exact (hrest _ hhead).2.2.1 rfl
    · exact (hrest _ hhead).2.2.2 rfl
  | plain he hds => exact hsome he (sign_digits hds rest) hds
  | plus he hds => exact hsome he rfl hds
  | minus he hds => exact hsome he rfl hds

theorem spellsExponent_of_exponentPart {atEnd : Cause} {cs rest : List Char}
    {x : Option (Bool × List Char)} (h : exponentPart atEnd cs = .ok (x, rest)) :
    ∃ text, SpellsExponent text x ∧ cs = text ++ rest := by
  unfold exponentPart at h
  split at h
  next hhead =>
    split at h
    next => cases h
    next ds rest' hdigits =>
      cases h
      obtain ⟨hds, hbehind⟩ := digits_of_someDigits hdigits
      obtain ⟨e, behind, rfl, he⟩ : ∃ e behind, cs = e :: behind ∧ (e = 'e' ∨ e = 'E') := by
        rcases hhead with hhead | hhead
        · obtain ⟨behind, rfl⟩ := List.head?_eq_some_iff.mp hhead
          exact ⟨_, _, rfl, Or.inl rfl⟩
        · obtain ⟨behind, rfl⟩ := List.head?_eq_some_iff.mp hhead
          exact ⟨_, _, rfl, Or.inr rfl⟩
      rw [List.drop_succ_cons, List.drop_zero] at hbehind ⊢
      unfold sign at hbehind ⊢
      split at hbehind
      next hminus =>
        obtain ⟨digits, rfl⟩ := List.head?_eq_some_iff.mp hminus
        rw [if_pos hminus]
        exact ⟨e :: '-' :: ds, .minus he hds, congrArg (e :: '-' :: ·) hbehind⟩
      next hminus =>
        rw [if_neg hminus]
        split at hbehind
        next hplus =>
          obtain ⟨digits, rfl⟩ := List.head?_eq_some_iff.mp hplus
          rw [if_pos hplus]
          exact ⟨e :: '+' :: ds, .plus he hds, congrArg (e :: '+' :: ·) hbehind⟩
        next hplus =>
          rw [if_neg hplus]
          exact ⟨e :: ds, .plain he hds, congrArg (e :: ·) hbehind⟩
  next =>
    cases h
    exact ⟨[], .none, rfl⟩

/-! ## Numerals -/

/-- What stands behind the whole digits begins with no digit, and what stands behind the fraction
with no point either. -/
theorem SpellsExponent.ends {text rest : List Char} {x : Option (Bool × List Char)}
    (h : SpellsExponent text x) (hrest : EndsNumeral rest) :
    EndsDigits (text ++ rest) ∧ (text ++ rest).head? ≠ some '.' := by
  have hletter : ∀ {e : Char} (behind : List Char), e = 'e' ∨ e = 'E' →
      EndsDigits (e :: behind) ∧ (e :: behind).head? ≠ some '.' := by
    intro e behind he
    rcases he with rfl | rfl
    · exact ⟨fun c hc => by cases hc; rfl, by simp⟩
    · exact ⟨fun c hc => by cases hc; rfl, by simp⟩
  cases h with
  | none => exact ⟨hrest.endsDigits, fun hpoint => (hrest _ hpoint).2.1 rfl⟩
  | plain he _ => exact hletter _ he
  | plus he _ => exact hletter _ he
  | minus he _ => exact hletter _ he

/-- **A numeral is read off its text**, whatever follows that does not go on it. -/
theorem numeral_append {atEnd : Cause} {x : Numeral} {text rest : List Char}
    (h : x.SpelledBy text) (hrest : EndsNumeral rest) :
    numeral atEnd (text ++ rest) = .ok (x, rest) := by
  obtain ⟨negative, whole, fraction, exponent⟩ := x
  obtain ⟨fractionText, exponentText, hwhole, hfraction, hexponent, rfl⟩ := h
  obtain ⟨hdigits, hpoint⟩ := hexponent.ends hrest
  have hfractionEnd : EndsDigits (fractionText ++ (exponentText ++ rest)) := by
    cases hfraction with
    | none => exact hdigits
    | digits _ =>
      intro c hc
      cases hc
      rfl
  have hwholePart : wholePart atEnd (whole ++ (fractionText ++ (exponentText ++ rest)))
      = .ok (whole, fractionText ++ (exponentText ++ rest)) :=
    wholePart_append hwhole hfractionEnd
  have hfractionPart : fractionPart atEnd (fractionText ++ (exponentText ++ rest))
      = .ok (fraction, exponentText ++ rest) :=
    fractionPart_append hfraction hdigits hpoint
  have hexponentPart : exponentPart atEnd (exponentText ++ rest) = .ok (exponent, rest) :=
    exponentPart_append hexponent hrest
  simp only [List.append_assoc]
  cases negative with
  | true =>
    simp only [if_true, List.singleton_append, numeral, List.head?_cons, beq_self_eq_true,
      List.drop_succ_cons, List.drop_zero, hwholePart, hfractionPart, hexponentPart]
  | false =>
    have hminus : ((whole ++ (fractionText ++ (exponentText ++ rest))).head? == some '-')
        = false := by
      obtain ⟨d, ds, rfl⟩ := List.exists_cons_of_ne_nil hwhole.ne_nil
      rw [List.cons_append, List.head?_cons, beq_eq_false_iff_ne]
      rintro ⟨⟩
      exact absurd (hwhole.isDigit '-' (List.mem_cons_self ..)) (by decide)
    simp only [Bool.false_eq_true, if_false, List.nil_append, numeral, hminus, hwholePart,
      hfractionPart, hexponentPart]

/-- **What is read as a numeral is the text of one.** -/
theorem spelledBy_of_numeral {atEnd : Cause} {x : Numeral} {cs rest : List Char}
    (h : numeral atEnd cs = .ok (x, rest)) : ∃ text, x.SpelledBy text ∧ cs = text ++ rest := by
  simp only [numeral] at h
  split at h
  next => cases h
  next whole cs₁ hwholePart =>
    obtain ⟨hwhole, hcs⟩ := wholeDigits_of_wholePart hwholePart
    split at h
    next => cases h
    next fraction cs₂ hfractionPart =>
      obtain ⟨fractionText, hfraction, rfl⟩ := spellsFraction_of_fractionPart hfractionPart
      split at h
      next => cases h
      next exponent rest' hexponentPart =>
        obtain ⟨exponentText, hexponent, rfl⟩ := spellsExponent_of_exponentPart hexponentPart
        cases h
        refine ⟨_, ⟨fractionText, exponentText, hwhole, hfraction, hexponent, rfl⟩, ?_⟩
        simp only [List.append_assoc]
        rw [← hcs]
        by_cases hminus : cs.head? = some '-'
        · obtain ⟨behind, rfl⟩ := List.head?_eq_some_iff.mp hminus
          rfl
        · simp [hminus]

/-- The value of a numeral does not depend on the text behind it. -/
theorem Numeral.value_eq_ok {x : Numeral} {rest : List Char} {v : Number}
    (h : x.value rest = .ok v) (rest' : List Char) : x.value rest' = .ok v := by
  simp only [value] at h ⊢
  split at h
  next =>
    split at h
    next hinteger => rwa [if_pos hinteger]
    next hinteger =>
      rw [if_neg hinteger]
      split at h
      next => exact h
      next => cases h
  next =>
    split at h
    next =>
      split at h
      next => exact h
      next => cases h
    next =>
      split at h
      next => cases h
      next hlarge => rwa [if_neg hlarge]

/-- **A number is read off the text of a numeral**, and from another text behind it as well. -/
theorem exists_of_number {cs rest : List Char} {n : Number} (h : number cs = .ok (n, rest)) :
    ∃ (x : Numeral) (text : List Char), x.SpelledBy text ∧ cs = text ++ rest ∧
      ∀ rest', EndsNumeral rest' → number (text ++ rest') = .ok (n, rest') := by
  unfold number at h
  split at h
  next => cases h
  next x rest' hnumeral =>
    split at h
    next => cases h
    next hvalue =>
      cases h
      obtain ⟨text, htext, rfl⟩ := spelledBy_of_numeral hnumeral
      refine ⟨x, text, htext, rfl, ?_⟩
      intro rest' hrest'
      rw [number, numeral_append htext hrest']
      simp only [Numeral.value_eq_ok hvalue rest']

/-! ## Written numbers -/

/-- The digits of a number are a numeral without sign, fraction and exponent. -/
theorem spelledBy_toDigits (n : Nat) :
    Numeral.SpelledBy ⟨false, Nat.toDigits 10 n, [], none⟩ (Nat.toDigits 10 n) := by
  have hwhole : WholeDigits (Nat.toDigits 10 n) := by
    refine ⟨⟨Nat.toDigits_ne_nil, fun d => isDigit_of_mem_toDigits⟩, ?_⟩
    intro hhead
    rw [eq_zero_of_head?_toDigits hhead]
    rfl
  exact ⟨[], [], hwhole, .none, .none, by simp⟩

/-- **Written numbers are read again**, if they are below `2^64`. -/
theorem number_toDigits {n : Nat} (hn : n < UInt64.size) {rest : List Char}
    (hrest : EndsNumeral rest) : number (Nat.toDigits 10 n ++ rest) = .ok (.integer n, rest) := by
  have hvalue : appendDigits UInt64.size 0 (Nat.toDigits 10 n) = (n, []) := by
    rw [appendDigits_of_lt (by rwa [Nat.ofDigitChars_ten_toDigits]), Nat.ofDigitChars_ten_toDigits]
  rw [number, numeral_append (spelledBy_toDigits n) hrest]
  simp only [Numeral.value, hvalue]
  rfl

/-- Only a numeral without fraction and exponent is an integer: its digits that fit are below the
limit, and no others count. -/
theorem Numeral.lt_of_value {x : Numeral} {rest : List Char} {n : Int}
    (h : x.value rest = .ok (.integer n)) : n < UInt64.size := by
  have hlt : (appendDigits UInt64.size 0 x.whole).1 < UInt64.size :=
    appendDigits_lt (by decide) x.whole
  simp only [value] at h
  split at h
  next =>
    split at h
    · injection h with h
      unfold integerValue at h
      split at h
      · cases h; omega
      · split at h
        · cases h
        · cases h; omega
    · split at h <;> cases h
  next =>
    split at h
    · split at h <;> cases h
    · split at h <;> cases h

/-- **Every integer that is read is below `2^64`.** -/
theorem lt_of_number {cs rest : List Char} {n : Int} (h : number cs = .ok (.integer n, rest)) :
    n < UInt64.size := by
  unfold number at h
  split at h
  · cases h
  · split at h
    · cases h
    · next hv => cases h; exact Numeral.lt_of_value hv

end ClassTidy.Json
