import ClassTidy.Proofs.Json.Strings

/-!
# Where the text of a value ends

A scan of a text follows its strings and counts the brackets that are open, and nothing else. A
text is `Delimited` if the scan comes to its end outside of strings and brackets and meets no comma
and no closing bracket there: then it is plain where the text ends when another one follows, be it
the text of a value or not (`Delimited.of_append_eq`). Texts of values are delimited:

> `WellFormed.balanced`: the scan of a value ends where it began, in whatever brackets.
-/

namespace ClassTidy.Json

/-- Where a scan stands: within how many brackets, and in a string or even behind a backslash. -/
inductive Scan where
  | outside (depth : Nat)
  | quoted (depth : Nat)
  | escaped (depth : Nat)
deriving DecidableEq, Repr

namespace Scan

/-- One character further. What would end the text of a value is refused. -/
def step : Scan → Char → Option Scan
  | outside depth, c =>
    if c = '"' then some (quoted depth)
    else if c = '[' ∨ c = '{' then some (outside (depth + 1))
    else if depth = 0 ∧ (c = ',' ∨ c = ']' ∨ c = '}') then none
    else if c = ']' ∨ c = '}' then some (outside (depth - 1))
    else some (outside depth)
  | quoted depth, c =>
    some (if c = '"' then outside depth else if c = '\\' then escaped depth else quoted depth)
  | escaped depth, _ => some (quoted depth)

/-- The place to which a text leads. -/
def scan (s : Scan) (cs : List Char) : Option Scan :=
  cs.foldlM step s

variable {s s' : Scan} {depth : Nat}

theorem scan_append (cs ds : List Char) : s.scan (cs ++ ds) = (s.scan cs).bind (·.scan ds) :=
  List.foldlM_append

theorem scan_cons (c : Char) (cs : List Char) : s.scan (c :: cs) = (s.step c).bind (·.scan cs) :=
  List.foldlM_cons

/-- The character stands for itself outside of strings: no quote, comma or bracket. -/
def Plain (c : Char) : Prop :=
  c ∉ ['"', ',', '[', ']', '{', '}']

instance (c : Char) : Decidable (Plain c) :=
  inferInstanceAs (Decidable (c ∉ ['"', ',', '[', ']', '{', '}']))

theorem step_plain {c : Char} (h : Plain c) : (outside depth).step c = some (outside depth) := by
  simp only [Plain, List.mem_cons, List.not_mem_nil, or_false, not_or] at h
  obtain ⟨hquote, hcomma, hopen, hclose, hopen', hclose'⟩ := h
  have hends : ¬(c = ',' ∨ c = ']' ∨ c = '}') := by
    simp only [hcomma, hclose, hclose', or_self, not_false_eq_true]
  rw [step, if_neg hquote, if_neg (not_or.mpr ⟨hopen, hopen'⟩), if_neg fun h => hends h.2,
    if_neg fun h => hends (Or.inr h)]

theorem step_opener (b : Bracket) : (outside depth).step b.opener = some (outside (depth + 1)) := by
  cases b <;> rfl

theorem step_closer (b : Bracket) : (outside (depth + 1)).step b.closer = some (outside depth) := by
  cases b <;> rfl

theorem step_comma : (outside (depth + 1)).step ',' = some (outside (depth + 1)) := rfl

/-- What may follow a value is refused. -/
theorem step_end {c : Char} (h : c = ',' ∨ c = ']' ∨ c = '}') : (outside 0).step c = none := by
  rcases h with rfl | rfl | rfl <;> rfl

end Scan

open Scan

/-- A scan of the text comes back to where it began, in whatever brackets. -/
def Balanced (cs : List Char) : Prop :=
  ∀ depth, (outside depth).scan cs = some (outside depth)

/-- It is plain from the text itself where it ends, as the text of a member's value. -/
def Delimited (cs : List Char) : Prop :=
  (outside 0).scan cs = some (outside 0)

instance (cs : List Char) : Decidable (Delimited cs) :=
  inferInstanceAs (Decidable ((outside 0).scan cs = some (outside 0)))

/-! ## Balanced texts -/

theorem Balanced.append {cs ds : List Char} (hcs : Balanced cs) (hds : Balanced ds) :
    Balanced (cs ++ ds) := by
  intro depth
  rw [scan_append, hcs depth]
  exact hds depth

theorem balanced_of_plain {cs : List Char} (h : ∀ c ∈ cs, Plain c) : Balanced cs := by
  intro depth
  induction cs with
  | nil => rfl
  | cons c cs ih =>
    rw [scan_cons, step_plain (h c (List.mem_cons_self ..))]
    exact ih fun d hd => h d (List.mem_cons_of_mem _ hd)

theorem plain_of_isBlank {c : Char} (h : isBlank c = true) : Plain c := by
  simp only [isBlank, Bool.or_eq_true, decide_eq_true_eq] at h
  rcases h with ((rfl | rfl) | rfl) | rfl <;> decide

theorem balanced_of_blanks {cs : List Char} (h : Blanks cs) : Balanced cs :=
  balanced_of_plain fun c hc => plain_of_isBlank (h c hc)

theorem plain_of_isDigit {c : Char} (h : c.isDigit = true) : Plain c := by
  intro hmem
  simp only [List.mem_cons, List.not_mem_nil, or_false] at hmem
  rcases hmem with rfl | rfl | rfl | rfl | rfl | rfl <;> cases h

/-- A scan stays in a string up to its closing quote. -/
theorem scan_stringBody {cs : List Char} (h : StringBody cs) (depth : Nat) :
    (quoted depth).scan cs = some (quoted depth) := by
  have hplain : ∀ {c : Char} {cs : List Char}, c ≠ '"' → c ≠ '\\' →
      (quoted depth).scan (c :: cs) = (quoted depth).scan cs := by
    intro c cs hquote hslash
    rw [scan_cons, step, if_neg hquote, if_neg hslash, Option.bind_some]
  have hescape : ∀ {c : Char} {cs : List Char},
      (quoted depth).scan ('\\' :: c :: cs) = (quoted depth).scan cs := fun {_ _} => rfl
  induction h with
  | nil => rfl
  | plain hquote hslash _ _ ih => rw [hplain hquote hslash, ih]
  | short _ _ ih => rw [hescape, ih]
  | @unit digits n cs hunit _ ih =>
    have hdigits : ∀ d ∈ digits, d ≠ '"' ∧ d ≠ '\\' := by
      intro d hd
      obtain ⟨m, hm⟩ := Option.isSome_iff_exists.mp (hunit.isSome_hexDigit? d hd)
      exact (hexDigit?_plain hm).2.2
    rw [hescape]
    clear hunit
    induction digits with
    | nil => exact ih
    | cons d digits ihd =>
      obtain ⟨hquote, hslash⟩ := hdigits d (List.mem_cons_self ..)
      rw [List.cons_append, hplain hquote hslash]
      exact ihd fun d' hd' => hdigits d' (List.mem_cons_of_mem _ hd')

theorem balanced_string {body : List Char} (h : StringBody body) :
    Balanced ('"' :: (body ++ ['"'])) := by
  intro depth
  show (quoted depth).scan (body ++ ['"']) = _
  rw [scan_append, scan_stringBody h]
  rfl

theorem Numeral.SpelledBy.plain {x : Numeral} {text : List Char} (h : x.SpelledBy text) :
    ∀ c ∈ text, Plain c := by
  obtain ⟨negative, whole, fraction, exponent⟩ := x
  obtain ⟨fractionText, exponentText, hwhole, hfraction, hexponent, rfl⟩ := h
  have hdigits : ∀ {ds : List Char}, Digits ds → ∀ c ∈ ds, Plain c :=
    fun hds c hc => plain_of_isDigit (hds.isDigit c hc)
  have hletter : ∀ {e : Char}, e = 'e' ∨ e = 'E' → Plain e := by
    rintro e (rfl | rfl) <;> decide
  have hminus : ∀ c ∈ (if negative then ['-'] else []), Plain c := by
    cases negative <;> simp [Plain]
  have hpoint : ∀ c ∈ fractionText, Plain c := by
    cases hfraction with
    | none => exact fun c hc => by cases hc
    | digits hds => exact List.forall_mem_cons.mpr ⟨by decide, hdigits hds⟩
  have hexp : ∀ c ∈ exponentText, Plain c := by
    cases hexponent with
    | none => exact fun c hc => by cases hc
    | plain he hds => exact List.forall_mem_cons.mpr ⟨hletter he, hdigits hds⟩
    | plus he hds =>
      exact List.forall_mem_cons.mpr ⟨hletter he, List.forall_mem_cons.mpr ⟨by decide, hdigits hds⟩⟩
    | minus he hds =>
      exact List.forall_mem_cons.mpr ⟨hletter he, List.forall_mem_cons.mpr ⟨by decide, hdigits hds⟩⟩
  simp only [List.forall_mem_append]
  exact ⟨hminus, hdigits hwhole.toDigits, hpoint, hexp⟩

/-- Commas do not matter within brackets. -/
theorem balanced_inBrackets {b : Bracket} {texts : List (List Char)}
    (h : ∀ t ∈ texts, Balanced t) : Balanced (inBrackets b texts) := by
  have hjoined : ∀ depth, (outside (depth + 1)).scan ([','].intercalate texts)
      = some (outside (depth + 1)) := by
    intro depth
    induction texts with
    | nil => rfl
    | cons text texts ih =>
      have htext : (outside (depth + 1)).scan text = some (outside (depth + 1)) :=
        h text (List.mem_cons_self ..) (depth + 1)
      cases texts with
      | nil => rwa [List.intercalate_singleton]
      | cons next texts =>
        rw [List.intercalate_cons_cons, List.append_assoc, List.singleton_append, scan_append,
          htext, Option.bind_some, scan_cons, step_comma, Option.bind_some]
        exact ih fun t ht => h t (List.mem_cons_of_mem _ ht)
  intro depth
  rw [inBrackets, scan_cons, step_opener, Option.bind_some, scan_append, hjoined, Option.bind_some,
    scan_cons, step_closer]
  rfl

theorem balanced_of_isKey {key : List Char} (h : IsKey key) : Balanced key := by
  obtain ⟨lead, body, trail, hlead, hbody, htrail, rfl⟩ := h
  have hquoted : Balanced ('"' :: (body ++ ['"']) ++ trail) :=
    (balanced_string hbody).append (balanced_of_blanks htrail)
  rw [List.cons_append, List.append_assoc, List.singleton_append] at hquoted
  exact (balanced_of_blanks hlead).append hquoted

/-- **The text of a value is balanced.** -/
theorem WellFormed.balanced {text : List Char} (h : WellFormed text) : Balanced text := by
  induction h with
  | word hword =>
    simp only [valueWords, List.mem_cons, List.not_mem_nil, or_false] at hword
    rcases hword with rfl | rfl | rfl <;> exact balanced_of_plain (by simp [Plain])
  | number hnumber => exact balanced_of_plain hnumber.plain
  | string hbody => exact balanced_string hbody
  | @empty b blanks hblanks =>
    intro depth
    rw [scan_cons, step_opener, Option.bind_some, scan_append, balanced_of_blanks hblanks,
      Option.bind_some, scan_cons, step_closer]
    rfl
  | array _ ih => exact balanced_inBrackets ih
  | object hkeys _ ih =>
    apply balanced_inBrackets
    intro t ht
    obtain ⟨m, hm, rfl⟩ := List.mem_map.mp ht
    have hcolon : Balanced [':'] := balanced_of_plain (by simp [Plain])
    exact (balanced_of_isKey (hkeys m hm)).append (hcolon.append (ih m hm))
  | padded hlead _ htrail ih =>
    exact (balanced_of_blanks hlead).append (ih.append (balanced_of_blanks htrail))

theorem WellFormed.delimited {text : List Char} (h : WellFormed text) : Delimited text :=
  h.balanced 0

/-! ## Where a delimited text ends -/

/-- What is behind a balanced part of a delimited text is delimited. -/
theorem Delimited.of_append {cs ds : List Char} (hcs : Balanced cs) (h : Delimited (cs ++ ds)) :
    Delimited ds := by
  rw [Delimited, scan_append, hcs 0] at h
  exact h

/-- Neither a comma nor a closing bracket stands at the front of a delimited text. -/
theorem Delimited.not_end {c : Char} {cs : List Char} (h : Delimited (c :: cs)) :
    ¬(c = ',' ∨ c = ']' ∨ c = '}') := by
  intro hc
  rw [Delimited, scan_cons, step_end hc] at h
  cases h

/-- **What can be taken off a delimited text lies within it**, even if the text goes on behind a
comma or a closing bracket. -/
theorem Delimited.of_append_eq {text taken rest behind : List Char} {c : Char}
    (htext : Delimited text) (htaken : Balanced taken) (hc : c = ',' ∨ c = ']' ∨ c = '}')
    (h : text ++ c :: rest = taken ++ behind) :
    ∃ left, text = taken ++ left ∧ Delimited left ∧ behind = left ++ c :: rest := by
  rcases List.append_eq_append_iff.mp h with ⟨beyond, htaken', hbeyond⟩ | ⟨left, htext', hbehind⟩
  · -- What is taken would have to go on behind the text, but the scan refuses to.
    cases beyond with
    | nil =>
      rw [List.append_nil] at htaken'
      exact ⟨[], by rw [List.append_nil, htaken'], rfl, hbeyond.symm⟩
    | cons d beyond =>
      obtain ⟨rfl, -⟩ := List.cons.inj hbeyond
      have hnone : (outside 0).scan (text ++ c :: beyond) = none := by
        rw [scan_append, htext, Option.bind_some, scan_cons, step_end hc]
        rfl
      rw [← htaken', htaken 0] at hnone
      cases hnone
  · rw [htext'] at htext
    exact ⟨left, htext', htext.of_append htaken, hbehind⟩

end ClassTidy.Json
