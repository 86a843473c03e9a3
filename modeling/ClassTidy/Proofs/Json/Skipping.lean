import ClassTidy.Json.Skip
import ClassTidy.Proofs.Json.Series
import ClassTidy.Proofs.Json.Strings

/-!
# Passing over what is well-formed

A value is passed over with a list of the brackets that are open around it. What is well-formed
leads from its own place to the place behind it, with the same brackets open (`PassedOver`); by
induction on the grammar, series in brackets are passed over entry by entry. So

> `skipValue_of_wellFormed`: every well-formed value is passed over, however deep it is nested.
-/

namespace ClassTidy.Json

variable {outer : List Bracket} {cs rest : List Char}

/-- What is done behind a complete value: brackets are closed, and the next value is passed over. -/
def resume (outer : List Bracket) (cs : List Char) : Except Fault (List Char) :=
  match closeBrackets outer cs with
  | .error e => .error e
  | .ok ([], rest) => .ok rest
  | .ok (b :: outer', rest) => skipWithin (b :: outer') rest

/-- What is done where an entry of a series in brackets is due. -/
def enter (b : Bracket) (outer : List Bracket) (cs : List Char) : Except Fault (List Char) :=
  match b with
  | .array => skipWithin (.array :: outer) cs
  | .object =>
    match skipKey cs with
    | .error e => .error e
    | .ok rest => skipWithin (.object :: outer) rest

/-! ## Steps -/

/-- A step that leads to the place of a value. -/
theorem skipWithin_of_place {b : Bracket} {outer' : List Bracket}
    (h : skipStep outer cs = .ok (b :: outer', rest)) :
    skipWithin outer cs = skipWithin (b :: outer') rest := by
  rw [skipWithin]
  split
  next he => rw [h] at he; cases he
  next he => rw [h] at he; cases he
  next he => rw [h] at he; cases he; rfl

/-- A step that leads behind a complete value. -/
theorem skipWithin_of_complete {outer' : List Bracket}
    (h : skipStep outer cs = closeBrackets outer' rest) :
    skipWithin outer cs = resume outer' rest := by
  rw [skipWithin, resume, ← h]
  split
  next he => rw [he]
  next he => rw [he]
  next he => rw [he]

theorem skipWithin_of_error {e : Fault} (h : skipStep outer cs = .error e) :
    skipWithin outer cs = .error e := by
  rw [skipWithin]
  split
  next he => rw [h] at he; cases he; rfl
  next he => rw [h] at he; cases he
  next he => rw [h] at he; cases he

/-- Blanks in front of a value do not matter. -/
theorem skipWithin_skipBlank (outer : List Bracket) (cs : List Char) :
    skipWithin outer (skipBlank cs) = skipWithin outer cs := by
  have hstep : skipStep outer (skipBlank cs) = skipStep outer cs := by
    unfold skipStep
    rw [skipBlank_skipBlank]
  cases h : skipStep outer cs with
  | error e => rw [skipWithin_of_error h, skipWithin_of_error (hstep.trans h)]
  | ok p =>
    obtain ⟨outer', rest⟩ := p
    cases outer' with
    | nil =>
      have hclose : skipStep outer cs = closeBrackets [] rest := h
      rw [skipWithin_of_complete hclose, skipWithin_of_complete (hstep.trans hclose)]
    | cons b outer' => rw [skipWithin_of_place h, skipWithin_of_place (hstep.trans h)]

/-- A comma behind an entry leads to the next one. -/
theorem resume_comma (b : Bracket) {blanks : List Char} (h : Blanks blanks) (cs : List Char) :
    resume (b :: outer) (blanks ++ ',' :: cs) = enter b outer cs := by
  simp only [resume, closeBrackets, skipBlank_append h, isBlank_punctuation, skipBlank_cons,
    if_true]
  cases b with
  | array => rfl
  | object =>
    rw [enter]
    cases skipKey cs with
    | error e => rfl
    | ok rest => rfl

/-- The closing bracket behind the last entry completes what is in the brackets. -/
theorem resume_closer (b : Bracket) {blanks : List Char} (h : Blanks blanks) (cs : List Char) :
    resume (b :: outer) (blanks ++ b.closer :: cs) = resume outer cs := by
  have hclose : closeBrackets (b :: outer) (blanks ++ b.closer :: cs) = closeBrackets outer cs := by
    simp [closeBrackets, h, b.comma_ne_closer.symm]
  rw [resume, hclose, resume]

theorem skipStep_opener (b : Bracket) (outer : List Bracket) (cs : List Char) :
    skipStep outer (b.opener :: cs) = openBracket b outer cs := by
  unfold skipStep
  cases b <;> rfl

/-- Brackets that hold nothing are complete. -/
theorem skipWithin_empty (b : Bracket) {blanks : List Char} (h : Blanks blanks) (cs : List Char) :
    skipWithin outer (b.opener :: (blanks ++ b.closer :: cs)) = resume outer cs := by
  apply skipWithin_of_complete
  simp [skipStep_opener, openBracket, h]

/-- An opening bracket in front of something else leads to the first entry. -/
theorem skipWithin_opener (b : Bracket) {c : Char} (h : skipBlank cs = c :: rest)
    (hc : c ≠ b.closer) : skipWithin outer (b.opener :: cs) = enter b outer cs := by
  cases b with
  | array =>
    have hstep : skipStep outer ('[' :: cs) = .ok (.array :: outer, c :: rest) := by
      rw [show '[' = Bracket.array.opener from rfl, skipStep_opener, openBracket, h]
      exact if_neg hc
    show skipWithin outer ('[' :: cs) = skipWithin (.array :: outer) cs
    rw [skipWithin_of_place hstep, ← h, skipWithin_skipBlank]
  | object =>
    have hkey : skipKey (c :: rest) = skipKey cs := by
      rw [← h, skipKey, skipBlank_skipBlank, ← skipKey]
    have hstep : skipStep outer ('{' :: cs) = match skipKey cs with
        | .error e => .error e
        | .ok rest' => .ok (.object :: outer, rest') := by
      rw [show '{' = Bracket.object.opener from rfl, skipStep_opener, openBracket, h, ← hkey]
      exact if_neg hc
    show skipWithin outer ('{' :: cs) = match skipKey cs with
      | .error e => .error e
      | .ok rest' => skipWithin (.object :: outer) rest'
    cases hskip : skipKey cs with
    | error e =>
      rw [hskip] at hstep
      exact skipWithin_of_error hstep
    | ok rest' =>
      rw [hskip] at hstep
      exact skipWithin_of_place hstep

/-! ## Entries -/

/-- A text leads from the place of a value to the place behind it, up to blanks. -/
def PassedOver (text : List Char) : Prop :=
  ∃ trail, Blanks trail ∧ ∀ outer rest, EndsNumeral rest →
    skipWithin outer (text ++ rest) = resume outer (trail ++ rest)

/-- A text leads from the place of an entry of a series in brackets to the place behind it. -/
def EntryPassedOver (b : Bracket) (text : List Char) : Prop :=
  ∃ trail, Blanks trail ∧ ∀ outer rest, EndsNumeral rest →
    enter b outer (text ++ rest) = resume (b :: outer) (trail ++ rest)

theorem PassedOver.entry {text : List Char} (h : PassedOver text) :
    EntryPassedOver .array text := by
  obtain ⟨trail, htrail, hskip⟩ := h
  exact ⟨trail, htrail, fun outer rest hrest => hskip (.array :: outer) rest hrest⟩

/-- A key and its colon lead to the value. -/
theorem skipKey_of_isKey {key : List Char} (h : IsKey key) (rest : List Char) :
    skipKey (key ++ ':' :: rest) = .ok rest := by
  obtain ⟨lead, body, trail, hlead, hbody, htrail, rfl⟩ := h
  have hcolon : colon (trail ++ ':' :: rest) = .ok rest := by
    simp [colon, htrail]
  simp [skipKey, hlead, skipLiteral_of_stringBody hbody, hcolon]

theorem PassedOver.member {key text : List Char} (hkey : IsKey key) (h : PassedOver text) :
    EntryPassedOver .object (key ++ ':' :: text) := by
  obtain ⟨trail, htrail, hskip⟩ := h
  refine ⟨trail, htrail, ?_⟩
  intro outer rest hrest
  rw [List.append_assoc, List.cons_append, enter, skipKey_of_isKey hkey]
  exact hskip (.object :: outer) rest hrest

/-- Entries up to the closing bracket complete what is in the brackets. -/
theorem enter_of_entries {b : Bracket} {text : List Char} {texts : List (List Char)}
    (h : ∀ t ∈ text :: texts, EntryPassedOver b t) (outer : List Bracket) (rest : List Char) :
    enter b outer ([','].intercalate (text :: texts) ++ b.closer :: rest) = resume outer rest := by
  -- By induction on the texts behind the first one: the closing bracket follows it, or a comma.
  obtain ⟨trail, htrail, hskip⟩ := h text (List.mem_cons_self ..)
  induction texts generalizing text trail with
  | nil =>
    rw [List.intercalate_singleton, hskip _ _ (b.endsNumeral_closer rest), resume_closer b htrail]
  | cons next texts ih =>
    obtain ⟨trail', htrail', hskip'⟩ :=
      h next (List.mem_cons_of_mem _ (List.mem_cons_self ..))
    rw [List.intercalate_cons_cons, List.append_assoc, List.append_assoc, List.singleton_append,
      hskip _ _ (endsNumeral_cons (by decide) _), resume_comma b htrail]
    exact ih (fun t ht => h t (List.mem_cons_of_mem _ ht)) trail' htrail' hskip'

/-! ## Values -/

/-- Entries in brackets are passed over. -/
theorem passedOver_inBrackets {b : Bracket} {texts : List (List Char)}
    (hstarts : ∀ t ∈ texts, StartsEntry t) (h : ∀ t ∈ texts, EntryPassedOver b t) :
    PassedOver (inBrackets b texts) := by
  refine ⟨[], blanks_nil, ?_⟩
  intro outer rest _
  cases texts with
  | nil => exact skipWithin_empty b blanks_nil rest
  | cons text texts =>
    have htext : inBrackets b (text :: texts) ++ rest
        = b.opener :: ([','].intercalate (text :: texts) ++ b.closer :: rest) := by
      simp [inBrackets]
    obtain ⟨c, cs, hcs, hc⟩ :=
      (hstarts text (List.mem_cons_self ..)).intercalate texts (b.closer :: rest)
    rw [htext, skipWithin_opener b hcs (Bracket.closer_ne hc)]
    exact enter_of_entries h outer rest

/-- A value that is neither array nor object is passed over at once. -/
theorem passedOver_scalar {c : Char} {cs : List Char} (hblank : isBlank c = false)
    (hc : c ≠ '[' ∧ c ≠ '{')
    (h : ∀ rest, EndsNumeral rest → skipScalar (c :: cs ++ rest) = .ok rest) :
    PassedOver (c :: cs) := by
  refine ⟨[], blanks_nil, ?_⟩
  intro outer rest hrest
  apply skipWithin_of_complete
  have hscalar := h rest hrest
  rw [List.cons_append] at hscalar ⊢
  rw [skipStep, skipBlank_cons hblank]
  simp only [if_neg hc.1, if_neg hc.2, hscalar, List.nil_append]

/-- Which character a numeral begins with tells it from every other value. -/
theorem skipScalar_number {c : Char} {cs : List Char} (hc : c = '-' ∨ c.isDigit = true) :
    skipScalar (c :: cs) = (numeral .badNumeral (c :: cs)).map Prod.snd := by
  have hne : ∀ {d : Char}, d ≠ '-' → d.isDigit = false → c ≠ d := by
    rintro d hminus hdigit rfl
    rcases hc with hc | hc
    · exact hminus hc
    · exact Bool.false_ne_true (hdigit.symm.trans hc)
  rw [skipScalar, if_neg (hne (by decide) (by decide)), if_neg (hne (by decide) (by decide)),
    if_neg (hne (by decide) (by decide)), if_neg (hne (by decide) (by decide)), if_pos hc]

theorem WellFormed.passedOver {text : List Char} (h : WellFormed text) : PassedOver text := by
  induction h with
  | word hword =>
    simp only [valueWords, List.mem_cons, List.not_mem_nil, or_false] at hword
    rcases hword with rfl | rfl | rfl
    all_goals exact passedOver_scalar (by decide) (by decide) fun rest _ => rfl
  | number hnumber =>
    obtain ⟨c, cs, rfl, hc⟩ := hnumber.exists_cons
    have hplain : isBlank c = false ∧ c ≠ '[' ∧ c ≠ '{' := by
      rcases hc with rfl | hc
      · decide
      · refine ⟨(not_special_of_isDigit hc).1, ?_, ?_⟩ <;> rintro rfl <;> cases hc
    apply passedOver_scalar hplain.1 hplain.2
    intro rest hrest
    rw [List.cons_append, skipScalar_number hc, ← List.cons_append, numeral_append hnumber hrest]
    rfl
  | @string body hbody =>
    apply passedOver_scalar (by decide) (by decide)
    intro rest _
    have hskip : skipScalar ('"' :: (body ++ '"' :: rest)) = skipLiteral (body ++ '"' :: rest) :=
      rfl
    rw [List.cons_append, List.append_assoc, List.singleton_append, hskip,
      skipLiteral_of_stringBody hbody]
  | @empty b blanks hblanks =>
    refine ⟨[], blanks_nil, ?_⟩
    intro outer rest _
    rw [List.cons_append, List.append_assoc, List.singleton_append, skipWithin_empty b hblanks,
      List.nil_append]
  | array hitems ih =>
    exact passedOver_inBrackets (fun t ht => (hitems t ht).startsEntry) fun t ht => (ih t ht).entry
  | object hkeys _ ih =>
    apply passedOver_inBrackets
    · intro t ht
      obtain ⟨m, hm, rfl⟩ := List.mem_map.mp ht
      exact startsEntry_of_isKey (hkeys m hm) _
    · intro t ht
      obtain ⟨m, hm, rfl⟩ := List.mem_map.mp ht
      exact (ih m hm).member (hkeys m hm)
  | @padded lead cs trail hlead _ htrail ih =>
    obtain ⟨trail', htrail', hskip⟩ := ih
    refine ⟨trail' ++ trail, htrail'.append htrail, ?_⟩
    intro outer rest hrest
    have hblank : skipWithin outer (lead ++ (cs ++ trail) ++ rest)
        = skipWithin outer (cs ++ (trail ++ rest)) := by
      rw [← skipWithin_skipBlank, List.append_assoc, skipBlank_append hlead, skipWithin_skipBlank,
        List.append_assoc]
    rw [hblank, hskip outer (trail ++ rest) (hrest.blanks htrail), List.append_assoc]

/-- **Every well-formed value is passed over**, up to blanks behind it. -/
theorem skipValue_of_wellFormed {text : List Char} (h : WellFormed text) :
    ∃ trail, Blanks trail ∧ ∀ rest, EndsNumeral rest →
      skipValue (text ++ rest) = .ok (trail ++ rest) := by
  obtain ⟨trail, htrail, hskip⟩ := h.passedOver
  refine ⟨trail, htrail, ?_⟩
  intro rest hrest
  rw [skipValue, hskip [] rest hrest]
  rfl

end ClassTidy.Json
