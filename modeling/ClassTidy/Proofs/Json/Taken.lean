import ClassTidy.Proofs.Json.Skipping

/-!
# What readers take is well-formed

`Reader.TakesOnly` says of every text that a reader takes off the front of another that it is of
some kind, and that the reader takes it in front of any other text too. So what stands behind the
text of a value does not matter:

> `TakesOnly.string`, `TakesOnly.natural`, `TakesOnly.choice`, `TakesOnly.list`,
> `TakesOnly.orderedMap`: readers for values take well-formed texts.
-/

namespace ClassTidy.Json

/-- What the reader takes is of the kind, and is taken whatever stands behind it that does not go
on a numeral. -/
structure Reader.TakesOnly {α : Type} (r : Reader α) (P : List Char → Prop) : Prop where
  of_read : ∀ {cs a rest}, r.read cs = .ok (a, rest) →
    ∃ text, cs = text ++ rest ∧ P text ∧
      ∀ rest', EndsNumeral rest' → r.read (text ++ rest') = .ok (a, rest')

/-- A reader that passes over blanks first is followed from behind them. -/
theorem takesOnly_of_front {α : Type} {r : Reader α} {P : List Char → Prop}
    (hblanks : ∀ cs, r.read (skipBlank cs) = r.read cs)
    (hlead : ∀ {lead text}, Blanks lead → P text → P (lead ++ text))
    (hread : ∀ {c cs a rest}, isBlank c = false → r.read (c :: cs) = .ok (a, rest) →
      ∃ text, c :: cs = text ++ rest ∧ P text ∧
        ∀ rest', EndsNumeral rest' → r.read (text ++ rest') = .ok (a, rest')) :
    r.TakesOnly P where
  of_read {cs a rest} h := by
    obtain ⟨blanks, hb, hcs⟩ := exists_blanks cs
    rw [← hblanks] at h
    cases hskip : skipBlank cs with
    | nil =>
      rw [hskip] at h
      exact absurd (r.length_lt h) (Nat.not_lt_zero _)
    | cons c behind =>
      rw [hskip] at h hcs
      obtain ⟨text, hbehind, htext, hagain⟩ := hread (isBlank_of_skipBlank hskip) h
      refine ⟨blanks ++ text, by rw [hcs, hbehind, List.append_assoc], hlead hb htext, ?_⟩
      intro rest' hrest'
      rw [List.append_assoc, ← hblanks, skipBlank_append hb, hblanks]
      exact hagain rest' hrest'

/-- A text that has lost its blanks has none at its front, whatever follows it. -/
theorem skipBlank_append_of_front {text rest : List Char} (hne : text ≠ [])
    (h : skipBlank (text ++ rest) = text ++ rest) (rest' : List Char) :
    skipBlank (text ++ rest') = text ++ rest' := by
  obtain ⟨c, cs, rfl⟩ := List.exists_cons_of_ne_nil hne
  exact skipBlank_cons (isBlank_of_skipBlank h) _

theorem WellFormed.behindBlanks {lead text : List Char} (hlead : Blanks lead)
    (h : WellFormed text) : WellFormed (lead ++ text) := by
  have hpadded := WellFormed.padded hlead h blanks_nil
  rwa [List.append_nil] at hpadded

/-- A word is taken off the texts that begin with it. -/
theorem word_eq_ok_iff {letters cs rest : List Char} :
    word letters cs = .ok rest ↔ cs = letters ++ rest := by
  induction letters generalizing cs with
  | nil =>
    rw [word, Except.ok.injEq]
    rfl
  | cons w letters ih =>
    cases cs with
    | nil => simp [word]
    | cons c cs =>
      rw [word, List.cons_append, List.cons.injEq]
      split
      next hw => rw [ih, and_iff_right hw.symm]
      next hw =>
        constructor
        · intro h
          cases h
        · intro h
          exact absurd h.1.symm hw

/-- The colon behind a key, and the value. -/
def ColonValue (text : List Char) : Prop :=
  ∃ blanks value, Blanks blanks ∧ WellFormed value ∧ text = blanks ++ ':' :: value

/-- A member of an object. -/
def IsMember (text : List Char) : Prop :=
  ∃ key value, IsKey key ∧ WellFormed value ∧ text = key ++ ':' :: value

theorem IsMember.padded {lead text trail : List Char} (hlead : Blanks lead) (h : IsMember text)
    (htrail : Blanks trail) : IsMember (lead ++ (text ++ trail)) := by
  obtain ⟨key, value, ⟨lead', body, trail', hlead', hbody, htrail', rfl⟩, hvalue, rfl⟩ := h
  refine ⟨lead ++ (lead' ++ '"' :: (body ++ '"' :: trail')), value ++ trail,
    ⟨lead ++ lead', body, trail', hlead.append hlead', hbody, htrail', ?_⟩,
    .padded blanks_nil hvalue htrail, ?_⟩
  · rw [List.append_assoc]
  · simp only [List.append_assoc, List.cons_append]

/-- Members in braces are an object. -/
theorem wellFormed_of_members {texts : List (List Char)} (h : ∀ t ∈ texts, IsMember t) :
    WellFormed (inBrackets .object texts) := by
  have hpairs : ∃ members : List (List Char × List Char), (∀ m ∈ members, IsKey m.1) ∧
      (∀ m ∈ members, WellFormed m.2) ∧ texts = members.map fun m => m.1 ++ ':' :: m.2 := by
    induction texts with
    | nil => exact ⟨[], by simp⟩
    | cons text texts ih =>
      obtain ⟨members, hkeys, hvalues, rfl⟩ := ih fun t ht => h t (List.mem_cons_of_mem _ ht)
      obtain ⟨key, value, hkey, hvalue, rfl⟩ := h text (List.mem_cons_self ..)
      exact ⟨(key, value) :: members, List.forall_mem_cons.mpr ⟨hkey, hkeys⟩,
        List.forall_mem_cons.mpr ⟨hvalue, hvalues⟩, rfl⟩
  obtain ⟨members, hkeys, hvalues, rfl⟩ := hpairs
  exact .object hkeys hvalues

/-! ## Series -/

section Series

variable {σ : Type} {b : Bracket} {item : σ → Reader σ} {P : List Char → Prop}

/-- Whether a comma may stand in front of a text does not depend on what follows the text. -/
theorem afterComma_append {cs lead text rest : List Char} (hlead : Blanks lead) (hne : text ≠ [])
    (h : afterComma b cs = .ok (text ++ rest)) (rest' : List Char) :
    afterComma b (lead ++ (text ++ rest')) = .ok (text ++ rest') := by
  obtain ⟨hfront, hcloser⟩ := afterComma_eq_ok_iff.mp h
  have hnone : skipBlank (text ++ rest) = text ++ rest := by
    rw [← hfront, skipBlank_skipBlank]
  rw [afterComma_eq_ok_iff, skipBlank_append hlead]
  refine ⟨skipBlank_append_of_front hne hnone rest', ?_⟩
  rw [List.head?_append_of_ne_nil _ hne] at hcloser
  rwa [List.head?_append_of_ne_nil _ hne]

/-- What a series takes are texts of its items, with commas between them and blanks around them. -/
theorem exists_of_series (hitem : ∀ s, (item s).TakesOnly P)
    (hpadded : ∀ {lead text trail}, Blanks lead → P text → Blanks trail →
      P (lead ++ (text ++ trail))) {s s' : σ} {cs rest : List Char}
    (h : series b item s cs = .ok (s', rest)) :
    ∃ text texts, cs = [','].intercalate (text :: texts) ++ [b.closer] ++ rest ∧
      (∀ t ∈ text :: texts, P t) ∧
      ∀ rest', series b item s ([','].intercalate (text :: texts) ++ [b.closer] ++ rest')
        = .ok (s', rest') := by
  fun_induction series b item s cs with
  | case1 => cases h
  | case2 => cases h
  | case3 s cs s₁ rest₁ hread rest₂ hskip =>
    -- The series ends behind this item.
    cases h
    obtain ⟨text, rfl, htext, hagain⟩ := (hitem s).of_read hread
    obtain ⟨blanks, hblanks, hrest⟩ := exists_blanks rest₁
    rw [hskip] at hrest
    have htaken : ∀ rest', [','].intercalate [text ++ blanks] ++ [b.closer] ++ rest'
        = text ++ (blanks ++ b.closer :: rest') := by
      simp
    refine ⟨text ++ blanks, [], ?_, ?_, ?_⟩
    · rw [htaken, hrest]
    · have hpad : P ([] ++ (text ++ blanks)) := hpadded blanks_nil htext hblanks
      intro t ht
      rw [List.mem_singleton.mp ht]
      exact hpad
    · intro rest'
      have hends : EndsNumeral (blanks ++ b.closer :: rest') :=
        (b.endsNumeral_closer rest').blanks hblanks
      rw [htaken]
      apply series_closed (hagain _ hends)
      simp [hblanks]
  | case4 => cases h
  | case5 s cs s₁ rest₁ hread rest₂ rest₃ hcomma hskip _ ih =>
    -- It goes on behind a comma, and the blanks there belong to the next item.
    obtain ⟨next, texts, hrest₃, htexts, hagain₃⟩ := ih h
    obtain ⟨text, rfl, htext, hagain⟩ := (hitem s).of_read hread
    obtain ⟨blanks, hblanks, hrest₁⟩ := exists_blanks rest₁
    obtain ⟨blanks₂, hblanks₂, hrest₂⟩ := exists_blanks rest₂
    obtain ⟨hfront, hcloser⟩ := afterComma_eq_ok_iff.mp hcomma
    rw [hskip] at hrest₁
    rw [hfront] at hrest₂
    have htaken : ∀ rest',
        [','].intercalate ((text ++ blanks) :: (blanks₂ ++ next) :: texts) ++ [b.closer] ++ rest'
          = text ++ (blanks ++ ',' ::
            (blanks₂ ++ ([','].intercalate (next :: texts) ++ [b.closer] ++ rest'))) := by
      intro rest'
      rw [List.intercalate_cons_cons, intercalate_append_cons]
      simp only [List.append_assoc, List.cons_append, List.nil_append]
    have hne : [','].intercalate (next :: texts) ++ [b.closer] ≠ [] := by simp
    refine ⟨text ++ blanks, (blanks₂ ++ next) :: texts, ?_, ?_, ?_⟩
    · rw [htaken, ← hrest₃, ← hrest₂, ← hrest₁]
    · have hpad : P ([] ++ (text ++ blanks)) := hpadded blanks_nil htext hblanks
      have hpad₂ : P (blanks₂ ++ (next ++ [])) :=
        hpadded hblanks₂ (htexts next (List.mem_cons_self ..)) blanks_nil
      rw [List.append_nil] at hpad₂
      exact List.forall_mem_cons.mpr ⟨hpad, List.forall_mem_cons.mpr
        ⟨hpad₂, fun t ht => htexts t (List.mem_cons_of_mem _ ht)⟩⟩
    · intro rest'
      have hcomma' := afterComma_append hblanks₂ hne (hrest₃ ▸ hcomma) rest'
      rw [htaken, series_comma (hagain _ ((endsNumeral_cons (by decide) _).blanks hblanks))
        (by simp [hblanks]) hcomma']
      exact hagain₃ rest'
  | case6 => cases h

/-- Brackets around a series are taken as a whole. -/
theorem takesOnly_bracketed (hitem : ∀ s, (item s).TakesOnly P)
    (hpadded : ∀ {lead text trail}, Blanks lead → P text → Blanks trail →
      P (lead ++ (text ++ trail)))
    (hall : ∀ {texts}, (∀ t ∈ texts, P t) → WellFormed (inBrackets b texts)) (wanted : String)
    (start : σ) : (Reader.bracketed b wanted item start).TakesOnly WellFormed := by
  apply takesOnly_of_front _ .behindBlanks
  · intro c cs s rest hblank h
    simp only [Reader.bracketed, enclosed, skipBlank_cons hblank] at h ⊢
    split at h
    next hopener =>
      subst hopener
      obtain ⟨blanks, hblanks, hcs⟩ := exists_blanks cs
      split at h
      next => cases h
      next d behind hskip =>
        rw [hskip] at hcs
        split at h
        next hcloser =>
          -- The brackets hold nothing.
          cases h
          subst hcloser
          refine ⟨b.opener :: (blanks ++ [b.closer]), by simp [hcs], .empty b hblanks, ?_⟩
          intro rest' _
          simp [hblanks]
        next hcloser =>
          obtain ⟨text, texts, hseries, htexts, hagain⟩ := exists_of_series hitem hpadded h
          have htexts' : ∀ t ∈ (blanks ++ text) :: texts, P t := by
            have hpad : P (blanks ++ (text ++ [])) :=
              hpadded hblanks (htexts text (List.mem_cons_self ..)) blanks_nil
            rw [List.append_nil] at hpad
            exact List.forall_mem_cons.mpr
              ⟨hpad, fun t ht => htexts t (List.mem_cons_of_mem _ ht)⟩
          have htaken : ∀ rest', inBrackets b ((blanks ++ text) :: texts) ++ rest'
              = b.opener ::
                (blanks ++ ([','].intercalate (text :: texts) ++ [b.closer] ++ rest')) := by
            intro rest'
            rw [inBrackets, intercalate_append_cons]
            simp only [List.append_assoc, List.cons_append]
          refine ⟨_, by rw [htaken, ← hseries, ← hcs], hall htexts', ?_⟩
          intro rest' _
          obtain ⟨e, es, hjoined⟩ := List.exists_cons_of_ne_nil
            (show [','].intercalate (text :: texts) ++ [b.closer] ≠ [] by simp)
          have hagain' := hagain rest'
          rw [hjoined] at hseries hagain'
          obtain ⟨rfl, -⟩ := List.cons.inj hseries
          rw [htaken, hjoined]
          simp only [skipBlank_cons hblank, if_true, skipBlank_append hblanks, List.cons_append,
            skipBlank_cons (isBlank_of_skipBlank hskip), if_neg hcloser]
          exact hagain'
    next => cases h
  · intro cs
    simp [Reader.bracketed, enclosed]

end Series

/-! ## Each kind of reader -/

namespace Reader.TakesOnly

variable {α β : Type} {r : Reader α} {P : List Char → Prop}

theorem map (h : r.TakesOnly P) (f : α → β) : (r.map f).TakesOnly P where
  of_read {cs b rest} hread := by
    simp only [Reader.map] at hread ⊢
    split at hread
    next a rest' ha =>
      cases hread
      obtain ⟨text, hcs, htext, hagain⟩ := h.of_read ha
      refine ⟨text, hcs, htext, ?_⟩
      intro rest' hrest'
      rw [hagain rest' hrest']
    next => cases hread

theorem string (wanted : String) : (Reader.string wanted).TakesOnly WellFormed := by
  apply takesOnly_of_front _ .behindBlanks
  · intro c cs s rest hblank h
    simp only [Reader.string, skipBlank_cons hblank] at h ⊢
    split at h
    next hquote =>
      subst hquote
      split at h
      next => cases h
      next ds behind hliteral =>
        cases h
        obtain ⟨us, rfl, hus⟩ := spells_of_literal hliteral
        refine ⟨'"' :: (us ++ ['"']), by simp, .string hus.stringBody, ?_⟩
        intro rest' _
        simp [literal_of_spells hus]
    next => cases h
  · intro cs
    simp [Reader.string]

theorem natural (wanted : String) : (Reader.natural wanted).TakesOnly WellFormed := by
  apply takesOnly_of_front _ .behindBlanks
  · intro c cs n rest hblank h
    simp only [Reader.natural, skipBlank_cons hblank] at h ⊢
    split at h
    next hc =>
      split at h
      next => cases h
      next m behind hnumber =>
        split at h
        next hm =>
          cases h
          obtain ⟨x, text, htext, hcs, hagain⟩ := exists_of_number hnumber
          refine ⟨text, hcs, .number htext, ?_⟩
          intro rest' hrest'
          have hagain' := hagain rest' hrest'
          obtain ⟨d, ds, rfl, _⟩ := htext.exists_cons
          obtain ⟨rfl, -⟩ := List.cons.inj hcs
          rw [List.cons_append] at hagain'
          simp only [List.cons_append, skipBlank_cons hblank, if_pos hc, hagain', if_pos hm]
        next => cases h
      next => cases h
    next => cases h
  · intro cs
    simp [Reader.natural]

theorem null (wanted : String) : (Reader.null wanted).TakesOnly WellFormed := by
  apply takesOnly_of_front _ .behindBlanks
  · intro c cs u rest hblank h
    simp only [Reader.null, skipBlank_cons hblank] at h ⊢
    split at h
    next hn =>
      subst hn
      split at h
      next => cases h
      next behind hword =>
        cases h
        rw [word_eq_ok_iff.mp hword]
        refine ⟨['n', 'u', 'l', 'l'], rfl, .word (by decide), ?_⟩
        intro rest' _
        have hword' : word ['u', 'l', 'l'] ('u' :: 'l' :: 'l' :: rest') = .ok rest' :=
          word_eq_ok_iff.mpr rfl
        simp only [List.cons_append, List.nil_append, skipBlank_cons hblank, if_true, hword']
    next => cases h
  · intro cs
    simp [Reader.null]

theorem afterColon (h : r.TakesOnly WellFormed) : r.afterColon.TakesOnly ColonValue := by
  apply takesOnly_of_front
  · intro cs
    simp [Reader.afterColon, colon]
  · rintro lead _ hlead ⟨blanks, value, hblanks, hvalue, rfl⟩
    exact ⟨lead ++ blanks, value, hlead.append hblanks, hvalue, (List.append_assoc ..).symm⟩
  · intro c cs a rest hblank hread
    simp only [Reader.afterColon, colon, skipBlank_cons hblank] at hread ⊢
    split at hread
    next behind hcolon =>
      split at hcolon
      next hc =>
        cases hcolon
        subst hc
        obtain ⟨value, rfl, hvalue, hagain⟩ := h.of_read hread
        refine ⟨':' :: value, rfl, ⟨[], value, blanks_nil, hvalue, rfl⟩, ?_⟩
        intro rest' hrest'
        simp only [List.cons_append, skipBlank_cons hblank, if_true]
        exact hagain rest' hrest'
      next => cases hcolon
    next => cases hread

theorem member {value : String → Reader α} (h : ∀ key, (value key).TakesOnly ColonValue) :
    (Reader.member value).TakesOnly IsMember := by
  apply takesOnly_of_front
  · intro cs
    simp [Reader.member]
  · intro lead text hlead htext
    have hpadded := htext.padded hlead blanks_nil
    rwa [List.append_nil] at hpadded
  · intro c cs a rest hblank hread
    simp only [Reader.member, skipBlank_cons hblank] at hread ⊢
    split at hread
    next hquote =>
      subst hquote
      split at hread
      next => cases hread
      next key behind hliteral =>
        obtain ⟨us, rfl, hus⟩ := spells_of_literal hliteral
        obtain ⟨_, rfl, ⟨blanks, v, hblanks, hv, rfl⟩, hagain⟩ := (h _).of_read hread
        have hkey : IsKey ('"' :: (us ++ '"' :: blanks)) :=
          ⟨[], us, blanks, blanks_nil, hus.stringBody, hblanks, rfl⟩
        refine ⟨'"' :: (us ++ '"' :: blanks) ++ ':' :: v, by simp, ⟨_, v, hkey, hv, rfl⟩, ?_⟩
        intro rest' hrest'
        have hagain' := hagain rest' hrest'
        rw [List.append_assoc, List.cons_append] at hagain'
        simp only [List.append_assoc, List.cons_append, skipBlank_cons hblank, if_true,
          literal_of_spells hus]
        exact hagain'
    next => cases hread

theorem list (h : r.TakesOnly WellFormed) : (Reader.list r).TakesOnly WellFormed :=
  takesOnly_bracketed (fun _ => h.map _) .padded .array "a sequence" []

theorem orderedMap (h : r.TakesOnly WellFormed) : (Reader.orderedMap r).TakesOnly WellFormed :=
  takesOnly_bracketed (fun _ => member fun _ => h.afterColon.map _) .padded wellFormed_of_members
    "a map" ∅

/-- The only member of an object is taken with the brace that closes it. -/
theorem named (ofName : String → α) :
    (Reader.choice.named ofName).TakesOnly fun text => ∃ m, IsMember m ∧ text = m ++ ['}'] where
  of_read {cs a rest} h := by
    have hmember : (Reader.member fun name =>
        (Reader.null "unit").afterColon.map fun _ => ofName name).TakesOnly IsMember :=
      member fun _ => (null "unit").afterColon.map _
    simp only [Reader.choice.named, Reader.andThen] at h ⊢
    split at h
    next => cases h
    next a' behind hread =>
      obtain ⟨m, rfl, hm, hagain⟩ := hmember.of_read hread
      split at h
      next => cases h
      next u rest' hbrace =>
        cases h
        obtain ⟨blanks, hblanks, hbehind⟩ := exists_blanks behind
        simp only [Reader.lastBrace] at hbrace
        split at hbrace
        next => cases hbrace
        next d behind' hskip =>
          split at hbrace
          next hd =>
            cases hbrace
            rw [hskip, hd] at hbehind
            refine ⟨m ++ blanks ++ ['}'], by simp [hbehind],
              ⟨m ++ blanks, hm.padded blanks_nil hblanks, rfl⟩, ?_⟩
            intro rest' _
            have hends : EndsNumeral (blanks ++ '}' :: rest') :=
              (endsNumeral_cons (by decide) _).blanks hblanks
            simp [hagain _ hends, Reader.lastBrace, hblanks]
          next => cases hbrace

theorem choice (ofName : String → α) : (Reader.choice ofName).TakesOnly WellFormed := by
  apply takesOnly_of_front _ .behindBlanks
  · intro c cs a rest hblank h
    simp only [Reader.choice, skipBlank_cons hblank] at h ⊢
    split at h
    next hquote =>
      obtain ⟨text, hcs, htext, hagain⟩ := ((string "a string").map ofName).of_read h
      refine ⟨text, hcs, htext, ?_⟩
      intro rest' hrest'
      have hagain' := hagain rest' hrest'
      obtain ⟨d, ds, rfl⟩ := List.exists_cons_of_ne_nil htext.ne_nil
      obtain ⟨rfl, -⟩ := List.cons.inj hcs
      rw [List.cons_append] at hagain' ⊢
      simp only [skipBlank_cons hblank, if_pos hquote]
      exact hagain'
    next hquote =>
      split at h
      next hbrace =>
        subst hbrace
        obtain ⟨blanks, hblanks, hcs⟩ := exists_blanks cs
        split at h
        next => cases h
        next d behind hskip =>
          rw [hskip] at hcs
          split at h
          next => cases h
          next hd =>
            obtain ⟨_, hbehind, ⟨m, hm, rfl⟩, hagain⟩ := (named ofName).of_read h
            have hobject : ∀ t ∈ [blanks ++ m], IsMember t := by
              have hpadded := hm.padded hblanks blanks_nil
              rw [List.append_nil] at hpadded
              exact List.forall_mem_singleton.mpr hpadded
            have htaken : ∀ rest', inBrackets .object [blanks ++ m] ++ rest'
                = '{' :: (blanks ++ (m ++ ['}'] ++ rest')) := by
              intro rest'
              simp [inBrackets, Bracket.opener, Bracket.closer]
            refine ⟨_, by rw [htaken, ← hbehind, ← hcs], wellFormed_of_members hobject, ?_⟩
            intro rest' hrest'
            have hagain' := hagain rest' hrest'
            obtain ⟨e, es, hjoined⟩ := List.exists_cons_of_ne_nil (show m ++ ['}'] ≠ [] by simp)
            rw [hjoined] at hbehind hagain'
            obtain ⟨rfl, -⟩ := List.cons.inj hbehind
            rw [htaken, hjoined]
            simp only [skipBlank_cons hblank, if_neg hquote, if_true, skipBlank_append hblanks,
              List.cons_append, skipBlank_cons (isBlank_of_skipBlank hskip), if_neg hd]
            exact hagain'
      next => cases h
  · intro cs
    simp [Reader.choice]

end Reader.TakesOnly

end ClassTidy.Json
