import ClassTidy.Json.Record
import ClassTidy.Proofs.Json.Delimited
import ClassTidy.Proofs.Json.Taken

/-!
# Objects, member by member

A text is given to a reader in front of a comma or a closing bracket. `Reader.Decides` says what
comes of it in all such places alike: the reader gives one value, up to blanks, or it refuses the
text, be it with a fault or by leaving something behind that is neither comma nor bracket. The value
of a member is a delimited text, and is decided by what the reader makes of the text alone
(`decides_given`). Then so is a whole series:

> `toOption_read_inBrackets`: a series in brackets is read as its items are decided, in order;
> `read_inBrackets`: if all of them are given, the series is read as what they lead to.
-/

namespace ClassTidy.Json

variable {α β σ : Type}

/-- The characters that may follow a value within brackets. -/
def IsEnd (c : Char) : Prop :=
  c = ',' ∨ c = ']' ∨ c = '}'

namespace Reader

/-- The reader gives the value for the text, and leaves nothing of it but blanks. -/
def Gives (r : Reader α) (text : List Char) (a : α) : Prop :=
  ∃ trail, Blanks trail ∧ ∀ rest, EndsNumeral rest → r.read (text ++ rest) = .ok (a, trail ++ rest)

/-- The reader does not get from the text to what follows it. -/
def Refuses (r : Reader α) (text : List Char) : Prop :=
  ∀ {c rest a behind}, IsEnd c → r.read (text ++ c :: rest) = .ok (a, behind) →
    ∃ d behind', skipBlank behind = d :: behind' ∧ ¬IsEnd d

/-- What comes of the text, wherever it stands. -/
def Decides (r : Reader α) (text : List Char) : Option α → Prop
  | some a => r.Gives text a
  | none => r.Refuses text

/-- What the reader makes of a text that stands alone before a closing brace. -/
def given? (r : Reader α) (text : List Char) : Option α :=
  match r.read (text ++ ['}']) with
  | .ok (a, rest) => if skipBlank rest = ['}'] then some a else none
  | .error _ => none

end Reader

/-! ## Values -/

theorem IsEnd.endsNumeral {c : Char} (h : IsEnd c) (rest : List Char) :
    EndsNumeral (c :: rest) := by
  rcases h with rfl | rfl | rfl <;> exact endsNumeral_cons (by decide) rest

/-- A delimited text is blank, or it goes on with something that may not follow a value. -/
theorem Delimited.blanks_or {text : List Char} (h : Delimited text) :
    Blanks text ∨ ∃ d cs, skipBlank text = d :: cs ∧ ¬IsEnd d := by
  obtain ⟨blanks, hblanks, htext⟩ := exists_blanks text
  cases hskip : skipBlank text with
  | nil =>
    rw [hskip, List.append_nil] at htext
    exact Or.inl (htext ▸ hblanks)
  | cons d cs =>
    rw [htext, hskip] at h
    exact Or.inr ⟨d, cs, rfl, (h.of_append (balanced_of_blanks hblanks)).not_end⟩

theorem Reader.given?_of_gives {r : Reader α} {text : List Char} {a : α} (h : r.Gives text a) :
    r.given? text = some a := by
  obtain ⟨trail, htrail, hread⟩ := h
  have hbrace : r.read (text ++ ['}']) = .ok (a, trail ++ ['}']) :=
    hread ['}'] (endsNumeral_cons (by decide) [])
  simp [given?, hbrace, htrail]

/-- A value that is read off a delimited text is given for it, or something is left that may not
follow a value. -/
theorem Reader.TakesOnly.gives_or {r : Reader α} (h : r.TakesOnly WellFormed)
    {text : List Char} (htext : Delimited text) {c : Char} (hc : IsEnd c) {rest behind : List Char}
    {a : α} (hread : r.read (text ++ c :: rest) = .ok (a, behind)) :
    r.Gives text a ∨ ∃ d behind', skipBlank behind = d :: behind' ∧ ¬IsEnd d := by
  obtain ⟨taken, hcs, htaken, hagain⟩ := h.of_read hread
  obtain ⟨left, rfl, hleft, rfl⟩ := htext.of_append_eq htaken.balanced hc hcs
  rcases hleft.blanks_or with hblanks | ⟨d, cs, hskip, hd⟩
  · refine Or.inl ⟨left, hblanks, ?_⟩
    intro rest' hrest'
    rw [List.append_assoc]
    exact hagain _ (hrest'.blanks hblanks)
  · exact Or.inr ⟨d, cs ++ c :: rest, skipBlank_append_cons hskip _, hd⟩

/-- **A delimited text is decided by what is made of it alone.** -/
theorem Reader.TakesOnly.decides_given {r : Reader α} (h : r.TakesOnly WellFormed)
    {text : List Char} (htext : Delimited text) : r.Decides text (r.given? text) := by
  by_cases hgives : ∃ a, r.Gives text a
  · obtain ⟨a, ha⟩ := hgives
    rw [given?_of_gives ha]
    exact ha
  · have hnone : r.given? text = none := by
      unfold given?
      split
      next a behind hread =>
        rw [if_neg]
        intro hskip
        rcases h.gives_or htext (Or.inr (Or.inr rfl)) hread with ha | ⟨d, cs, hd, hend⟩
        · exact hgives ⟨a, ha⟩
        · rw [hskip] at hd
          cases hd
          exact hend (Or.inr (Or.inr rfl))
      next => rfl
    rw [hnone]
    intro c rest a behind hc hread
    rcases h.gives_or htext hc hread with ha | hleft
    · exact absurd ⟨a, ha⟩ hgives
    · exact hleft

namespace Reader.Decides

variable {r : Reader α} {text : List Char} {a? : Option α}

/-- A reader that goes on to another one decides what that one does. -/
theorem of_read_eq {r' : Reader α} {text' : List Char} (h : r.Decides text a?)
    (hread : ∀ rest, r'.read (text' ++ rest) = r.read (text ++ rest)) : r'.Decides text' a? := by
  cases a? with
  | some a =>
    obtain ⟨trail, htrail, hr⟩ := h
    exact ⟨trail, htrail, fun rest hrest => by rw [hread, hr rest hrest]⟩
  | none =>
    intro c rest a behind hc hr
    rw [hread] at hr
    exact h hc hr

theorem map (h : r.Decides text a?) (f : α → β) : (r.map f).Decides text (a?.map f) := by
  cases a? with
  | some a =>
    obtain ⟨trail, htrail, hread⟩ := h
    refine ⟨trail, htrail, ?_⟩
    intro rest hrest
    simp only [Reader.map, hread rest hrest]
  | none =>
    intro c rest b behind hc hread
    simp only [Reader.map] at hread
    split at hread
    next a behind' ha =>
      cases hread
      exact h hc ha
    next => cases hread

theorem afterColon (h : r.Decides text a?) {gap : List Char} (hgap : Blanks gap) :
    r.afterColon.Decides (gap ++ ':' :: text) a? := by
  apply h.of_read_eq
  intro rest
  have hcolon : colon (gap ++ ':' :: (text ++ rest)) = .ok (text ++ rest) := by
    simp [colon, hgap]
  rw [List.append_assoc, List.cons_append]
  simp only [Reader.afterColon, hcolon]

/-- What a member is decided to be depends on its name, not on how its key is spelled. -/
theorem member (value : String → Reader α) {name : String} (h : (value name).Decides text a?)
    {lead key : List Char} (hlead : Blanks lead) (hkey : Spells key name.toList) :
    (Reader.member value).Decides (lead ++ '"' :: (key ++ '"' :: text)) a? := by
  apply h.of_read_eq
  intro rest
  simp [Reader.member, hlead, literal_of_spells hkey]

/-- A well-formed value is passed over. -/
theorem skipped (h : WellFormed text) : Reader.skipped.Decides text (some ()) := by
  obtain ⟨trail, htrail, hskip⟩ := skipValue_of_wellFormed h
  refine ⟨trail, htrail, ?_⟩
  intro rest hrest
  simp only [Reader.skipped, hskip rest hrest]

theorem fail (fault : List Char → Fault) (text : List Char) :
    (Reader.fail fault : Reader α).Decides text none := by
  intro c rest a behind _ hread
  cases hread

end Reader.Decides

@[simp] theorem toOption_eq_some_iff {ε α : Type} {x : Except ε α} {a : α} :
    x.toOption = some a ↔ x = .ok a := by
  cases x <;> simp [Except.toOption]

/-- Whether a given text is read as a value can be decided, though defects are not compared. -/
theorem ofText_of_toOption {α : Type} {r : Reader α} {text : String} {a : α}
    (h : (r.ofText text).toOption = some a) : r.ofText text = .ok a :=
  toOption_eq_some_iff.mp h

theorem Reader.toOption_read_map (r : Reader α) (f : α → β) (cs : List Char) :
    ((r.map f).read cs).toOption = ((r.read cs).toOption).map fun p => (f p.1, p.2) := by
  simp only [Reader.map]
  cases r.read cs <;> rfl

/-- A text that is read to its end is read as a whole. -/
theorem Reader.toOption_ofText {r : Reader α} {text : List Char} {a? : Option α}
    (h : (r.read text).toOption = a?.map (·, [])) :
    (r.ofText (String.ofList text)).toOption = a? := by
  rw [ofText, String.toList_ofList]
  cases hread : r.read text with
  | error e =>
    rw [hread] at h
    exact (Option.map_eq_none_iff.mp h.symm).symm
  | ok p =>
    rw [hread] at h
    obtain ⟨a, ha, hp⟩ := Option.map_eq_some_iff.mp h.symm
    rw [ha, ← hp]
    rfl

/-! ## Series -/

section Series

variable {ι : Type} {b : Bracket} {item : σ → Reader σ} {text : ι → List Char}
  {next : σ → ι → Option σ}

theorem isEnd_closer (b : Bracket) : IsEnd b.closer := by
  cases b with
  | array => exact Or.inr (Or.inl rfl)
  | object => exact Or.inr (Or.inr rfl)

/-- An item that is refused ends the series. -/
theorem toOption_series_of_refuses {i : List Char} {s : σ} (h : (item s).Refuses i) {c : Char}
    (hc : IsEnd c) (rest : List Char) : (series b item s (i ++ c :: rest)).toOption = none := by
  rw [series_eq]
  cases hread : (item s).read (i ++ c :: rest) with
  | error e => rfl
  | ok p =>
    obtain ⟨s', behind⟩ := p
    obtain ⟨d, behind', hskip, hd⟩ := h hc hread
    have hcloser : d ≠ b.closer := fun heq => hd (heq ▸ isEnd_closer b)
    have hcomma : d ≠ ',' := fun heq => hd (Or.inl heq)
    simp only [hskip, if_neg hcloser, if_neg hcomma]
    rfl

/-- The last item of a series decides it. -/
theorem toOption_series_closed {i : List Char} {s : σ} {s? : Option σ}
    (h : (item s).Decides i s?) (rest : List Char) :
    (series b item s (i ++ b.closer :: rest)).toOption = s?.map (·, rest) := by
  cases s? with
  | none => exact toOption_series_of_refuses h (isEnd_closer b) rest
  | some s' =>
    obtain ⟨trail, htrail, hread⟩ := h
    have hclosed : skipBlank (trail ++ b.closer :: rest) = b.closer :: rest := by
      simp [htrail]
    rw [series_closed (hread _ (b.endsNumeral_closer rest)) hclosed]
    rfl

/-- Behind a comma the series goes on with what the item before it gives. -/
theorem toOption_series_comma (hblanks : ∀ s cs, (item s).read (skipBlank cs) = (item s).read cs)
    {i : List Char} {s : σ} {s? : Option σ} (h : (item s).Decides i s?) {rest : List Char}
    (hrest : StartsEntry rest) :
    (series b item s (i ++ ',' :: rest)).toOption
      = s?.bind fun s' => (series b item s' rest).toOption := by
  cases s? with
  | none => exact toOption_series_of_refuses h (Or.inl rfl) rest
  | some s' =>
    obtain ⟨trail, htrail, hread⟩ := h
    have hcomma : skipBlank (trail ++ ',' :: rest) = ',' :: rest := by
      simp [htrail]
    rw [series_comma (hread _ (IsEnd.endsNumeral (Or.inl rfl) rest)) hcomma
      (afterComma_of_startsEntry hrest), series_skipBlank hblanks]
    rfl

/-- A series is read as its items are decided, one after the other. -/
theorem toOption_series (hblanks : ∀ s cs, (item s).read (skipBlank cs) = (item s).read cs)
    {i : ι} {is : List ι} (hstarts : ∀ j ∈ i :: is, StartsEntry (text j))
    (hitem : ∀ j ∈ i :: is, ∀ s, (item s).Decides (text j) (next s j)) (s : σ) (rest : List Char) :
    (series b item s ([','].intercalate ((i :: is).map text) ++ b.closer :: rest)).toOption
      = ((i :: is).foldlM next s).map (·, rest) := by
  -- By induction on the items behind the first one: the closing bracket follows it, or a comma.
  induction is generalizing i s with
  | nil =>
    rw [List.map_singleton, List.intercalate_singleton,
      toOption_series_closed (hitem i (List.mem_cons_self ..) s), List.foldlM_cons]
    cases next s i <;> rfl
  | cons j is ih =>
    obtain ⟨hi, hitem⟩ := List.forall_mem_cons.mp hitem
    obtain ⟨-, hstarts⟩ := List.forall_mem_cons.mp hstarts
    have hrest : StartsEntry ([','].intercalate ((j :: is).map text) ++ b.closer :: rest) :=
      (hstarts j (List.mem_cons_self ..)).intercalate (is.map text) _
    rw [List.map_cons, List.map_cons, List.intercalate_cons_cons, List.append_assoc,
      List.append_assoc, List.singleton_append, ← List.map_cons,
      toOption_series_comma hblanks (hi s) hrest, List.foldlM_cons]
    cases next s i with
    | none => rfl
    | some s' => exact ih hstarts hitem s'

/-- **A series in brackets is read as its items are decided**, whatever follows the brackets. -/
theorem toOption_read_inBrackets
    (hblanks : ∀ s cs, (item s).read (skipBlank cs) = (item s).read cs) {is : List ι}
    (hstarts : ∀ i ∈ is, StartsEntry (text i))
    (hitem : ∀ i ∈ is, ∀ s, (item s).Decides (text i) (next s i)) (wanted : String) (start : σ)
    (rest : List Char) :
    ((Reader.bracketed b wanted item start).read (inBrackets b (is.map text) ++ rest)).toOption
      = (is.foldlM next start).map (·, rest) := by
  have htext : inBrackets b (is.map text) ++ rest
      = b.opener :: ([','].intercalate (is.map text) ++ b.closer :: rest) := by
    simp [inBrackets]
  rw [htext]
  simp only [Reader.bracketed, enclosed, b.isBlank_opener, skipBlank_cons, if_true]
  cases is with
  | nil =>
    simp [Except.toOption]
  | cons i is =>
    have hseries := toOption_series hblanks hstarts hitem start rest (b := b)
    obtain ⟨c, cs, hcs, hc⟩ :=
      (hstarts i (List.mem_cons_self ..)).intercalate (is.map text) (b.closer :: rest)
    rw [← series_skipBlank hblanks] at hseries
    rw [List.map_cons, hcs] at hseries ⊢
    simp only [if_neg (Bracket.closer_ne hc)]
    exact hseries

/-- A series whose items are all given is read as what they lead to. -/
theorem read_inBrackets {step : σ → ι → σ}
    (hblanks : ∀ s cs, (item s).read (skipBlank cs) = (item s).read cs) {is : List ι}
    (hstarts : ∀ i ∈ is, StartsEntry (text i))
    (hitem : ∀ i ∈ is, ∀ s, (item s).Gives (text i) (step s i)) (wanted : String) (start : σ)
    (rest : List Char) :
    (Reader.bracketed b wanted item start).read (inBrackets b (is.map text) ++ rest)
      = .ok (is.foldl step start, rest) := by
  have hdecides : ∀ i ∈ is, ∀ s, (item s).Decides (text i) (some (step s i)) := hitem
  have hread := toOption_read_inBrackets hblanks hstarts hdecides wanted start rest (b := b)
  have hfold : is.foldlM (fun s i => some (step s i)) start = some (is.foldl step start) :=
    List.foldlM_pure
  rw [hfold] at hread
  exact toOption_eq_some_iff.mp hread

end Series

/-! ## Members -/

/-- The text of a member: a key that denotes a name, a colon, and the text of a value. -/
structure MemberText where
  lead : List Char
  key : List Char
  name : String
  gap : List Char
  value : List Char
  lead_blank : Blanks lead
  key_spells : Spells key name.toList
  gap_blank : Blanks gap

namespace MemberText

def text (m : MemberText) : List Char :=
  m.lead ++ '"' :: (m.key ++ '"' :: (m.gap ++ ':' :: m.value))

/-- A member with its key as it is written, and no blanks. -/
def written (name : String) (value : List Char) : MemberText where
  lead := []
  key := name.toList.flatMap escapedChar
  name := name
  gap := []
  value := value
  lead_blank := blanks_nil
  key_spells := spells_written name.toList
  gap_blank := blanks_nil

theorem isKey (m : MemberText) : IsKey (m.lead ++ '"' :: (m.key ++ '"' :: m.gap)) :=
  ⟨m.lead, m.key, m.gap, m.lead_blank, m.key_spells.stringBody, m.gap_blank, rfl⟩

theorem text_eq (m : MemberText) :
    m.text = m.lead ++ '"' :: (m.key ++ '"' :: m.gap) ++ ':' :: m.value := by
  simp [text]

/-- A member with a well-formed value is a member of well-formed objects. -/
theorem isMember {m : MemberText} (h : WellFormed m.value) : IsMember m.text :=
  ⟨_, _, m.isKey, h, m.text_eq⟩

theorem startsEntry (m : MemberText) : StartsEntry m.text := by
  rw [text_eq]
  exact startsEntry_of_isKey m.isKey _

end MemberText

/-! ## What texts give -/

namespace Reader.Gives

variable {r : Reader α} {text : List Char}

theorem map {a : α} (h : r.Gives text a) (f : α → β) : (r.map f).Gives text (f a) := by
  have hdecides : r.Decides text (some a) := h
  exact hdecides.map f

/-- A text gives the string that it spells. -/
theorem string (wanted : String) {s : String} (h : SpellsString text s) :
    (Reader.string wanted).Gives text s := by
  obtain ⟨lead, body, trail, hlead, hbody, htrail, rfl⟩ := h
  refine ⟨trail, htrail, ?_⟩
  intro rest _
  simp [Reader.string, hlead, literal_of_spells hbody]

end Reader.Gives

section Containers

variable {r : Reader α}

/-- An array is read as the list of what its items give. -/
theorem Reader.read_list (hblanks : ∀ cs, r.read (skipBlank cs) = r.read cs)
    {entries : List (List Char × α)} (hstarts : ∀ e ∈ entries, StartsEntry e.1)
    (h : ∀ e ∈ entries, r.Gives e.1 e.2) (rest : List Char) :
    (Reader.list r).read (inBrackets .array (entries.map Prod.fst) ++ rest)
      = .ok (entries.map Prod.snd, rest) := by
  have hlist := read_inBrackets (b := .array) (fun l cs => by simp only [Reader.map, hblanks])
    hstarts (fun e he l => (h e he).map (l ++ [·])) "a sequence" [] rest
  have hfold : entries.foldl (fun l e => l ++ [e.2]) [] = entries.map Prod.snd := by
    rw [List.map_eq_flatMap, List.flatMap_def]
    simp
  rw [hfold] at hlist
  exact hlist

/-- An object is read as the map of its members, inserted in order. -/
theorem Reader.read_orderedMap {entries : List (MemberText × α)}
    (h : ∀ e ∈ entries, r.Gives e.1.value e.2) (rest : List Char) :
    (Reader.orderedMap r).read (inBrackets .object (entries.map (·.1.text)) ++ rest)
      = .ok (.ofList (entries.map fun e => (e.1.name, e.2)), rest) := by
  have hmember : ∀ e ∈ entries, ∀ m : OrderedMap String α,
      (Reader.member fun key => r.afterColon.map fun a => m.insert key a).Gives e.1.text
        (m.insert e.1.name e.2) := by
    intro e he m
    have hvalue : r.Decides e.1.value (some e.2) := h e he
    have hcolon : (r.afterColon.map fun a => m.insert e.1.name a).Decides
        (e.1.gap ++ ':' :: e.1.value) (some (m.insert e.1.name e.2)) :=
      (hvalue.afterColon e.1.gap_blank).map _
    exact Reader.Decides.member (fun key => r.afterColon.map fun a => m.insert key a) hcolon
      e.1.lead_blank e.1.key_spells
  have hmap := read_inBrackets (b := .object)
    (fun m cs => by simp [Reader.member])
    (fun e _ => e.1.startsEntry) hmember "a map" ∅ rest
  rw [OrderedMap.ofList, List.foldl_map]
  exact hmap

theorem Reader.Gives.strings (wanted : String) {text : List Char} {l : List String}
    (h : SpellsStrings text l) : (Reader.list (.string wanted)).Gives text l := by
  obtain ⟨items, hitems, rfl, rfl⟩ := h
  refine ⟨[], blanks_nil, fun rest _ => ?_⟩
  exact Reader.read_list (fun cs => by simp [Reader.string])
    (fun i hi => (hitems i hi).wellFormed.startsEntry)
    (fun i hi => Gives.string wanted (hitems i hi)) rest

theorem Reader.Gives.orderedMap {entries : List (MemberText × α)}
    (h : ∀ e ∈ entries, r.Gives e.1.value e.2) :
    (Reader.orderedMap r).Gives (Json.inBrackets .object (entries.map (·.1.text)))
      (.ofList (entries.map fun e => (e.1.name, e.2))) :=
  ⟨[], blanks_nil, fun rest _ => Reader.read_orderedMap h rest⟩

end Containers

/-- The text of an object. -/
def objectText (ms : List MemberText) : String :=
  String.ofList (inBrackets .object (ms.map (·.text)))

end ClassTidy.Json
