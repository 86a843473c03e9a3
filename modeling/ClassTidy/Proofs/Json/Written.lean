import ClassTidy.Json.Printer
import ClassTidy.Proofs.Json.Fields
import ClassTidy.Proofs.Merging

/-!
# Reading what has been written

`Reader.Takes` says that a reader takes a written text for a value, whatever follows the text, and
leaves nothing of it. So the text gives the value (`Takes.gives`), and what is known of series in
brackets applies to the arrays and objects that are written:

> `Takes.strings`, `Takes.orderedMap`: arrays and objects are read if their elements are;
> `Takes.record`: a record is read if each field is taken for the change that it makes;
> `ofText_of_takes`: a whole text that is taken for a value is read as the value.
-/

namespace ClassTidy.Json

/-- The text begins with a character that is no blank and closes no bracket. -/
def StartsValue (text : List Char) : Prop :=
  ∃ c cs, text = c :: cs ∧ isBlank c = false ∧ c ≠ ']' ∧ c ≠ '}'

theorem StartsValue.startsEntry {text : List Char} (h : StartsValue text) : StartsEntry text := by
  obtain ⟨c, cs, rfl, hblank, hc⟩ := h
  exact startsEntry_cons hblank hc cs

theorem startsValue_inBrackets (b : Bracket) (texts : List (List Char)) :
    StartsValue (inBrackets b texts) :=
  ⟨_, _, rfl, b.isBlank_opener, b.opener_ne⟩

/-- The reader takes the text for the value, whatever stands behind it that does not go on a
numeral. -/
structure Reader.Takes {α : Type} (r : Reader α) (text : List Char) (a : α) : Prop where
  starts : StartsValue text
  read : ∀ rest, EndsNumeral rest → r.read (text ++ rest) = .ok (a, rest)

theorem Reader.Takes.gives {α : Type} {r : Reader α} {text : List Char} {a : α}
    (h : r.Takes text a) : r.Gives text a :=
  ⟨[], blanks_nil, h.read⟩

/-- **A text that is taken for a value is read as the value.** -/
theorem ofText_of_takes {α : Type} {r : Reader α} {text : List Char} {a : α}
    (h : r.Takes text a) : r.ofText (String.ofList text) = .ok a := by
  have hread := h.read [] endsNumeral_nil
  rw [List.append_nil] at hread
  rw [Reader.ofText, String.toList_ofList, hread]
  rfl

/-! ## Each kind of reader -/

theorem startsValue_writtenString (s : String) : StartsValue (writtenString s) :=
  ⟨'"', _, rfl, by decide, by decide, by decide⟩

theorem startsValue_toDigits (n : Nat) : StartsValue (Nat.toDigits 10 n) := by
  obtain ⟨d, ds, hds, hd⟩ := exists_cons_toDigits n
  exact ⟨d, ds, hds, not_special_of_isDigit hd⟩

namespace Reader.Takes

variable {α β : Type} {r : Reader α} {text : List Char} {a : α}

theorem map (h : r.Takes text a) (f : α → β) : (r.map f).Takes text (f a) where
  starts := h.starts
  read rest hrest := by
    simp only [Reader.map, h.read rest hrest]

theorem string (wanted s : String) : (Reader.string wanted).Takes (writtenString s) s where
  starts := startsValue_writtenString s
  read rest _ := by
    simp [Reader.string, writtenString, literal_writtenString]

theorem natural (wanted : String) {n : Nat} (hn : n < UInt64.size) :
    (Reader.natural wanted).Takes (Nat.toDigits 10 n) n where
  starts := startsValue_toDigits n
  read rest hrest := by
    have hnumber := number_toDigits hn hrest
    obtain ⟨d, ds, hds, hd⟩ := exists_cons_toDigits n
    have hblank : isBlank d = false := (not_special_of_isDigit hd).1
    rw [hds, List.cons_append] at hnumber ⊢
    simp [Reader.natural, hblank, hd, hnumber]

/-- A choice is read by its name. -/
theorem choice (ofName : String → α) (name : String) :
    (Reader.choice ofName).Takes (writtenString name) (ofName name) where
  starts := startsValue_writtenString name
  read rest hrest := by
    have hname := ((string "a string" name).map ofName).read rest hrest
    simpa [Reader.choice, writtenString] using hname

end Reader.Takes

/-! ## Written objects -/

/-- The name and the value of a member of an object, as they are written. -/
def writtenMember (key : String) (text : List Char) : List Char :=
  writtenString key ++ ':' :: text

theorem text_written (key : String) (text : List Char) :
    (MemberText.written key text).text = writtenMember key text := by
  simp [MemberText.text, MemberText.written, writtenMember, writtenString]

/-- An object is read as a map if its values are. -/
theorem Reader.Takes.orderedMap {α : Type} {r : Reader α} (write : α → List Char)
    {l : List (String × α)} (h : ∀ p ∈ l, r.Takes (write p.2) p.2) :
    (Reader.orderedMap r).Takes
      ('{' :: ([','].intercalate (l.map fun p => writtenMember p.1 (write p.2)) ++ ['}']))
      (.ofList l) where
  starts := startsValue_inBrackets .object _
  read rest _ := by
    let entry (p : String × α) : MemberText × α := (.written p.1 (write p.2), p.2)
    have hentries : ∀ e ∈ l.map entry, r.Gives e.1.value e.2 := by
      intro e he
      obtain ⟨p, hp, rfl⟩ := List.mem_map.mp he
      exact (h p hp).gives
    have htexts : (l.map entry).map (·.1.text)
        = l.map fun p => writtenMember p.1 (write p.2) := by
      rw [List.map_map]
      exact List.map_congr_left fun p _ => text_written p.1 (write p.2)
    have hpairs : (l.map entry).map (fun e => (e.1.name, e.2)) = l := by
      rw [List.map_map]
      exact List.map_id l
    have hread := Reader.read_orderedMap hentries rest
    rwa [htexts, hpairs] at hread

/-! ## Records -/

section Record

variable {σ : Type} {fields : List (Field σ)}

/-- What is written for a field of a record, and the change that it makes. -/
structure GivenField (σ : Type) where
  name : String
  text : List Char
  change : σ → σ

/-- There is a field of this name, which takes the text for the change. -/
def GivenField.Fits (g : GivenField σ) (fields : List (Field σ)) : Prop :=
  ∃ f, fields.find? (·.name == g.name) = some f ∧ f.change.Takes g.text g.change

namespace GivenField

/-- The member that is written for the field. -/
def member (g : GivenField σ) : MemberText :=
  .written g.name g.text

variable {g : GivenField σ}

theorem Fits.settles (h : g.Fits fields) : Field.Settles fields g.member := by
  obtain ⟨f, hf, htakes⟩ := h
  have hname : fields.find? (·.name == g.member.name) = some f := hf
  unfold Field.Settles
  rw [hname]
  show f.change.Decides g.text (f.change.given? g.text)
  rw [Reader.given?_of_gives htakes.gives]
  exact htakes.gives

/-- A field that has not been given yet makes its change. -/
theorem Fits.advance (h : g.Fits fields) {s : List String × σ} (hnew : g.name ∉ s.1) :
    Field.advance? fields s g.member = some (g.name :: s.1, g.change s.2) := by
  obtain ⟨f, hf, htakes⟩ := h
  exact Field.advance?_eq_some_iff.mpr
    (Or.inr ⟨f, g.change, hf, hnew, Reader.given?_of_gives htakes.gives, rfl⟩)

/-- Distinct fields make their changes one after the other. Which names have been given in the end
does not matter. -/
theorem foldlM_advance {given : List (GivenField σ)} (hnames : (given.map (·.name)).Nodup)
    (hfits : ∀ g ∈ given, g.Fits fields) (s : List String × σ)
    (hnew : ∀ g ∈ given, g.name ∉ s.1) :
    ∃ names, (given.map member).foldlM (Field.advance? fields) s
      = some (names, given.foldl (fun s g => g.change s) s.2) := by
  -- The names that have been given grow, and no name that is still to come is among them.
  induction given generalizing s with
  | nil => exact ⟨s.1, rfl⟩
  | cons g given ih =>
    obtain ⟨hg, hnew⟩ := List.forall_mem_cons.mp hnew
    obtain ⟨hfit, hfits⟩ := List.forall_mem_cons.mp hfits
    rw [List.map_cons, List.nodup_cons] at hnames
    have hnew' : ∀ g' ∈ given, g'.name ∉ g.name :: s.1 := by
      intro g' hg'
      rw [List.mem_cons, not_or]
      refine ⟨?_, hnew g' hg'⟩
      intro heq
      exact hnames.1 (List.mem_map.mpr ⟨g', hg', heq⟩)
    rw [List.map_cons, List.foldlM_cons, hfit.advance hg]
    exact ih hnames.2 hfits (g.name :: s.1, g.change s.2) hnew'

end GivenField

/-- **A record is read if its fields are**: distinct fields in any order make their changes one
after the other. -/
theorem Reader.Takes.record {given : List (GivenField σ)} (hnames : (given.map (·.name)).Nodup)
    (hfits : ∀ g ∈ given, g.Fits fields) (wanted : String) (start : σ) :
    (Reader.record wanted fields start).Takes
      ('{' :: ([','].intercalate (given.map fun g => writtenMember g.name g.text) ++ ['}']))
      (given.foldl (fun s g => g.change s) start) where
  starts := startsValue_inBrackets .object _
  read rest _ := by
    have hsettles : ∀ m ∈ given.map GivenField.member, Field.Settles fields m := by
      intro m hm
      obtain ⟨g, hg, rfl⟩ := List.mem_map.mp hm
      exact (hfits g hg).settles
    have htexts : (given.map GivenField.member).map (·.text)
        = given.map fun g => writtenMember g.name g.text := by
      rw [List.map_map]
      exact List.map_congr_left fun g _ => text_written g.name g.text
    obtain ⟨names, hfold⟩ := GivenField.foldlM_advance hnames hfits ([], start) (by simp)
    have hread := toOption_read_object hsettles wanted start rest
    rw [hfold, htexts] at hread
    exact toOption_eq_some_iff.mp hread

end Record

/-! ## Written values -/

namespace Value

theorem compactItems_eq (items : List Value) :
    compactItems items = [','].intercalate (items.map compact) := by
  induction items with
  | nil => rfl
  | cons v items ih =>
    cases items with
    | nil => simp [compactItems]
    | cons w items =>
      rw [compactItems, ih]
      simp only [List.map_cons, List.intercalate_cons_cons, List.append_assoc,
        List.singleton_append]

theorem compactMembers_eq (members : List (String × Value)) :
    compactMembers members
      = [','].intercalate (members.map fun p => writtenMember p.1 p.2.compact) := by
  induction members with
  | nil => rfl
  | cons p members ih =>
    obtain ⟨key, v⟩ := p
    cases members with
    | nil => simp [compactMembers, writtenMember]
    | cons m members =>
      rw [compactMembers, ih]
      simp only [writtenMember, List.map_cons, List.intercalate_cons_cons, List.append_assoc,
        List.singleton_append]

/-- An array is its items in brackets. -/
theorem compact_array (items : List Value) :
    (array items).compact = '[' :: ([','].intercalate (items.map compact) ++ [']']) := by
  rw [compact, compactItems_eq, List.cons_append]

/-- An object is its members in braces. -/
theorem compact_object (members : List (String × Value)) :
    (object members).compact
      = '{' :: ([','].intercalate (members.map fun p => writtenMember p.1 p.2.compact)
          ++ ['}']) := by
  rw [compact, compactMembers_eq, List.cons_append]

end Value

namespace Reader.Takes

theorem strings (wanted : String) (l : List String) :
    (Reader.list (.string wanted)).Takes (Value.strings l).compact l := by
  have htext : (Value.strings l).compact = inBrackets .array (l.map writtenString) := by
    rw [Value.strings, Value.compact_array, List.map_map]
    rfl
  rw [htext]
  refine ⟨startsValue_inBrackets .array _, fun rest _ => ?_⟩
  let entry (s : String) : List Char × String := (writtenString s, s)
  have hentries : ∀ e ∈ l.map entry, (Reader.string wanted).Takes e.1 e.2 := by
    intro e he
    obtain ⟨s, _, rfl⟩ := List.mem_map.mp he
    exact string wanted s
  have hread := Reader.read_list (fun cs => by simp [Reader.string])
    (fun e he => (hentries e he).starts.startsEntry) (fun e he => (hentries e he).gives) rest
  have htexts : (l.map entry).map Prod.fst = l.map writtenString := List.map_map ..
  have hstrings : (l.map entry).map Prod.snd = l := by
    rw [List.map_map]
    exact List.map_id l
  rwa [htexts, hstrings] at hread

/-- A map is read from the object that lists its pairs. -/
theorem ofMap {α : Type} {r : Reader α} {value : α → Value} {m : OrderedMap String α}
    (h : ∀ p ∈ m.toList, r.Takes (value p.2).compact p.2) :
    (Reader.orderedMap r).Takes
      (Value.object (m.toList.map fun p => (p.1, value p.2))).compact m := by
  have hmap := orderedMap (fun a => (value a).compact) h
  rw [OrderedMap.ofList_toList] at hmap
  rw [Value.compact_object, List.map_map]
  exact hmap

end Reader.Takes

end ClassTidy.Json
