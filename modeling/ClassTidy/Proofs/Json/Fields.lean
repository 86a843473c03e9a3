import ClassTidy.Proofs.Json.Members
import ClassTidy.Proofs.Json.Yielded

/-!
# Records, field by field

A record that is written as an object is the fold of its members: a field makes its change unless
it has been given before, and other members are passed over (`Field.advance?`). Each field sets one
part of the record and leaves the others alone (`Field.SetsOnly`), so neither the order of the
members nor members that are no fields matter:

> `toOption_ofText_object`: an object is read as the fold of its members;
> `FieldsSetParts.readsByField`: what each part of the record is, and when there is one at all.
-/

namespace ClassTidy.Json

namespace MemberText

/-- The value of a field is any text that ends where it seems to; other values are well-formed. -/
def Fits (names : List String) (m : MemberText) : Prop :=
  if m.name ∈ names then Delimited m.value else WellFormed m.value

variable {names : List String} {m : MemberText}

/-- A well-formed value will do for every member. -/
theorem fits_of_wellFormed (h : WellFormed m.value) : m.Fits names := by
  unfold Fits
  split
  next => exact h.delimited
  next => exact h

/-- The value of a field need not be well-formed. -/
theorem fits_of_delimited (hname : m.name ∈ names) (h : Delimited m.value) : m.Fits names := by
  rw [Fits, if_pos hname]
  exact h

end MemberText

/-- No field is given twice. -/
def FieldsOnce (names : List String) (ms : List MemberText) : Prop :=
  ((ms.map (·.name)).filter (· ∈ names)).Nodup

/-! ## The fold of the members -/

section Record

variable {σ : Type} {fields : List (Field σ)}

namespace Field

/-- What a member makes of a record, of which the names already given are kept. -/
def advance? (fields : List (Field σ)) (s : List String × σ) (m : MemberText) :
    Option (List String × σ) :=
  match fields.find? (·.name == m.name) with
  | none => some s
  | some f =>
    if m.name ∈ s.1 then none
    else (f.change.given? m.value).map fun change => (m.name :: s.1, change s.2)

theorem find?_eq_none_iff {name : String} :
    fields.find? (·.name == name) = none ↔ name ∉ fields.map (·.name) := by
  simp [List.find?_eq_none]

theorem mem_names_of_find? {f : Field σ} {name : String}
    (h : fields.find? (·.name == name) = some f) : name ∈ fields.map (·.name) := by
  by_contra hnot
  rw [find?_eq_none_iff.mpr hnot] at h
  cases h

/-- What comes of the value of a member does not depend on where the member stands. -/
def Settles (fields : List (Field σ)) (m : MemberText) : Prop :=
  match fields.find? (·.name == m.name) with
  | none => WellFormed m.value
  | some f => f.change.Decides m.value (f.change.given? m.value)

theorem settles_of_fits (htakes : ∀ f ∈ fields, f.change.TakesOnly WellFormed) {m : MemberText}
    (hm : m.Fits (fields.map (·.name))) : Settles fields m := by
  unfold Settles
  cases hfind : fields.find? (·.name == m.name) with
  | none =>
    rw [MemberText.Fits, if_neg (find?_eq_none_iff.mp hfind)] at hm
    exact hm
  | some f =>
    rw [MemberText.Fits, if_pos (mem_names_of_find? hfind)] at hm
    exact (htakes f (List.mem_of_find?_eq_some hfind)).decides_given hm

/-- A member is decided by its own text. -/
theorem decides_member {m : MemberText} (hm : Settles fields m) (s : List String × σ) :
    (Reader.member (Field.member fields s)).Decides m.text (advance? fields s m) := by
  refine Reader.Decides.member _ ?_ m.lead_blank m.key_spells
  unfold member advance?
  unfold Settles at hm
  cases hfind : fields.find? (·.name == m.name) with
  | none =>
    rw [hfind] at hm
    exact ((Reader.Decides.skipped hm).afterColon m.gap_blank).map _
  | some f =>
    rw [hfind] at hm
    show Reader.Decides (if m.name ∈ s.1 then _ else _) _ (if m.name ∈ s.1 then _ else _)
    split
    next => exact Reader.Decides.fail _ _
    next => exact (Reader.Decides.afterColon hm m.gap_blank).map _

end Field

/-- An object is read as the fold of its members, whatever follows it. -/
theorem toOption_read_object {ms : List MemberText} (hms : ∀ m ∈ ms, Field.Settles fields m)
    (wanted : String) (start : σ) (rest : List Char) :
    ((Reader.record wanted fields start).read
      (inBrackets .object (ms.map (·.text)) ++ rest)).toOption
        = (ms.foldlM (Field.advance? fields) ([], start)).map fun s => (s.2, rest) := by
  have hobject : ((Reader.record.object wanted fields start).read
      (inBrackets .object (ms.map (·.text)) ++ rest)).toOption
        = (ms.foldlM (Field.advance? fields) ([], start)).map (·, rest) :=
    toOption_read_inBrackets (fun s cs => by simp [Reader.member])
      (fun m _ => m.startsEntry) (fun m hm => Field.decides_member (hms m hm)) wanted
      ([], start) rest
  have hrecord : (Reader.record wanted fields start).read
      (inBrackets .object (ms.map (·.text)) ++ rest)
        = ((Reader.record.object wanted fields start).map Prod.snd).read
          (inBrackets .object (ms.map (·.text)) ++ rest) := rfl
  rw [hrecord, Reader.toOption_read_map, hobject, Option.map_map]
  rfl

/-- **An object is read as the fold of its members.** -/
theorem toOption_ofText_object (htakes : ∀ f ∈ fields, f.change.TakesOnly WellFormed)
    {ms : List MemberText} (hms : ∀ m ∈ ms, m.Fits (fields.map (·.name))) (wanted : String)
    (start : σ) :
    ((Reader.record wanted fields start).ofText (objectText ms)).toOption
      = (ms.foldlM (Field.advance? fields) ([], start)).map Prod.snd := by
  have hread := toOption_read_object (fun m hm => Field.settles_of_fits htakes (hms m hm))
    wanted start []
  rw [List.append_nil] at hread
  apply Reader.toOption_ofText
  rw [hread, Option.map_map]
  rfl

/-- A member on its own. -/
theorem toOption_ofText_single (htakes : ∀ f ∈ fields, f.change.TakesOnly WellFormed)
    {m : MemberText} (hm : m.Fits (fields.map (·.name))) (wanted : String) (start : σ) :
    ((Reader.record wanted fields start).ofText (objectText [m])).toOption
      = (Field.advance? fields ([], start) m).map Prod.snd := by
  rw [toOption_ofText_object htakes (List.forall_mem_singleton.mpr hm), List.foldlM_cons]
  cases Field.advance? fields ([], start) m <;> rfl

/-! ## Which members there may be -/

namespace Field

variable {s s' : List String × σ} {m : MemberText} {ms : List MemberText}

/-- A member is passed over, or it is a field that is new and makes its change. -/
theorem advance?_eq_some_iff :
    advance? fields s m = some s' ↔
      (m.name ∉ fields.map (·.name) ∧ s' = s) ∨
      ∃ f change, fields.find? (·.name == m.name) = some f ∧ m.name ∉ s.1 ∧
        f.change.given? m.value = some change ∧ s' = (m.name :: s.1, change s.2) := by
  rw [advance?, ← find?_eq_none_iff]
  cases hfind : fields.find? (·.name == m.name) with
  | none =>
    simp only [true_and, Option.some.injEq, reduceCtorEq, false_and, exists_false, or_false]
    exact eq_comm
  | some f =>
    show (if m.name ∈ s.1 then none else _) = some s' ↔ _
    by_cases hold : m.name ∈ s.1
    · rw [if_pos hold]
      simp [hold]
    · rw [if_neg hold, Option.map_eq_some_iff]
      simp only [reduceCtorEq, false_and, false_or, Option.some.injEq]
      constructor
      · intro h
        obtain ⟨change, hchange, rfl⟩ := h
        exact ⟨f, change, rfl, hold, hchange, rfl⟩
      · intro h
        obtain ⟨_, change, rfl, _, hchange, rfl⟩ := h
        exact ⟨change, hchange, rfl⟩

/-- The first member, then the others. -/
theorem foldlM_cons_eq_some_iff :
    (m :: ms).foldlM (advance? fields) s = some s' ↔
      ∃ s₁, advance? fields s m = some s₁ ∧ ms.foldlM (advance? fields) s₁ = some s' := by
  rw [List.foldlM_cons]
  exact Option.bind_eq_some_iff

/-- No field may be given again: neither one that was given before nor one among the members. -/
theorem new_of_foldlM (h : ms.foldlM (advance? fields) s = some s') :
    (∀ m ∈ ms, m.name ∈ fields.map (·.name) → m.name ∉ s.1) ∧
      FieldsOnce (fields.map (·.name)) ms := by
  induction ms generalizing s with
  | nil => exact ⟨by simp, List.nodup_nil⟩
  | cons m ms ih =>
    obtain ⟨s₁, hm, hms⟩ := foldlM_cons_eq_some_iff.mp h
    obtain ⟨hnew, honce⟩ := ih hms
    rcases advance?_eq_some_iff.mp hm with ⟨hname, rfl⟩ | ⟨f, change, hfind, hold, _, rfl⟩
    · refine ⟨List.forall_mem_cons.mpr ⟨fun hin => absurd hin hname, hnew⟩, ?_⟩
      rw [FieldsOnce, List.map_cons, List.filter_cons_of_neg (by simpa using hname)]
      exact honce
    · refine ⟨List.forall_mem_cons.mpr ⟨fun _ => hold, ?_⟩, ?_⟩
      · intro m' hm' hin hin'
        exact hnew m' hm' hin (List.mem_cons_of_mem _ hin')
      · have hname := mem_names_of_find? hfind
        rw [FieldsOnce, List.map_cons, List.filter_cons_of_pos (by simpa using hname),
          List.nodup_cons]
        refine ⟨?_, honce⟩
        intro hin
        obtain ⟨hin, _⟩ := List.mem_filter.mp hin
        obtain ⟨m', hm', heq⟩ := List.mem_map.mp hin
        exact hnew m' hm' (heq ▸ hname) (heq ▸ List.mem_cons_self ..)

/-- Fields that are new and given once make a record if each of them has a value. -/
theorem isSome_foldlM_iff (hnew : ∀ m ∈ ms, m.name ∈ fields.map (·.name) → m.name ∉ s.1)
    (honce : FieldsOnce (fields.map (·.name)) ms) :
    (ms.foldlM (advance? fields) s).isSome = true ↔
      ∀ m ∈ ms, ∀ f, fields.find? (·.name == m.name) = some f →
        (f.change.given? m.value).isSome = true := by
  induction ms generalizing s with
  | nil => simp
  | cons m ms ih =>
    rw [List.foldlM_cons, List.forall_mem_cons]
    obtain ⟨hm, hms⟩ := List.forall_mem_cons.mp hnew
    cases hfind : fields.find? (·.name == m.name) with
    | none =>
      have hname := find?_eq_none_iff.mp hfind
      rw [FieldsOnce, List.map_cons, List.filter_cons_of_neg (by simpa using hname)] at honce
      rw [advance?_eq_some_iff.mpr (Or.inl ⟨hname, rfl⟩)]
      show (ms.foldlM (advance? fields) s).isSome = true ↔ _
      rw [ih hms honce]
      simp
    | some f =>
      have hname := mem_names_of_find? hfind
      rw [FieldsOnce, List.map_cons, List.filter_cons_of_pos (by simpa using hname),
        List.nodup_cons] at honce
      simp only [Option.some.injEq, forall_eq']
      cases hgiven : f.change.given? m.value with
      | none =>
        have hnone : advance? fields s m = none := by
          rw [advance?, hfind]
          simp [hgiven]
        rw [hnone]
        simp
      | some change =>
        have hms' : ∀ m' ∈ ms, m'.name ∈ fields.map (·.name) → m'.name ∉ m.name :: s.1 := by
          intro m' hm' hin
          rw [List.mem_cons, not_or]
          refine ⟨?_, hms m' hm' hin⟩
          intro heq
          exact honce.1 (List.mem_filter.mpr
            ⟨List.mem_map.mpr ⟨m', hm', heq⟩, by simpa using hname⟩)
        rw [advance?_eq_some_iff.mpr (Or.inr ⟨f, change, hfind, hm hname, hgiven, rfl⟩)]
        show (ms.foldlM (advance? fields) (m.name :: s.1, change s.2)).isSome = true ↔ _
        rw [ih hms' honce.2]
        simp

end Field

/-! ## What the parts of the record are -/

/-- A part of a record, and the name of the field that sets it. -/
structure RecordPart (σ : Type) where
  name : String
  type : Type
  get : σ → type

/-- The value of the field sets the part of its name, and leaves the others alone. -/
def Field.SetsOnly (f : Field σ) (parts : List (RecordPart σ)) : Prop :=
  f.change.Yields fun change => ∀ p ∈ parts,
    (p.name = f.name → ∀ s t, p.get (change s) = p.get (change t)) ∧
    (p.name ≠ f.name → ∀ s, p.get (change s) = p.get s)

/-- The record is made up of its parts, and each field takes well-formed texts for its own part. -/
structure FieldsSetParts (fields : List (Field σ)) (parts : List (RecordPart σ)) : Prop where
  names : fields.map (·.name) = parts.map (·.name)
  takesOnly : ∀ f ∈ fields, f.change.TakesOnly WellFormed
  setsOnly : ∀ f ∈ fields, f.SetsOnly parts
  eq_of_parts : ∀ s t, (∀ p ∈ parts, p.get s = p.get t) → s = t

namespace Field

variable {parts : List (RecordPart σ)} {s s' : List String × σ} {m : MemberText}
  {ms : List MemberText}

/-- What the change of a member does to the parts. -/
theorem get_of_given? (hsets : ∀ f ∈ fields, f.SetsOnly parts) {f : Field σ} {change : σ → σ}
    (hfind : fields.find? (·.name == m.name) = some f)
    (hgiven : f.change.given? m.value = some change) {p : RecordPart σ} (hp : p ∈ parts) :
    (p.name = m.name → ∀ s t, p.get (change s) = p.get (change t)) ∧
      (p.name ≠ m.name → ∀ s, p.get (change s) = p.get s) := by
  have hname : f.name = m.name := by
    have htrue := List.find?_some hfind
    exact eq_of_beq htrue
  unfold Reader.given? at hgiven
  split at hgiven
  next change' rest hread =>
    split at hgiven
    next =>
      cases hgiven
      rw [← hname]
      exact (hsets f (List.mem_of_find?_eq_some hfind)).of_read hread p hp
    next => cases hgiven
  next => cases hgiven

/-- A part whose field is not given stays. -/
theorem get_of_absent (hsets : ∀ f ∈ fields, f.SetsOnly parts)
    (h : ms.foldlM (advance? fields) s = some s') {p : RecordPart σ} (hp : p ∈ parts)
    (habsent : ∀ m ∈ ms, m.name ≠ p.name) : p.get s'.2 = p.get s.2 := by
  induction ms generalizing s with
  | nil =>
    cases h
    rfl
  | cons m ms ih =>
    obtain ⟨s₁, hm, hms⟩ := foldlM_cons_eq_some_iff.mp h
    obtain ⟨hne, habsent⟩ := List.forall_mem_cons.mp habsent
    rw [ih hms habsent]
    rcases advance?_eq_some_iff.mp hm with ⟨_, rfl⟩ | ⟨f, change, hfind, _, hgiven, rfl⟩
    · rfl
    · exact (get_of_given? hsets hfind hgiven hp).2 hne.symm s.2

/-- A part whose field is given has the value of the field. -/
theorem get_of_given (hsets : ∀ f ∈ fields, f.SetsOnly parts)
    (h : ms.foldlM (advance? fields) s = some s') (hm : m ∈ ms) {f : Field σ} {change : σ → σ}
    (hfind : fields.find? (·.name == m.name) = some f)
    (hgiven : f.change.given? m.value = some change) {p : RecordPart σ} (hp : p ∈ parts)
    (hname : p.name = m.name) (t : σ) : p.get s'.2 = p.get (change t) := by
  induction ms generalizing s with
  | nil => cases hm
  | cons m₁ ms ih =>
    obtain ⟨s₁, hm₁, hms⟩ := foldlM_cons_eq_some_iff.mp h
    rcases List.mem_cons.mp hm with rfl | hm
    · rcases advance?_eq_some_iff.mp hm₁ with ⟨hnot, _⟩ | ⟨f', change', hfind', _, hgiven', rfl⟩
      · exact absurd (mem_names_of_find? hfind) hnot
      · -- The members behind it do not give the field again.
        rw [hfind] at hfind'
        cases hfind'
        rw [hgiven] at hgiven'
        cases hgiven'
        have habsent : ∀ m' ∈ ms, m'.name ≠ p.name := by
          intro m' hm' heq
          have hin : m'.name ∈ fields.map (·.name) :=
            heq.trans hname ▸ mem_names_of_find? hfind
          exact (new_of_foldlM hms).1 m' hm' hin (heq.trans hname ▸ List.mem_cons_self ..)
        rw [get_of_absent hsets hms hp habsent]
        exact (get_of_given? hsets hfind hgiven hp).1 hname s.2 t
    · exact ih hms hm

end Field

/-- What it means that a kind of record is read field by field from objects: whether there is a
record, and what its parts are, depends on each field alone. -/
structure ReadsByField (read : String → Except Defect σ) (parts : List (RecordPart σ)) (start : σ) :
    Prop where
  /-- An object is read if each of its fields is read as an object of its own. -/
  reads_iff : ∀ ms, (∀ m ∈ ms, m.Fits (parts.map (·.name))) → FieldsOnce (parts.map (·.name)) ms →
    ((∃ s, read (objectText ms) = .ok s) ↔
      ∀ m ∈ ms, m.name ∈ parts.map (·.name) → ∃ s, read (objectText [m]) = .ok s)
  /-- The part of a field that is given is what the field gives on its own. -/
  given : ∀ ms s, (∀ m ∈ ms, m.Fits (parts.map (·.name))) → read (objectText ms) = .ok s →
    ∀ m ∈ ms, ∀ s', read (objectText [m]) = .ok s' →
      ∀ p ∈ parts, p.name = m.name → p.get s = p.get s'
  /-- The part of a field that is not given is what it is at the start. -/
  absent : ∀ ms s, (∀ m ∈ ms, m.Fits (parts.map (·.name))) → read (objectText ms) = .ok s →
    ∀ p ∈ parts, (∀ m ∈ ms, m.name ≠ p.name) → p.get s = p.get start
  /-- Neither the order of the fields matters nor what stands between them. -/
  reordered : ∀ ms ms', (∀ m ∈ ms, m.Fits (parts.map (·.name))) →
    (∀ m ∈ ms', m.Fits (parts.map (·.name))) →
    (ms.filter (·.name ∈ parts.map (·.name))).Perm (ms'.filter (·.name ∈ parts.map (·.name))) →
    (read (objectText ms)).toOption = (read (objectText ms')).toOption
  /-- A field may not be given twice. -/
  repeated : ∀ ms, (∀ m ∈ ms, m.Fits (parts.map (·.name))) →
    ¬FieldsOnce (parts.map (·.name)) ms → ∃ d, read (objectText ms) = .error d

/-- **The record that an object is read as** has the parts that its fields have each on its own, and
otherwise the parts of the start. -/
theorem ReadsByField.read_eq_ok {read : String → Except Defect σ} {parts : List (RecordPart σ)}
    {start s : σ} (h : ReadsByField read parts start)
    (heq : ∀ s t, (∀ p ∈ parts, p.get s = p.get t) → s = t) {ms : List MemberText}
    (hms : ∀ m ∈ ms, m.Fits (parts.map (·.name))) (honce : FieldsOnce (parts.map (·.name)) ms)
    (hgiven : ∀ m ∈ ms, m.name ∈ parts.map (·.name) →
      ∃ s', read (objectText [m]) = .ok s' ∧ ∀ p ∈ parts, p.name = m.name → p.get s = p.get s')
    (habsent : ∀ p ∈ parts, (∀ m ∈ ms, m.name ≠ p.name) → p.get s = p.get start) :
    read (objectText ms) = .ok s := by
  have halone : ∀ m ∈ ms, m.name ∈ parts.map (·.name) → ∃ s', read (objectText [m]) = .ok s' := by
    intro m hm hname
    obtain ⟨s', hs', -⟩ := hgiven m hm hname
    exact ⟨s', hs'⟩
  obtain ⟨t, ht⟩ := (h.reads_iff ms hms honce).mpr halone
  have hts : t = s := by
    apply heq
    intro p hp
    by_cases hsome : ∃ m ∈ ms, m.name = p.name
    · obtain ⟨m, hm, hmp⟩ := hsome
      have hname : m.name ∈ parts.map (·.name) := hmp ▸ List.mem_map_of_mem hp
      obtain ⟨s', hs', hpart⟩ := hgiven m hm hname
      rw [h.given ms t hms ht m hm s' hs' p hp hmp.symm, hpart p hp hmp.symm]
    · have hnone : ∀ m ∈ ms, m.name ≠ p.name := fun m hm hmp => hsome ⟨m, hm, hmp⟩
      rw [h.absent ms t hms ht p hp hnone, habsent p hp hnone]
  rw [ht, hts]

theorem exists_field_of_mem_names {name : String} (h : name ∈ fields.map (·.name)) :
    ∃ f, fields.find? (·.name == name) = some f := by
  cases hfind : fields.find? (·.name == name) with
  | none => exact absurd h (Field.find?_eq_none_iff.mp hfind)
  | some f => exact ⟨f, rfl⟩

section ByField

variable {parts : List (RecordPart σ)} {start : σ} {wanted : String} {ms ms' : List MemberText}
  {m : MemberText} {f : Field σ} {s s' : σ}

/-- An object is read as a record if its members lead to the record. -/
theorem ofText_object_eq_ok_iff (h : FieldsSetParts fields parts)
    (hms : ∀ m ∈ ms, m.Fits (fields.map (·.name))) :
    (Reader.record wanted fields start).ofText (objectText ms) = .ok s ↔
      ∃ names, ms.foldlM (Field.advance? fields) ([], start) = some (names, s) := by
  rw [← toOption_eq_some_iff, toOption_ofText_object h.takesOnly hms, Option.map_eq_some_iff]
  constructor
  · intro hs
    obtain ⟨⟨names, s'⟩, hs', rfl⟩ := hs
    exact ⟨names, hs'⟩
  · intro hs
    obtain ⟨names, hs⟩ := hs
    exact ⟨(names, s), hs, rfl⟩

/-- A field on its own is read as the change that its value makes to the start. -/
theorem ofText_single_eq_ok_iff (h : FieldsSetParts fields parts)
    (hm : m.Fits (fields.map (·.name))) (hfind : fields.find? (·.name == m.name) = some f) :
    (Reader.record wanted fields start).ofText (objectText [m]) = .ok s ↔
      ∃ change, f.change.given? m.value = some change ∧ s = change start := by
  rw [← toOption_eq_some_iff, toOption_ofText_single h.takesOnly hm, Option.map_eq_some_iff]
  constructor
  · intro hs
    obtain ⟨s', hs', rfl⟩ := hs
    rcases Field.advance?_eq_some_iff.mp hs' with ⟨hnot, _⟩ | ⟨f', change, hfind', _, hgiven, rfl⟩
    · exact absurd (Field.mem_names_of_find? hfind) hnot
    · rw [hfind] at hfind'
      cases hfind'
      exact ⟨change, hgiven, rfl⟩
  · intro hs
    obtain ⟨change, hgiven, rfl⟩ := hs
    exact ⟨_, Field.advance?_eq_some_iff.mpr
      (Or.inr ⟨f, change, hfind, List.not_mem_nil, hgiven, rfl⟩), rfl⟩

/-- A field on its own is read if its value is given. -/
theorem exists_ofText_single_iff (h : FieldsSetParts fields parts)
    (hm : m.Fits (fields.map (·.name))) (hfind : fields.find? (·.name == m.name) = some f) :
    (∃ s, (Reader.record wanted fields start).ofText (objectText [m]) = .ok s) ↔
      (f.change.given? m.value).isSome = true := by
  rw [Option.isSome_iff_exists]
  constructor
  · intro hread
    obtain ⟨s, hs⟩ := hread
    obtain ⟨change, hchange, _⟩ := (ofText_single_eq_ok_iff h hm hfind).mp hs
    exact ⟨change, hchange⟩
  · intro hgiven
    obtain ⟨change, hchange⟩ := hgiven
    exact ⟨change start, (ofText_single_eq_ok_iff h hm hfind).mpr ⟨change, hchange, rfl⟩⟩

/-- An object is read if each of its fields is. -/
theorem exists_ofText_object_iff (h : FieldsSetParts fields parts)
    (hms : ∀ m ∈ ms, m.Fits (fields.map (·.name))) (honce : FieldsOnce (fields.map (·.name)) ms) :
    (∃ s, (Reader.record wanted fields start).ofText (objectText ms) = .ok s) ↔
      ∀ m ∈ ms, m.name ∈ fields.map (·.name) →
        ∃ s, (Reader.record wanted fields start).ofText (objectText [m]) = .ok s := by
  have hfold : (∃ s, (Reader.record wanted fields start).ofText (objectText ms) = .ok s) ↔
      (ms.foldlM (Field.advance? fields) ([], start)).isSome = true := by
    rw [Option.isSome_iff_exists]
    constructor
    · intro hread
      obtain ⟨s, hs⟩ := hread
      obtain ⟨names, hs⟩ := (ofText_object_eq_ok_iff h hms).mp hs
      exact ⟨_, hs⟩
    · intro hfold
      obtain ⟨⟨names, s⟩, hs⟩ := hfold
      exact ⟨s, (ofText_object_eq_ok_iff h hms).mpr ⟨names, hs⟩⟩
  rw [hfold, Field.isSome_foldlM_iff (fun _ _ _ => List.not_mem_nil) honce]
  constructor
  · intro hgiven m hm hname
    obtain ⟨f, hfind⟩ := exists_field_of_mem_names hname
    exact (exists_ofText_single_iff h (hms m hm) hfind).mpr (hgiven m hm f hfind)
  · intro hread m hm f hfind
    exact (exists_ofText_single_iff h (hms m hm) hfind).mp
      (hread m hm (Field.mem_names_of_find? hfind))

/-- What the part of a field is that is given. -/
theorem get_ofText_of_given (h : FieldsSetParts fields parts)
    (hms : ∀ m ∈ ms, m.Fits (fields.map (·.name)))
    (hs : (Reader.record wanted fields start).ofText (objectText ms) = .ok s) (hm : m ∈ ms)
    (hs' : (Reader.record wanted fields start).ofText (objectText [m]) = .ok s') {p : RecordPart σ}
    (hp : p ∈ parts) (hpm : p.name = m.name) : p.get s = p.get s' := by
  have hname : m.name ∈ fields.map (·.name) := by
    rw [h.names, ← hpm]
    exact List.mem_map_of_mem hp
  obtain ⟨f, hfind⟩ := exists_field_of_mem_names hname
  obtain ⟨names, hfold⟩ := (ofText_object_eq_ok_iff h hms).mp hs
  obtain ⟨change, hgiven, rfl⟩ := (ofText_single_eq_ok_iff h (hms m hm) hfind).mp hs'
  exact Field.get_of_given h.setsOnly hfold hm hfind hgiven hp hpm start

theorem get_ofText_of_absent (h : FieldsSetParts fields parts)
    (hms : ∀ m ∈ ms, m.Fits (fields.map (·.name)))
    (hs : (Reader.record wanted fields start).ofText (objectText ms) = .ok s) {p : RecordPart σ}
    (hp : p ∈ parts) (habsent : ∀ m ∈ ms, m.name ≠ p.name) : p.get s = p.get start := by
  obtain ⟨names, hfold⟩ := (ofText_object_eq_ok_iff h hms).mp hs
  exact Field.get_of_absent h.setsOnly hfold hp habsent

theorem fieldsOnce_of_ofText (h : FieldsSetParts fields parts)
    (hms : ∀ m ∈ ms, m.Fits (fields.map (·.name)))
    (hs : (Reader.record wanted fields start).ofText (objectText ms) = .ok s) :
    FieldsOnce (fields.map (·.name)) ms := by
  obtain ⟨names, hfold⟩ := (ofText_object_eq_ok_iff h hms).mp hs
  exact (Field.new_of_foldlM hfold).2

/-- Objects with the same fields agree in every part. -/
theorem get_ofText_of_same_fields (h : FieldsSetParts fields parts)
    (hms : ∀ m ∈ ms, m.Fits (fields.map (·.name))) (hms' : ∀ m ∈ ms', m.Fits (fields.map (·.name)))
    (hsame : ∀ m : MemberText, m.name ∈ fields.map (·.name) → (m ∈ ms ↔ m ∈ ms'))
    (hs : (Reader.record wanted fields start).ofText (objectText ms) = .ok s)
    (hs' : (Reader.record wanted fields start).ofText (objectText ms') = .ok s') {p : RecordPart σ}
    (hp : p ∈ parts) : p.get s = p.get s' := by
  have hpname : p.name ∈ fields.map (·.name) := h.names ▸ List.mem_map_of_mem hp
  by_cases hgiven : ∃ m ∈ ms, m.name = p.name
  · obtain ⟨m, hm, hmp⟩ := hgiven
    have hname : m.name ∈ fields.map (·.name) := hmp ▸ hpname
    have honce := fieldsOnce_of_ofText h hms hs
    obtain ⟨t, ht⟩ := (exists_ofText_object_iff h hms honce).mp ⟨s, hs⟩ m hm hname
    rw [get_ofText_of_given h hms hs hm ht hp hmp.symm,
      get_ofText_of_given h hms' hs' ((hsame m hname).mp hm) ht hp hmp.symm]
  · have habsent : ∀ m ∈ ms, m.name ≠ p.name := fun m hm hmp => hgiven ⟨m, hm, hmp⟩
    have habsent' : ∀ m ∈ ms', m.name ≠ p.name := by
      intro m hm hmp
      exact hgiven ⟨m, (hsame m (hmp ▸ hpname)).mpr hm, hmp⟩
    rw [get_ofText_of_absent h hms hs hp habsent, get_ofText_of_absent h hms' hs' hp habsent']

theorem FieldsOnce.perm {names : List String} (h : FieldsOnce names ms)
    (hperm : (ms.filter (·.name ∈ names)).Perm (ms'.filter (·.name ∈ names))) :
    FieldsOnce names ms' := by
  have hfilter : ∀ ms : List MemberText, (ms.map (·.name)).filter (· ∈ names)
      = (ms.filter (·.name ∈ names)).map (·.name) := fun ms => List.filter_map
  rw [FieldsOnce, hfilter] at h ⊢
  exact (hperm.map _).nodup_iff.mp h

/-- An object is read as another one that has the same fields. -/
theorem ofText_of_perm (h : FieldsSetParts fields parts)
    (hms : ∀ m ∈ ms, m.Fits (fields.map (·.name))) (hms' : ∀ m ∈ ms', m.Fits (fields.map (·.name)))
    (hperm : (ms.filter (·.name ∈ fields.map (·.name))).Perm
      (ms'.filter (·.name ∈ fields.map (·.name))))
    (hs : (Reader.record wanted fields start).ofText (objectText ms) = .ok s) :
    (Reader.record wanted fields start).ofText (objectText ms') = .ok s := by
  have hsame : ∀ m : MemberText, m.name ∈ fields.map (·.name) → (m ∈ ms ↔ m ∈ ms') := by
    intro m hname
    have hmem := hperm.mem_iff (a := m)
    simpa only [List.mem_filter, decide_eq_true_eq, hname, and_true] using hmem
  have honce := fieldsOnce_of_ofText h hms hs
  have halone := (exists_ofText_object_iff h hms honce).mp ⟨s, hs⟩
  have hread : ∃ s', (Reader.record wanted fields start).ofText (objectText ms') = .ok s' :=
    (exists_ofText_object_iff h hms' (honce.perm hperm)).mpr fun m hm hname =>
      halone m ((hsame m hname).mpr hm) hname
  obtain ⟨s', hs'⟩ := hread
  have heq : s = s' := h.eq_of_parts s s' fun p hp =>
    get_ofText_of_same_fields h hms hms' hsame hs hs' hp
  rw [hs', heq]

/-- **A record is read field by field** if its fields set its parts. -/
theorem FieldsSetParts.readsByField (h : FieldsSetParts fields parts) :
    ReadsByField (Reader.record wanted fields start).ofText parts start where
  reads_iff ms hms honce := by
    rw [← h.names] at hms honce ⊢
    exact exists_ofText_object_iff h hms honce
  given ms s hms hs m hm s' hs' p hp hpm := by
    rw [← h.names] at hms
    exact get_ofText_of_given h hms hs hm hs' hp hpm
  absent ms s hms hs p hp habsent := by
    rw [← h.names] at hms
    exact get_ofText_of_absent h hms hs hp habsent
  reordered ms ms' hms hms' hperm := by
    rw [← h.names] at hms hms' hperm
    apply Option.ext
    intro s
    rw [toOption_eq_some_iff, toOption_eq_some_iff]
    constructor
    · exact ofText_of_perm h hms hms' hperm
    · exact ofText_of_perm h hms' hms hperm.symm
  repeated ms hms htwice := by
    rw [← h.names] at hms htwice
    cases hread : (Reader.record wanted fields start).ofText (objectText ms) with
    | error d => exact ⟨d, rfl⟩
    | ok s => exact absurd (fieldsOnce_of_ofText h hms hread) htwice

end ByField

end Record

end ClassTidy.Json
