import ClassTidy.Json.Record
import ClassTidy.Proofs.Json.Numerals

/-!
# What can be read at all

`Reader.Yields` says that all values that a reader gives, from whatever text, have a property. A
property that each item of a series keeps is one of what the series gives (`property_of_series`),
so a record has what its start has and the changes of its fields keep:

> `Yields.record`: every record that is read has a property that each field keeps.
-/

namespace ClassTidy.Json

/-- Every value that is read has the property. -/
structure Reader.Yields {α : Type} (r : Reader α) (P : α → Prop) : Prop where
  of_read : ∀ {cs a rest}, r.read cs = .ok (a, rest) → P a

namespace Reader.Yields

variable {α : Type} {r : Reader α} {P : α → Prop}

/-- A value that is read from a whole text has the property too. -/
theorem of_ofText (h : r.Yields P) {text : String} {a : α} (ha : r.ofText text = .ok a) : P a := by
  unfold ofText at ha
  split at ha
  · cases ha
  · next hread =>
    split at ha
    · cases ha; exact h.of_read hread
    · cases ha

theorem map {β : Type} {f : β → α} {r : Reader β} (h : r.Yields fun b => P (f b)) :
    (r.map f).Yields P where
  of_read ha := by
    simp only [Reader.map] at ha
    split at ha
    · next hb => cases ha; exact h.of_read hb
    · cases ha

theorem afterColon (h : r.Yields P) : r.afterColon.Yields P where
  of_read ha := by
    simp only [Reader.afterColon] at ha
    split at ha
    · exact h.of_read ha
    · cases ha

theorem member {value : String → Reader α} (h : ∀ key, (value key).Yields P) :
    (Reader.member value).Yields P where
  of_read ha := by
    simp only [Reader.member] at ha
    split at ha
    · cases ha
    · split at ha
      · split at ha
        · cases ha
        · exact (h _).of_read ha
      · cases ha

/-- Every natural number that is read is below `2^64`. -/
theorem natural (wanted : String) : (Reader.natural wanted).Yields (· < UInt64.size) where
  of_read h := by
    simp only [Reader.natural] at h
    split at h
    · cases h
    · split at h
      · split at h
        · cases h
        · next hn =>
          have hlt := lt_of_number hn
          split at h
          · cases h; omega
          · cases h
        · cases h
      · cases h

end Reader.Yields

/-! ## Series and records -/

variable {σ : Type} {P : σ → Prop}

/-- A series keeps what its items keep. -/
theorem property_of_series {b : Bracket} {item : σ → Reader σ}
    (hitem : ∀ s, P s → (item s).Yields P) {s s' : σ} {cs rest : List Char} (hs : P s)
    (h : series b item s cs = .ok (s', rest)) : P s' := by
  fun_induction series b item s cs with
  | case1 => cases h
  | case2 => cases h
  | case3 s cs _ rest₁ hi =>
    -- The series ends behind this item.
    cases h
    exact (hitem s hs).of_read hi
  | case4 => cases h
  | case5 s cs _ rest₁ hi r r' hc hb _ ih =>
    -- It goes on behind a comma.
    exact ih ((hitem s hs).of_read hi) h
  | case6 => cases h

theorem Reader.Yields.bracketed {b : Bracket} {wanted : String} {item : σ → Reader σ} {start : σ}
    (hitem : ∀ s, P s → (item s).Yields P) (hstart : P start) :
    (Reader.bracketed b wanted item start).Yields P where
  of_read h := by
    simp only [Reader.bracketed, enclosed] at h
    split at h
    · cases h
    · split at h
      · split at h
        · cases h
        · split at h
          · cases h; exact hstart
          · exact property_of_series hitem hstart h
      · cases h

namespace Field

/-- The value of the field makes a change that keeps the property. -/
def Keeps (f : Field σ) (P : σ → Prop) : Prop :=
  f.change.Yields fun change => ∀ s, P s → P (change s)

variable {fields : List (Field σ)}

/-- A member keeps the property, be it a field, or passed over, or refused. -/
theorem yields_member (hfields : ∀ f ∈ fields, f.Keeps P) {s : List String × σ} (hs : P s.2) :
    (Reader.member (member fields s)).Yields fun s' => P s'.2 := by
  apply Reader.Yields.member
  intro key
  unfold member
  split
  next => exact Reader.Yields.map ⟨fun _ => hs⟩
  next f hf =>
    split
    -- A field that is given again is refused, so it yields nothing.
    next => exact ⟨fun h => by cases h⟩
    next =>
      have hchange := Reader.Yields.afterColon (hfields f (List.mem_of_find?_eq_some hf))
      exact Reader.Yields.map ⟨fun h => hchange.of_read h s.2 hs⟩

/-- An array of fields keeps it, from behind one of its elements. -/
theorem property_of_elements (hfields : ∀ f ∈ fields, f.Keeps P) {s s' : σ} {cs rest : List Char}
    (hs : P s) (h : elements fields s cs = .ok (s', rest)) : P s' := by
  induction fields generalizing s cs with
  | nil =>
    rw [elements] at h
    split at h
    · cases h
    · split at h
      · cases h; exact hs
      · split at h
        · split at h <;> cases h
        · cases h
  | cons f fields ih =>
    rw [elements] at h
    split at h
    · cases h
    · split at h
      · cases h; exact hs
      · split at h
        · split at h
          · cases h
          · split at h
            · cases h
            · next hf =>
              have hchange := (hfields f (List.mem_cons_self ..)).of_read hf
              exact ih (fun g hg => hfields g (List.mem_cons_of_mem _ hg)) (hchange _ hs) h
        · cases h

/-- An array of fields keeps it. -/
theorem property_of_array (hfields : ∀ f ∈ fields, f.Keeps P) {s s' : σ} {cs rest : List Char}
    (hs : P s) (h : array fields s cs = .ok (s', rest)) : P s' := by
  unfold array at h
  split at h
  · cases h
  · split at h
    · cases h; exact hs
    · cases h
  · split at h
    · cases h; exact hs
    · split at h
      · cases h
      · next hf =>
        have hchange := (hfields _ (List.mem_cons_self ..)).of_read hf
        exact property_of_elements (fun g hg => hfields g (List.mem_cons_of_mem _ hg))
          (hchange _ hs) h

end Field

/-- **A record has what its start has and its fields keep**, be it read from an object or from an
array. -/
theorem Reader.Yields.record {wanted : String} {fields : List (Field σ)} {start : σ}
    (hfields : ∀ f ∈ fields, f.Keeps P) (hstart : P start) :
    (Reader.record wanted fields start).Yields P where
  of_read h := by
    simp only [Reader.record] at h
    split at h
    next => exact Field.property_of_array hfields hstart h
    next =>
      have hobject : (Reader.record.object wanted fields start).Yields fun s => P s.2 :=
        bracketed (fun _ => Field.yields_member hfields) hstart
      exact (map hobject).of_read h

end ClassTidy.Json
