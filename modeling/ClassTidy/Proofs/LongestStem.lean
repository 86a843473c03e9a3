import ClassTidy.Proofs.Owners

/-!
# The longest stem owns a class

The owner of a class is the first entry of the ranking whose stem begins the lookup key. The ranking
is a stable sort of the declared entries by the length of their stems, longest first, so the owner
can be told from the declarations alone. `Taxonomy.Wins` says of one declaration that its stem is a
longest one that begins the key, and that no declaration before it has such a stem:

> `owner?_eq_some_iff`: the owner of a class is the entry whose declaration wins;
> `owner?_eq_none_iff`: a class has no owner if no declared stem begins its key.

Stems of one length that begin the same key are the same text, so a stem that has been declared
before never wins again:

> `longest_stem_owns`: all of it together.
-/

namespace ClassTidy

namespace Entry

variable {e e' : Entry} {key : String}

@[simp] theorem begins_iff : e.begins key = true ↔ e.stem.toList <+: key.toList :=
  List.isPrefixOf_iff_prefix

/-- Of one text there is only one beginning of each length. -/
theorem stem_eq_of_length_eq (h : e.stem.toList <+: key.toList) (h' : e'.stem.toList <+: key.toList)
    (hlength : e.length = e'.length) : e.stem = e'.stem := by
  unfold length at hlength
  rw [← String.length_toList, ← String.length_toList] at hlength
  have hle : e.stem.toList <+: e'.stem.toList := List.prefix_of_prefix_length_le h h' hlength.le
  exact String.toList_injective (hle.eq_of_length hlength)

end Entry

namespace Taxonomy

/-- The declaration of the entry behind those before it wins the key: its stem begins the key, no
declared stem that does so is longer, and none declared before it is as long. -/
structure Wins (t : Taxonomy) (key : String) (before : List Entry) (e : Entry) : Prop where
  declared : before ++ [e] <+: t.entries
  begins : e.stem.toList <+: key.toList
  longest : ∀ e' ∈ t.entries, e'.stem.toList <+: key.toList → e'.length ≤ e.length
  first : ∀ e' ∈ before, e'.stem.toList <+: key.toList → e'.length ≠ e.length

variable {t : Taxonomy} {viewports : List String} {cls : String} {e : Entry}

/-- The owner is found among the entries that begin the lookup key. -/
theorem owner?_eq_head?_sortBy : owner? t.ranking viewports cls
    = (sortBy (fun e => OrderDual.toDual e.length)
        (t.entries.filter (·.begins (lookupKey viewports cls)))).head? := by
  unfold owner?
  rw [← List.head?_filter, ranking_eq_sortBy, filter_sortBy]

/-- **The owner is the first declared of the entries with the longest stem.** -/
theorem owner?_eq_some_iff : owner? t.ranking viewports cls = some e ↔
    ∃ before, t.Wins (lookupKey viewports cls) before e := by
  rw [owner?_eq_head?_sortBy, head?_sortBy_eq_some_iff, List.find?_filter,
    List.find?_eq_some_iff_append]
  simp only [List.mem_filter, Entry.begins_iff, OrderDual.toDual_le_toDual, OrderDual.toDual_inj,
    decide_eq_true_eq, Bool.not_eq_true', decide_eq_false_iff_not, and_true]
  constructor
  · rintro ⟨hlongest, hbegins, before, after, hentries, hfirst⟩
    refine ⟨before, ⟨⟨after, ?_⟩, hbegins, ?_, ?_⟩⟩
    · rw [hentries, List.append_assoc, List.singleton_append]
    · intro e' he' hbegins'
      exact hlongest e' ⟨he', hbegins'⟩
    · intro e' he' hbegins' hlength
      exact hfirst e' he' ⟨hbegins', hlength⟩
  · rintro ⟨before, ⟨after, hentries⟩, hbegins, hlongest, hfirst⟩
    refine ⟨?_, hbegins, before, after, ?_, ?_⟩
    · rintro e' ⟨he', hbegins'⟩
      exact hlongest e' he' hbegins'
    · rw [← hentries, List.append_assoc, List.singleton_append]
    · rintro e' he' ⟨hbegins', hlength⟩
      exact hfirst e' he' hbegins' hlength

theorem owner?_eq_none_iff : owner? t.ranking viewports cls = none ↔
    ∀ e ∈ t.entries, ¬e.stem.toList <+: (lookupKey viewports cls).toList := by
  simp [owner?]

theorem owner_mem_entries (h : owner? t.ranking viewports cls = some e) : e ∈ t.entries :=
  mem_entries_iff.mpr (declares_of_owner h)

theorem stem_begins_of_owner (h : owner? t.ranking viewports cls = some e) :
    e.stem.toList <+: (lookupKey viewports cls).toList := by
  obtain ⟨before, hwins⟩ := owner?_eq_some_iff.mp h
  exact hwins.begins

/-- A declaration does not win if its stem has been declared before. -/
theorem not_wins_of_stem_mem {key : String} {before : List Entry} {e' : Entry} (he' : e' ∈ before)
    (hstem : e'.stem = e.stem) : ¬t.Wins key before e := by
  intro h
  have hbegins : e'.stem.toList <+: key.toList := by
    rw [hstem]
    exact h.begins
  exact h.first e' he' hbegins (congrArg String.length hstem)

/-- An entry owns nothing if its stem has been declared before its own first declaration. -/
theorem owner?_ne_of_stem_mem {before : List Entry} {e' : Entry}
    (hdeclared : before ++ [e] <+: t.entries) (hnew : e ∉ before) (he' : e' ∈ before)
    (hstem : e'.stem = e.stem) : owner? t.ranking viewports cls ≠ some e := by
  intro howner
  obtain ⟨before', hwins⟩ := owner?_eq_some_iff.mp howner
  have hbefore : before <+: t.entries := (List.prefix_append ..).trans hdeclared
  have hbefore' : before' <+: t.entries := (List.prefix_append ..).trans hwins.declared
  -- The winning declaration of the entry is the given one or a later one.
  have hle : before.length ≤ before'.length := by
    by_contra hlt
    have hinitial : before' ++ [e] <+: before := by
      apply List.prefix_of_prefix_length_le hwins.declared hbefore
      rw [List.length_append, List.length_singleton]
      omega
    exact hnew (hinitial.subset (by simp))
  have hinitial : before <+: before' := List.prefix_of_prefix_length_le hbefore hbefore' hle
  exact not_wins_of_stem_mem (hinitial.subset he') hstem hwins

/-- **The longest declared stem owns a class, and of equal ones the first declared.** A class has no
owner exactly if no declared stem begins its key. Otherwise its owner is, of all entries of all
categories whose stem begins the key, the first declared of those with the longest stem. These all
have the same stem. So a declaration whose stem has been declared before, in any category and with a
star or without, never wins, and an entry that is new there never owns a class. -/
theorem longest_stem_owns (t : Taxonomy) (viewports : List String) (cls : String) :
    let key := lookupKey viewports cls
    let owner := owner? t.ranking viewports cls
    (owner = none ↔ ∀ e ∈ t.entries, ¬e.stem.toList <+: key.toList) ∧
    (∀ e, owner = some e ↔ ∃ before, t.Wins key before e) ∧
    (∀ e ∈ t.entries, ∀ e' ∈ t.entries, e.stem.toList <+: key.toList →
      e'.stem.toList <+: key.toList → e.length = e'.length → e.stem = e'.stem) ∧
    (∀ before e e', before ++ [e] <+: t.entries → e' ∈ before → e'.stem = e.stem →
      ¬t.Wins key before e ∧ (e ∉ before → owner ≠ some e)) := by
  intro key owner
  refine ⟨owner?_eq_none_iff, fun e => owner?_eq_some_iff, ?_, ?_⟩
  · intro e _ e' _ hbegins hbegins' hlength
    exact Entry.stem_eq_of_length_eq hbegins hbegins' hlength
  · intro before e e' hdeclared he' hstem
    refine ⟨not_wins_of_stem_mem he' hstem, ?_⟩
    intro hnew
    exact owner?_ne_of_stem_mem hdeclared hnew he' hstem

/-- A stem with a star and without, after a shorter one, in a category and across categories. -/
theorem longest_stem_owns_tied :
    let t : Taxonomy := [⟨"space", "p- p-*"⟩, ⟨"size", "p-x* p-x p-"⟩]
    let before : List Entry := [⟨0, 0, "p-"⟩, ⟨0, 1, "p-*"⟩, ⟨1, 0, "p-x*"⟩]
    let e : Entry := ⟨1, 1, "p-x"⟩
    let e' : Entry := ⟨1, 0, "p-x*"⟩
    let key := lookupKey ["md"] "md:p-x1"
    let owner := owner? t.ranking ["md"] "md:p-x1"
    (e.stem.toList <+: key.toList ∧ e'.stem.toList <+: key.toList ∧ e.length = e'.length) ∧
      e.stem = e'.stem ∧
      (before ++ [e] <+: t.entries ∧ e' ∈ before ∧ e ∉ before) ∧
      owner = some e' ∧ owner ≠ some e := by
  intro t before e e' key owner
  have hentries : t.entries = before ++ [e, ⟨1, 2, "p-"⟩] := by decide +kernel
  have hdeclared : before ++ [e] <+: t.entries := by
    rw [hentries]
    exact ⟨[⟨1, 2, "p-"⟩], rfl⟩
  have he : e ∈ t.entries := hdeclared.subset (by simp)
  have he' : e' ∈ before := by decide
  have hmem' : e' ∈ t.entries := hdeclared.subset (List.mem_append_left _ he')
  have hnew : e ∉ before := by decide
  have hbegins : e.stem.toList <+: key.toList := by decide
  have hbegins' : e'.stem.toList <+: key.toList := by decide
  have hlength : e.length = e'.length := by decide
  have hwins : t.Wins key [⟨0, 0, "p-"⟩, ⟨0, 1, "p-*"⟩] e' := by
    refine ⟨?_, hbegins', ?_, by decide⟩
    · rw [hentries]
      exact ⟨[e, ⟨1, 2, "p-"⟩], rfl⟩
    · rw [hentries]
      decide
  obtain ⟨-, howner, hties, hlater⟩ := longest_stem_owns t ["md"] "md:p-x1"
  have hstem : e.stem = e'.stem := hties e he e' hmem' hbegins hbegins' hlength
  exact ⟨⟨hbegins, hbegins', hlength⟩, hstem, ⟨hdeclared, he', hnew⟩,
    (howner e').mpr ⟨_, hwins⟩, (hlater before e e' hdeclared he' hstem.symm).2 hnew⟩

end Taxonomy

end ClassTidy
