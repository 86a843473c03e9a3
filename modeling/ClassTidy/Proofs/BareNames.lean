import Mathlib.Tactic.FinCases
import ClassTidy.Proofs.LongestStem
import ClassTidy.Proofs.Partition
import ClassTidy.Proofs.Scopes
import ClassTidy.Proofs.Words

/-!
# Classes that are sorted like their bare names

The scope of a class is found by looking for the first label that scopes it, so a bare name that is
put into the scope of a label need not come out again: an earlier label may take off less, if the
label begins with it and a colon, or more, if it begins with the label and a colon and the name goes
on in the same way. Labels of which one begins the other, each with its colon, are said to
`Overlap`. Without an earlier label that overlaps, the name does come out:

> `bareName_inScope`: the bare name of a class is the name, if the label is the first to scope it.

Then the entry that owns the class is the one that owns the name. If an earlier label overlaps, the
first that does tells a name from its class for some entry, so nothing less is enough:

> `sortedLikeBare_iff`: the classes of a label are sorted like their bare names exactly if the label
> is not empty and no earlier label overlaps with it.
-/

namespace ClassTidy

variable {viewports : List String} {label name cls : String}

/-! ## Taking off a scope -/

theorem inScope_injective (label : String) : Function.Injective (inScope label) := by
  intro name name' h
  exact (String.append_right_inj _).mp h

@[simp] theorem toList_inScope (label name : String) :
    (inScope label name).toList = (label ++ ":").toList ++ name.toList :=
  String.toList_append ..

/-- What follows a name follows the class. -/
theorem inScope_append (label name more : String) :
    inScope label (name ++ more) = inScope label name ++ more :=
  String.append_assoc.symm

/-- A label that does not scope the class is passed over. -/
theorem bareName_cons_of_not_scopes (h : scopes label cls = false) :
    bareName (label :: viewports) cls = bareName viewports cls := by
  rw [bareName]
  cases hempty : label.isEmpty with
  | true => rfl
  | false => rw [if_neg Bool.false_ne_true, afterLabel?_eq_none hempty h]

/-- A label that scopes the class is taken off. -/
theorem inScope_bareName_cons (h : scopes label cls = true) :
    inScope label (bareName (label :: viewports) cls) = cls := by
  obtain ⟨hne, name, hname⟩ := scopes_iff.mp h
  rw [bareName, hne, if_neg Bool.false_ne_true, afterLabel?_eq_some_iff.mpr hname]
  exact hname

/-- A class that no label scopes is its own bare name. -/
@[simp] theorem bareName_eq_self (h : viewports.find? (scopes · cls) = none) :
    bareName viewports cls = cls := by
  induction viewports with
  | nil => rfl
  | cons label viewports ih =>
    rw [List.find?_eq_none, List.forall_mem_cons] at h
    rw [bareName_cons_of_not_scopes (Bool.eq_false_iff.mpr h.1)]
    exact ih (List.find?_eq_none.mpr h.2)

/-- In the scope of the first label that scopes the class, the bare name is the class again. -/
@[simp] theorem inScope_bareName (h : viewports.find? (scopes · cls) = some label) :
    inScope label (bareName viewports cls) = cls := by
  induction viewports with
  | nil => exact absurd h (by simp)
  | cons first viewports ih =>
    rw [List.find?_cons] at h
    cases hfirst : scopes first cls with
    | true =>
      rw [hfirst, Option.some_inj] at h
      rw [← h]
      exact inScope_bareName_cons hfirst
    | false =>
      rw [hfirst] at h
      rw [bareName_cons_of_not_scopes hfirst, ih h]

/-- A scope has a colon at least, so a class is longer than its bare name. -/
theorem bareName_eq_self_iff :
    bareName viewports cls = cls ↔ viewports.find? (scopes · cls) = none := by
  refine ⟨?_, bareName_eq_self⟩
  intro h
  cases hfind : viewports.find? (scopes · cls) with
  | none => rfl
  | some label =>
    have hlength := congrArg String.length (inScope_bareName hfind)
    rw [h, inScope, String.length_append, String.length_append] at hlength
    have hcolon : ":".length = 1 := rfl
    omega

/-- A name comes out of the scope that it is put into, if no other label scopes it first. -/
@[simp] theorem bareName_inScope
    (h : viewports.find? (scopes · (inScope label name)) = some label) :
    bareName viewports (inScope label name) = name :=
  inScope_injective label (inScope_bareName h)

/-- Without viewports a class is looked up up to its first interpolation. -/
theorem lookupKey_nil (cls : String) : lookupKey [] cls = literalPart cls := rfl

/-! ## Labels that overlap -/

/-- One of the labels begins the other, each with its colon. -/
def Overlap (label other : String) : Prop :=
  (label ++ ":").toList <+: (other ++ ":").toList ∨
    (other ++ ":").toList <+: (label ++ ":").toList

instance (label other : String) : Decidable (Overlap label other) :=
  inferInstanceAs (Decidable (_ ∨ _))

/-- A label that scopes a class of another label overlaps with it. -/
theorem overlap_of_scopes {other : String} (h : scopes other (inScope label name) = true) :
    Overlap other label := by
  obtain ⟨-, name', hname⟩ := scopes_iff.mp h
  have hother : (other ++ ":").toList <+: (inScope label name).toList := by
    simp [← hname]
  have hlabel : (label ++ ":").toList <+: (inScope label name).toList := by
    simp
  exact List.prefix_or_prefix_of_prefix hother hlabel

/-- A label that another one begins, each with its colon, goes on behind the other's colon. -/
theorem exists_more_of_begins {other : String} (hne : other ≠ label)
    (h : (other ++ ":").toList <+: (label ++ ":").toList) :
    ∃ more, more ≠ "" ∧ label ++ ":" = inScope other more := by
  obtain ⟨more, hmore⟩ := h
  have heq : label ++ ":" = inScope other (String.ofList more) := by
    apply String.toList_injective
    rw [toList_inScope, String.toList_ofList (l := more), hmore]
  refine ⟨String.ofList more, ?_, heq⟩
  intro hempty
  rw [hempty, inScope, String.append_empty] at heq
  exact hne ((String.append_left_inj _).mp heq).symm

/-- The longer one of two labels that overlap goes on behind the colon of the other. -/
theorem Overlap.exists_more {other : String} (h : Overlap other label) (hne : other ≠ label) :
    ∃ more, more ≠ "" ∧
      (label ++ ":" = inScope other more ∨ other ++ ":" = inScope label more) := by
  rcases h with h | h
  · obtain ⟨more, hmore, heq⟩ := exists_more_of_begins hne h
    exact ⟨more, hmore, Or.inl heq⟩
  · obtain ⟨more, hmore, heq⟩ := exists_more_of_begins hne.symm h
    exact ⟨more, hmore, Or.inr heq⟩

/-- Of the labels that overlap with the label of a class, the first one is the first to scope the
class, if it scopes it at all. -/
theorem find?_scopes_inScope {before after : List String} {other : String}
    (hbefore : ∀ l ∈ before, l ≠ "" → ¬Overlap l label)
    (hother : scopes other (inScope label name) = true) :
    (before ++ other :: after).find? (scopes · (inScope label name)) = some other := by
  refine List.find?_eq_some_iff_append.mpr ⟨hother, before, after, rfl, ?_⟩
  intro l hl
  rw [Bool.not_eq_true', Bool.eq_false_iff]
  intro hscopes
  have hne : l ≠ "" := by
    rintro rfl
    exact absurd hscopes (by simp [scopes])
  exact hbefore l hl hne (overlap_of_scopes hscopes)

/-- Every name puts a class into the scope of a label that is not empty. -/
theorem scopes_inScope (hne : label ≠ "") (name : String) :
    scopes label (inScope label name) = true :=
  scopes_iff.mpr ⟨by simpa using hne, name, rfl⟩

/-! ## Sorting like the bare names -/

/-- The sorted classes with each class changed where it stands. -/
def Sorted.mapClasses (f : String → String) (s : Sorted) : Sorted :=
  { shelves := s.shelves.map fun shelf =>
      ⟨shelf.name, shelf.buckets.map fun bucket => ⟨bucket.key, bucket.classes.map f⟩⟩
    uncategorized := s.uncategorized.map f }

private theorem filter_map_of_eq {α β : Type} {f : α → β} {p : β → Bool} {q : α → Bool}
    {l : List α} (h : ∀ a ∈ l, p (f a) = q a) : (l.map f).filter p = (l.filter q).map f := by
  rw [List.filter_map]
  exact congrArg (List.map f) (List.filter_congr h)

/-- Classes are sorted like others that have the same owners. -/
theorem Sorted.ofClasses_map {t : Taxonomy} {viewports' names : List String} {f : String → String}
    (h : ∀ name ∈ names,
      owner? t.ranking viewports (f name) = owner? t.ranking viewports' name) :
    ofClasses t viewports (names.map f) = (ofClasses t viewports' names).mapClasses f := by
  by_cases hnil : names = [] ∨ t = []
  · rw [ofClasses_eq_empty hnil, ofClasses_eq_empty (hnil.imp_left fun he => by rw [he]; rfl)]
    rfl
  · obtain ⟨hnames, ht⟩ := not_or.mp hnil
    have hat : ∀ i j, (names.map f).filter (ownedAt t viewports i j)
        = (names.filter (ownedAt t viewports' i j)).map f := by
      intro i j
      apply filter_map_of_eq
      intro name hname
      rw [ownedAt, ownedAt, h name hname]
    have hun : (names.map f).filter (unowned t viewports)
        = (names.filter (unowned t viewports')).map f := by
      apply filter_map_of_eq
      intro name hname
      rw [unowned, unowned, h name hname]
    rw [ofClasses_eq_filled (by simpa using hnames) ht, ofClasses_eq_filled hnames ht]
    unfold filled mapClasses
    simp only [hat, hun, List.map_map, Function.comp_def]

/-- Whatever the taxonomy, classes in the scope of the label are sorted as their bare names are when
there are no viewports. -/
def SortedLikeBare (viewports : List String) (label : String) : Prop :=
  ∀ (t : Taxonomy) (names : List String),
    Sorted.ofClasses t viewports (names.map (inScope label))
      = (Sorted.ofClasses t [] names).mapClasses (inScope label)

/-- It is enough that the names come out of their scope. -/
theorem sortedLikeBare_of_bareName (h : ∀ name, bareName viewports (inScope label name) = name) :
    SortedLikeBare viewports label := by
  intro t names
  apply Sorted.ofClasses_map
  intro name _
  unfold owner?
  rw [lookupKey_nil, lookupKey, h]

/-! ## Telling a class from its bare name -/

/-- A class has an owner exactly if its name has one. -/
theorem SortedLikeBare.owner?_eq_none_iff (h : SortedLikeBare viewports label) {t : Taxonomy}
    (ht : t ≠ []) (name : String) :
    owner? t.ranking viewports (inScope label name) = none ↔ owner? t.ranking [] name = none := by
  have hsorted : [inScope label name].filter (unowned t viewports)
      = ([name].filter (unowned t [])).map (inScope label) := by
    have huncategorized := congrArg Sorted.uncategorized (h t [name])
    rwa [List.map_singleton, Sorted.ofClasses_eq_filled (List.cons_ne_nil _ _) ht,
      Sorted.ofClasses_eq_filled (List.cons_ne_nil _ _) ht] at huncategorized
  have hempty : [inScope label name].filter (unowned t viewports) = [] ↔
      [name].filter (unowned t []) = [] := by
    rw [hsorted, List.map_eq_nil_iff]
  have hnone : ∀ {viewports cls}, [cls].filter (unowned t viewports) = [] ↔
      owner? t.ranking viewports cls ≠ none := by
    intro viewports cls
    simp [unowned]
  rw [hnone, hnone] at hempty
  exact not_iff_not.mp hempty

/-- Two entries of which a text that is not empty begins with one at most. -/
def probes : List String := ["x", "y"]

/-- A taxonomy with a probe for its only entry owns the classes whose lookup key begins with it. -/
theorem owner?_probe_eq_none_iff {probe : String} (hprobe : probe ∈ probes) :
    owner? (Taxonomy.ranking [⟨"", probe⟩]) viewports cls = none ↔
      ¬probe.toList <+: (lookupKey viewports cls).toList := by
  have hentries : Taxonomy.entries [⟨"", probe⟩] = [⟨0, 0, probe⟩] := by
    fin_cases hprobe <;> decide +kernel
  have hstem : Entry.stem ⟨0, 0, probe⟩ = probe := by
    fin_cases hprobe <;> rfl
  rw [Taxonomy.owner?_eq_none_iff, hentries, List.forall_mem_singleton, hstem]

theorem SortedLikeBare.probe_begins_iff (h : SortedLikeBare viewports label) {probe : String}
    (hprobe : probe ∈ probes) (name : String) :
    probe.toList <+: (literalPart (bareName viewports (inScope label name))).toList ↔
      probe.toList <+: (literalPart name).toList := by
  have howner := h.owner?_eq_none_iff (t := [⟨"", probe⟩]) (List.cons_ne_nil _ _) name
  rw [owner?_probe_eq_none_iff hprobe, owner?_probe_eq_none_iff hprobe] at howner
  exact not_iff_not.mp howner

/-- An interpolation cuts a text off at the end, so what is left begins as the text does. -/
theorem beforeInterpolation_begins (cs : List Char) : beforeInterpolation cs <+: cs := by
  induction cs with
  | nil => exact List.prefix_refl _
  | cons c cs ih =>
    rw [beforeInterpolation]
    split
    next => exact List.nil_prefix
    next => exact List.cons_prefix_cons.mpr ⟨rfl, ih⟩

theorem literalPart_begins (cls : String) : (literalPart cls).toList <+: cls.toList := by
  unfold literalPart
  rw [String.toList_ofList]
  exact beforeInterpolation_begins cls.toList

/-- One of the probes does not begin a text that it ends. -/
theorem exists_probe {front : String} (hfront : front ≠ "") :
    ∃ probe ∈ probes, ¬probe.toList <+: (literalPart (front ++ probe)).toList := by
  obtain ⟨c, cs, hcs⟩ := List.exists_cons_of_ne_nil (mt String.toList_eq_nil_iff.mp hfront)
  have hbegins : ∀ (d : Char) (probe : String), probe.toList = [d] →
      probe.toList <+: (literalPart (front ++ probe)).toList → d = c := by
    intro d probe hd h
    have htext := h.trans (literalPart_begins _)
    rw [String.toList_append, hcs, hd, List.cons_append] at htext
    exact (List.cons_prefix_cons.mp htext).1
  by_cases hc : c = 'x'
  · refine ⟨"y", by decide, fun h => ?_⟩
    have hy : 'y' = c := hbegins 'y' "y" rfl h
    exact absurd (hy.trans hc) (by decide)
  · refine ⟨"x", by decide, fun h => ?_⟩
    have hx : 'x' = c := hbegins 'x' "x" rfl h
    exact hc hx.symm

theorem literalPart_probe {probe : String} (hprobe : probe ∈ probes) :
    literalPart probe = probe := by
  fin_cases hprobe <;> rfl

/-- A class is told from its name if the same text stands before one of them and not the other. -/
theorem not_sortedLikeBare {front : String} (hfront : front ≠ "")
    (h : ∀ probe ∈ probes, bareName viewports (inScope label probe) = front ++ probe ∨
      bareName viewports (inScope label (front ++ probe)) = probe) :
    ¬SortedLikeBare viewports label := by
  intro hsorted
  obtain ⟨probe, hprobe, hnot⟩ := exists_probe hfront
  have hself : probe.toList <+: (literalPart probe).toList := by
    simp only [literalPart_probe hprobe, List.prefix_rfl]
  rcases h probe hprobe with hbare | hbare
  · have hiff := hsorted.probe_begins_iff hprobe probe
    rw [hbare] at hiff
    exact hnot (hiff.mpr hself)
  · have hiff := hsorted.probe_begins_iff hprobe (front ++ probe)
    rw [hbare] at hiff
    exact hnot (hiff.mp hself)

/-- The empty label takes no scope off, and no other label does from a colon and a probe. -/
theorem not_sortedLikeBare_empty (viewports : List String) : ¬SortedLikeBare viewports "" := by
  have hfront : ":" ≠ "" := by decide
  apply not_sortedLikeBare hfront
  intro probe hprobe
  refine Or.inl (bareName_eq_self (List.find?_eq_none.mpr ?_))
  intro other _ hscopes
  obtain ⟨hne, name, hname⟩ := scopes_iff.mp hscopes
  have hchars := congrArg String.toList hname
  rw [toList_inScope, toList_inScope, String.toList_append] at hchars
  -- The label begins with the colon, so its own colon is in the probe.
  obtain ⟨c, cs, hcs⟩ := List.exists_cons_of_ne_nil
    (mt String.toList_eq_nil_iff.mp (by simpa using hne))
  rw [hcs] at hchars
  have hcolon : ':' ∈ probe.toList := by
    have htail := (List.cons.inj hchars).2
    rw [show probe.toList = _ from htail.symm]
    simp
  revert hcolon
  fin_cases hprobe <;> decide

/-- An earlier label that overlaps takes off less than the label or more. -/
theorem not_sortedLikeBare_of_overlap {before after : List String} {other : String}
    (hbefore : ∀ l ∈ before, l ≠ "" → ¬Overlap l label) (hother : other ≠ "")
    (hoverlap : Overlap other label) (hne : other ≠ label) :
    ¬SortedLikeBare (before ++ other :: after) label := by
  have hbare : ∀ {name name'}, inScope label name = inScope other name' →
      bareName (before ++ other :: after) (inScope label name) = name' := by
    intro name name' heq
    have hscopes : scopes other (inScope label name) = true := by
      rw [heq]
      exact scopes_inScope hother name'
    have hfirst : (before ++ other :: after).find? (scopes · (inScope label name)) = some other :=
      find?_scopes_inScope hbefore hscopes
    exact inScope_injective other ((inScope_bareName hfirst).trans heq)
  obtain ⟨more, hmore, heq | heq⟩ := hoverlap.exists_more hne
  · apply not_sortedLikeBare hmore
    intro probe _
    refine Or.inl (hbare ?_)
    rw [inScope, heq, inScope_append]
  · apply not_sortedLikeBare hmore
    intro probe _
    refine Or.inr (hbare ?_)
    rw [inScope_append, ← heq, inScope]

/-- The first occurrence of a member stands behind the members that differ from it. -/
theorem exists_takeWhile_ne {α : Type} [DecidableEq α] {a : α} {l : List α} (h : a ∈ l) :
    ∃ after, l = l.takeWhile (· ≠ a) ++ a :: after := by
  obtain ⟨before, after, rfl, hnot⟩ := List.eq_append_cons_of_mem h
  have hbefore : ∀ b ∈ before, decide (b ≠ a) = true := by
    intro b hb
    exact decide_eq_true fun he => hnot (he ▸ hb)
  refine ⟨after, ?_⟩
  rw [List.takeWhile_append_of_pos hbefore, List.takeWhile_cons_of_neg (by simp), List.append_nil]

/-- **When the classes of a label are sorted like their bare names**: exactly if the label is not
empty and none of the labels before it that are not empty overlaps with it. -/
theorem sortedLikeBare_iff (hlabel : label ∈ viewports) :
    SortedLikeBare viewports label ↔
      label ≠ "" ∧
        ∀ other ∈ viewports.takeWhile (· ≠ label), other ≠ "" → ¬Overlap other label := by
  obtain ⟨after, hviewports⟩ := exists_takeWhile_ne hlabel
  constructor
  · intro hsorted
    constructor
    · rintro rfl
      exact not_sortedLikeBare_empty viewports hsorted
    · intro other hother hne hoverlap
      -- Of the labels before that overlap, the first one tells a class from its name.
      have hsome : ((viewports.takeWhile (· ≠ label)).find? fun l =>
          decide (l ≠ "" ∧ Overlap l label)).isSome := by
        rw [List.find?_isSome]
        exact ⟨other, hother, decide_eq_true ⟨hne, hoverlap⟩⟩
      obtain ⟨first, hfirst⟩ := Option.isSome_iff_exists.mp hsome
      have hearlier : first ≠ label := by
        simpa using List.mem_takeWhile_imp (List.mem_of_find?_eq_some hfirst)
      obtain ⟨hfound, before, between, hsplit, hbefore⟩ := List.find?_eq_some_iff_append.mp hfirst
      obtain ⟨hfirstne, hfirstoverlap⟩ := of_decide_eq_true hfound
      rw [hviewports, hsplit, List.append_assoc, List.cons_append] at hsorted
      refine not_sortedLikeBare_of_overlap ?_ hfirstne hfirstoverlap hearlier hsorted
      intro l hl hlne hloverlap
      exact absurd (hbefore l hl) (by simp [hlne, hloverlap])
  · rintro ⟨hne, hbefore⟩
    apply sortedLikeBare_of_bareName
    intro name
    apply bareName_inScope
    rw [hviewports]
    exact find?_scopes_inScope hbefore (scopes_inScope hne name)

/-- A label that another one continues behind a colon, and a label that none overlaps with. -/
theorem sortedLikeBare_iff_nested :
    let viewports := ["", "lg", "md:x", "md"]
    ("lg" ∈ viewports ∧ SortedLikeBare viewports "lg") ∧
      ("md" ∈ viewports ∧ ¬SortedLikeBare viewports "md") := by
  intro viewports
  have hlg : "lg" ∈ viewports := by decide
  have hmd : "md" ∈ viewports := by decide
  exact ⟨⟨hlg, (sortedLikeBare_iff hlg).mpr (by decide)⟩, hmd,
    fun h => absurd ((sortedLikeBare_iff hmd).mp h) (by decide)⟩

end ClassTidy
