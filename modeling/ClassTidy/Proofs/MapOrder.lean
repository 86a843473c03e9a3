import ClassTidy.Proofs.FieldByField
import ClassTidy.Proofs.SettingsFiles

/-!
# The order of maps

The categories of settings and the viewports of an attribute are given as objects, whose members
become a map one after the other (`Reader.Gives.orderedMap`). So a key that comes again keeps its
place and takes the last value, as it does when settings are written and when viewports are set one
by one:

> `maps_merge_members`: what is read from such an object, however its strings are spelled.
-/

namespace ClassTidy

open Json

/-- An object with one field is read as what the value of the field gives. -/
theorem ofText_single_of_gives {σ : Type} {fields : List (Json.Field σ)}
    {parts : List (RecordPart σ)} (h : FieldsSetParts fields parts) {m : MemberText}
    {f : Json.Field σ} {change : σ → σ}
    (hfind : fields.find? (·.name == m.name) = some f) (hvalue : WellFormed m.value)
    (hgives : f.change.Gives m.value change) (wanted : String) (start : σ) :
    (Reader.record wanted fields start).ofText (objectText [m]) = .ok (change start) :=
  (ofText_single_eq_ok_iff h (MemberText.fits_of_wellFormed hvalue) hfind).mpr
    ⟨change, Reader.given?_of_gives hgives, rfl⟩

/-- The object of members with well-formed values is well-formed. -/
theorem wellFormed_of_entries {α : Type} {entries : List (MemberText × α)}
    (h : ∀ e ∈ entries, WellFormed e.1.value) :
    WellFormed (inBrackets .object (entries.map (·.1.text))) := by
  apply wellFormed_of_members
  intro t ht
  obtain ⟨e, he, rfl⟩ := List.mem_map.mp ht
  exact MemberText.isMember (h e he)

namespace Settings

/-- Categories that are given one after the other are merged by their names. -/
theorem ofJson_categories {entries : List (MemberText × String)} {m : MemberText}
    (hentries : ∀ e ∈ entries, SpellsString e.1.value e.2) (hname : m.name = "categories")
    (hvalue : m.value = inBrackets .object (entries.map (·.1.text))) :
    ofJson (objectText [m]) =
      .ok { taxonomy := mergedBy Category.name (entries.map fun e => ⟨e.1.name, e.2⟩) } := by
  have hmap : (Reader.orderedMap (.string "a string")).Gives m.value
      (.ofList (entries.map fun e => (e.1.name, e.2))) := by
    rw [hvalue]
    exact Reader.Gives.orderedMap fun e he => .string "a string" (hentries e he)
  have hwell : WellFormed m.value := by
    rw [hvalue]
    exact wellFormed_of_entries fun e he => (hentries e he).wellFormed
  have hfind : fields.find? (·.name == m.name) = fields.head? := by
    rw [hname]
    rfl
  have hread := ofText_single_of_gives fieldsSetParts hfind hwell (hmap.map _)
    "struct FormatterConfig" {}
  have htaxonomy := taxonomyOf_categoryMap (entries.map fun e => ⟨e.1.name, e.2⟩)
  rw [categoryMap, List.map_map] at htaxonomy
  rw [← htaxonomy]
  exact hread

end Settings

namespace Attribute

/-- Setting viewports one by one changes nothing but the map of them. -/
theorem foldl_setViewport (entries : List (MemberText × List String)) (a : Attribute) :
    entries.foldl (fun a e => a.setViewport e.1.name e.2) a
      = { a with byViewport := entries.foldl (fun m e => m.insert e.1.name e.2) a.byViewport } := by
  induction entries generalizing a with
  | nil => rfl
  | cons e entries ih => exact ih (a.setViewport e.1.name e.2)

/-- Viewports that are given one after the other are set one by one. -/
theorem ofJson_viewports {entries : List (MemberText × List String)} {m : MemberText}
    (hentries : ∀ e ∈ entries, SpellsStrings e.1.value e.2) (hname : m.name = "viewportClasses")
    (hvalue : m.value = inBrackets .object (entries.map (·.1.text))) :
    ofJson (objectText [m]) = .ok (entries.foldl (fun a e => a.setViewport e.1.name e.2) {}) := by
  have hmap : (Reader.orderedMap (.list (.string "a string"))).Gives m.value
      (.ofList (entries.map fun e => (e.1.name, e.2))) := by
    rw [hvalue]
    exact Reader.Gives.orderedMap fun e he => .strings "a string" (hentries e he)
  have hwell : WellFormed m.value := by
    rw [hvalue]
    exact wellFormed_of_entries fun e he => (hentries e he).wellFormed
  have hfind : fields.find? (·.name == m.name) = fields.getLast? := by
    rw [hname]
    rfl
  have hread := ofText_single_of_gives fieldsSetParts hfind hwell (hmap.map _)
    "struct ParsedClasses" {}
  rw [foldl_setViewport]
  rw [OrderedMap.ofList, List.foldl_map] at hread
  exact hread

end Attribute

/-- **Repeated keys are merged in the same way wherever maps are read and written.** An object of
categories, alone or among other members, is read as the taxonomy in which each name stands where it
came first, with the specification that came last; and this is what comes back if settings with all
the categories are written and read again. An object of viewports is read as the viewports that have
been set one by one. -/
theorem maps_merge_members :
    (∀ (entries : List (MemberText × String)) (m : MemberText),
      (∀ e ∈ entries, SpellsString e.1.value e.2) → m.name = "categories" →
      m.value = inBrackets .object (entries.map (·.1.text)) →
      let categories : Taxonomy := entries.map fun e => ⟨e.1.name, e.2⟩
      Settings.ofJson (objectText [m]) = .ok { taxonomy := mergedBy Category.name categories } ∧
      (∀ ms s, (∀ m ∈ ms, m.Fits (Settings.parts.map (·.name))) → m ∈ ms →
        Settings.ofJson (objectText ms) = .ok s →
        s.taxonomy = mergedBy Category.name categories) ∧
      ∀ s : Settings, s.taxonomy = categories → s.printWidth < UInt64.size →
        ∃ s', Settings.ofJson s.toJson.toText = .ok s' ∧
          s'.taxonomy = mergedBy Category.name categories) ∧
    ∀ (entries : List (MemberText × List String)) (m : MemberText),
      (∀ e ∈ entries, SpellsStrings e.1.value e.2) → m.name = "viewportClasses" →
      m.value = inBrackets .object (entries.map (·.1.text)) →
      let a : Attribute := entries.foldl (fun a e => a.setViewport e.1.name e.2) {}
      Attribute.ofJson (objectText [m]) = .ok a ∧
      ∀ ms a', (∀ m ∈ ms, m.Fits (Attribute.parts.map (·.name))) → m ∈ ms →
        Attribute.ofJson (objectText ms) = .ok a' → a'.byViewport = a.byViewport := by
  constructor
  · intro entries m hentries hname hvalue categories
    have hread := Settings.ofJson_categories hentries hname hvalue
    refine ⟨hread, ?_, ?_⟩
    · intro ms s hms hm hs
      exact get_ofText_of_given Settings.fieldsSetParts hms hs hm hread
        (List.mem_cons_self ..) hname.symm
    · intro s hs hwidth
      refine ⟨_, Settings.ofJson_toText hwidth, ?_⟩
      rw [hs]
  · intro entries m hentries hname hvalue a
    have hread := Attribute.ofJson_viewports hentries hname hvalue
    refine ⟨hread, ?_⟩
    intro ms a' hms hm ha'
    exact get_ofText_of_given Attribute.fieldsSetParts hms ha' hm hread
      (List.mem_cons_of_mem _ (List.mem_cons_self ..)) hname.symm

/-- A name that comes again with another spelling, and a label that comes again with another
list. -/
theorem maps_merge_members_respelled :
    let again : MemberText :=
      { lead := [' '], key := "\\u0061\\\"".toList, name := "a\"", gap := []
        value := "\"\\n\"".toList
        lead_blank := blanks_singleton rfl
        key_spells := .unit (show IsUnit ['0', '0', '6', '1'] 'a'.toNat from ⟨rfl, rfl⟩)
          (spells_written ['"'])
        gap_blank := blanks_nil }
    let categories := MemberText.written "categories" (inBrackets .object
      [(MemberText.written "a\"" "\"x\"".toList).text,
        (MemberText.written "b" " \"y\" ".toList).text, again.text])
    let viewports := MemberText.written "viewportClasses" (inBrackets .object
      [(MemberText.written "md" "[\"p\"]".toList).text, (MemberText.written "sm" "[]".toList).text,
        (MemberText.written "md" "[\"q\", \"r\"]".toList).text])
    Settings.ofJson (objectText [categories]) = .ok { taxonomy := [⟨"a\"", "\n"⟩, ⟨"b", "y"⟩] } ∧
      ∃ a, Attribute.ofJson (objectText [viewports]) = .ok a ∧
        a.byViewport.toList = [("md", ["q", "r"]), ("sm", [])] := by
  intro again categories viewports
  have hpadded : SpellsString " \"y\" ".toList "y" :=
    ⟨[' '], _, [' '], blanks_singleton rfl, spells_written ['y'], blanks_singleton rfl, rfl⟩
  have hspaced : SpellsString " \"r\"".toList "r" :=
    ⟨[' '], _, [], blanks_singleton rfl, spells_written ['r'], blanks_nil, rfl⟩
  constructor
  · let entries : List (MemberText × String) :=
      [(MemberText.written "a\"" "\"x\"".toList, "x"),
        (MemberText.written "b" " \"y\" ".toList, "y"), (again, "\n")]
    have hentries : ∀ e ∈ entries, SpellsString e.1.value e.2 :=
      List.forall_mem_cons.mpr ⟨spellsString_written "x", List.forall_mem_cons.mpr
        ⟨hpadded, List.forall_mem_singleton.mpr (spellsString_written "\n")⟩⟩
    exact (maps_merge_members.1 entries categories hentries rfl rfl).1
  · let entries : List (MemberText × List String) :=
      [(MemberText.written "md" "[\"p\"]".toList, ["p"]),
        (MemberText.written "sm" "[]".toList, []),
        (MemberText.written "md" "[\"q\", \"r\"]".toList, ["q", "r"])]
    have hsingle : SpellsStrings "[\"p\"]".toList ["p"] :=
      ⟨[(writtenString "p", "p")], List.forall_mem_singleton.mpr (spellsString_written "p"),
        rfl, rfl⟩
    have hnone : SpellsStrings "[]".toList [] := ⟨[], by simp, rfl, rfl⟩
    have hpair : SpellsStrings "[\"q\", \"r\"]".toList ["q", "r"] :=
      ⟨[(writtenString "q", "q"), (" \"r\"".toList, "r")], List.forall_mem_cons.mpr
        ⟨spellsString_written "q", List.forall_mem_singleton.mpr hspaced⟩, rfl, rfl⟩
    have hentries : ∀ e ∈ entries, SpellsStrings e.1.value e.2 :=
      List.forall_mem_cons.mpr ⟨hsingle, List.forall_mem_cons.mpr
        ⟨hnone, List.forall_mem_singleton.mpr hpair⟩⟩
    exact ⟨_, (maps_merge_members.2 entries viewports hentries rfl rfl).1, rfl⟩

end ClassTidy
