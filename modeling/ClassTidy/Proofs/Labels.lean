import ClassTidy.Proofs.Json.Members
import ClassTidy.Proofs.Listing
import ClassTidy.Proofs.Runs
import ClassTidy.Proofs.Splitting

/-!
# Labels and the lists that are laid out

The configured labels say which lists of an attribute are laid out, and in which order. They are
gone through when a text is split, when a scope is taken off, when the passes of a layout are made
and when the buckets are listed. The first two stop at the first label that scopes the class, and
the other two pass over labels that have come before, so none of them gets to a repeat:

> `repeated_labels_ignored`: a label that is given again changes nothing.

An attribute is only asked for its base classes and for the list of each configured label
(`layout_congr`), and a list that is missing is as good as an empty one:

> `configured_lists_only`: nothing else in an attribute shows.
-/

namespace ClassTidy

variable {viewports : List String}

/-! ## What a layout is made of -/

namespace Attribute

/-- The bare names that the attribute has for a label: none, if the label is missing. -/
def names (a : Attribute) (label : String) : List String :=
  (a.byViewport.get? label).getD []

theorem scopedTo_eq_map_names (a : Attribute) (label : String) :
    a.scopedTo label = (a.names label).map (inScope label) := rfl

theorem combined_congr {a a' : Attribute} (hbase : a'.base = a.base)
    (hscoped : ∀ label ∈ viewports, a'.scopedTo label = a.scopedTo label) :
    a'.combined viewports = a.combined viewports := by
  unfold combined
  rw [hbase]
  apply congrArg (a.base ++ ·)
  apply List.flatMap_congr
  intro label hlabel
  exact hscoped label (List.mem_eraseDups.mp hlabel)

/-- The scoped classes of a configured label are among the combined classes. -/
theorem scopedTo_subset_combined (a : Attribute) {label : String} (h : label ∈ viewports) :
    a.scopedTo label ⊆ a.combined viewports := by
  intro cls hcls
  exact List.mem_append_right _ (List.mem_flatMap.mpr ⟨label, List.mem_eraseDups.mpr h, hcls⟩)

end Attribute

/-- A layout depends on the mode, the distinct labels, the classes of these labels and of the base,
and on the lines that passes over such classes have. -/
theorem Settings.layout_congr {s s' : Settings} {a a' : Attribute} (hmode : s'.mode = s.mode)
    (hlabels : s'.viewports.eraseDups = s.viewports.eraseDups) (hbase : a'.base = a.base)
    (hscoped : ∀ label ∈ s.viewports, a'.scopedTo label = a.scopedTo label)
    (hpass : ∀ pass, pass ⊆ a.combined s.viewports → s'.passLines pass = s.passLines pass) :
    s'.layout a' = s.layout a := by
  have hbasePass : s'.passLines a.base = s.passLines a.base :=
    hpass a.base fun _ hcls => List.mem_append_left _ hcls
  have hseparate : ∀ join, s'.separateLines a' join = s.separateLines a join := by
    intro join
    unfold separateLines
    rw [hbase, hbasePass, hlabels]
    apply congrArg (s.passLines a.base ++ ·)
    apply List.flatMap_congr
    intro label hlabel
    have hmem : label ∈ s.viewports := List.mem_eraseDups.mp hlabel
    rw [hscoped label hmem, hpass _ (a.scopedTo_subset_combined hmem)]
  have hcombined : a'.combined s'.viewports = a.combined s.viewports := by
    rw [← Attribute.combined_congr hbase hscoped]
    unfold Attribute.combined
    rw [hlabels]
  unfold layout
  rw [hmode, hseparate, hseparate, hcombined, hpass _ (List.Subset.refl _)]

/-! ## Labels that are given again -/

theorem scope?_eraseDups (viewports : List String) (cls : String) :
    scope? viewports.eraseDups cls = scope? viewports cls :=
  findSome?_eraseDups _ viewports

/-- The bare name depends on the first label that scopes the class. -/
theorem bareName_congr {viewports' : List String} {cls : String}
    (h : viewports'.find? (scopes · cls) = viewports.find? (scopes · cls)) :
    bareName viewports' cls = bareName viewports cls := by
  cases hfind : viewports.find? (scopes · cls) with
  | none => rw [bareName_eq_self hfind, bareName_eq_self (h.trans hfind)]
  | some label =>
    apply inScope_injective label
    rw [inScope_bareName hfind, inScope_bareName (h.trans hfind)]

theorem owner?_eraseDups (ranking : List Entry) (viewports : List String) (cls : String) :
    owner? ranking viewports.eraseDups cls = owner? ranking viewports cls := by
  unfold owner? lookupKey
  rw [bareName_congr (find?_eraseDups _ viewports)]

theorem Sorted.ofClasses_eraseDups (t : Taxonomy) (viewports classes : List String) :
    ofClasses t viewports.eraseDups classes = ofClasses t viewports classes := by
  have hfile : file t.ranking viewports.eraseDups = file t.ranking viewports := by
    funext s cls
    unfold file
    rw [owner?_eraseDups]
  unfold ofClasses
  rw [hfile]

theorem Attribute.ofText_eraseDups (viewports : List String) (text : String) :
    ofText viewports.eraseDups text = ofText viewports text := by
  have hpush : push viewports.eraseDups = push viewports := by
    funext a cls
    unfold push
    rw [scope?_eraseDups]
  unfold ofText
  rw [hpush]

namespace Command

/-- **A label that is given again changes nothing.** With the first occurrence of each label alone,
every text is split and every list of classes is sorted as before, and every attribute has the same
layout and the same buckets. So two runs of one command line on one input leave the same behind if
their settings differ in no more than repeats of labels. -/
theorem repeated_labels_ignored (s : Settings) :
    let s' : Settings := { s with viewports := s.viewports.eraseDups }
    (∀ text, Attribute.ofText s'.viewports text = Attribute.ofText s.viewports text) ∧
    (∀ classes, s'.sort classes = s.sort classes) ∧
    (∀ a, s'.layout a = s.layout a ∧ listing s' a = listing s a) ∧
    ∀ (args : List String) (o : Options) (files files' : Files) (stdin : ByteArray),
      Options.ofArgs? args = some o → o.readSettings files = .ok s →
      o.readSettings files' = .ok s' → o.readInput files' stdin = o.readInput files stdin →
      run args files' stdin = run args files stdin := by
  intro s'
  have htext := Attribute.ofText_eraseDups s.viewports
  have hsort : ∀ classes, s'.sort classes = s.sort classes :=
    Sorted.ofClasses_eraseDups s.taxonomy s.viewports
  have hpass : ∀ pass, s'.passLines pass = s.passLines pass := by
    intro pass
    unfold Settings.passLines
    rw [hsort]
  have hlabels : s'.viewports.eraseDups = s.viewports.eraseDups := eraseDups_eraseDups s.viewports
  have hlayout : ∀ a, s'.layout a = s.layout a := by
    intro a
    exact Settings.layout_congr rfl hlabels rfl (fun _ _ => rfl) fun pass _ => hpass pass
  have hlisting : ∀ a, listing s' a = listing s a := by
    intro a
    rw [listing_eq, listing_eq, hsort]
    unfold Attribute.combined
    rw [hlabels]
  refine ⟨htext, hsort, fun a => ⟨hlayout a, hlisting a⟩, ?_⟩
  intro args o files files' stdin hargs hread hread' hinput
  have hattribute : ∀ text, o.readAttribute s' text = o.readAttribute s text := by
    intro text
    unfold Options.readAttribute
    rw [htext]
  have hprint : ∀ a, o.print s' a = o.print s a := by
    intro a
    unfold Options.print
    rw [hlayout, hlisting]
  apply run_eq_of_result hargs hargs
  unfold Options.result
  rw [hread, hread', hinput]
  simp only [hattribute, hprint]

/-- A label and the empty label given twice, and a command line that overrides. -/
theorem repeated_labels_ignored_empty_label :
    let args := ["group", "--config", "c.json", "--grouping", "inline"]
    let o : Options := { action := .group, config := "c.json", mode := some .inline }
    let categories := "\x7b\"categories\": \x7b\"box\": \"p-* a\"\x7d, "
    let settings := categories ++ "\"viewports\": [\"md\", \"\", \"md\", \"sm\", \"\"]\x7d"
    let settings' := categories ++ "\"viewports\": [\"md\", \"\", \"sm\"]\x7d"
    let s : Settings :=
      { taxonomy := [⟨"box", "p-* a"⟩]
        viewports := ["md", "", "md", "sm", ""]
        mode := .inline }
    let s' : Settings := { s with viewports := s.viewports.eraseDups }
    let files : Files := fun path =>
      if path = "c.json" then .ok settings.toUTF8 else .error .missing
    let files' : Files := fun path =>
      if path = "c.json" then .ok settings'.toUTF8 else .error .missing
    let stdin := "p-1 md:a sm: md:b".toUTF8
    Options.ofArgs? args = some o ∧ s'.viewports = ["md", "", "sm"] ∧
      o.readSettings files = .ok s ∧ o.readSettings files' = .ok s' ∧
      o.readInput files' stdin = o.readInput files stdin ∧
      run args files' stdin = run args files stdin := by
  intro args o categories settings settings' s s' files files' stdin
  have hargs : Options.ofArgs? args = some o := by decide
  have hlabels : s'.viewports = ["md", "", "sm"] := by decide
  have hs : Settings.ofJson settings = .ok { s with mode := .separate } :=
    Json.ofText_of_toOption (by decide +kernel)
  have hs' : Settings.ofJson settings' = .ok { s' with mode := .separate } :=
    Json.ofText_of_toOption (by decide +kernel)
  have hread : o.readSettings files = .ok s :=
    Options.readSettings_of_ofJson (readFile_of_toUTF8 rfl) hs
  have hread' : o.readSettings files' = .ok s' :=
    Options.readSettings_of_ofJson (readFile_of_toUTF8 rfl) hs'
  have hinput : o.readInput files' stdin = o.readInput files stdin := rfl
  exact ⟨hargs, hlabels, hread, hread', hinput,
    (repeated_labels_ignored s).2.2.2 args o files files' stdin hargs hread hread' hinput⟩

end Command

/-! ## Lists that are laid out -/

namespace Attribute

/-- The pairs of an attribute that count: their label is configured and their list is not empty. -/
def counted (a : Attribute) (viewports : List String) : List (String × List String) :=
  a.byViewport.toList.filter fun (label, names) => label ∈ viewports ∧ names ≠ []

theorem mem_counted {a : Attribute} {label : String} {names : List String} :
    (label, names) ∈ a.counted viewports ↔
      label ∈ viewports ∧ names ≠ [] ∧ a.names label = names := by
  unfold counted Attribute.names
  rw [List.mem_filter, ← OrderedMap.get?_eq_some_iff, decide_eq_true_eq]
  constructor
  · rintro ⟨hget, hlabel, hne⟩
    exact ⟨hlabel, hne, by rw [hget, Option.getD_some]⟩
  · rintro ⟨hlabel, hne, hnames⟩
    refine ⟨?_, hlabel, hne⟩
    cases hget : a.byViewport.get? label with
    | none =>
      rw [hget, Option.getD_none] at hnames
      exact absurd hnames.symm hne
    | some found =>
      rw [hget, Option.getD_some] at hnames
      rw [hnames]

theorem nodup_counted (a : Attribute) (viewports : List String) : (a.counted viewports).Nodup :=
  (List.Nodup.of_map Prod.fst a.byViewport.nodup).filter _

/-- Attributes have the same lists for the configured labels exactly if the pairs that count are the
same, in whatever order. -/
theorem perm_counted_iff {a a' : Attribute} :
    (a'.counted viewports).Perm (a.counted viewports) ↔
      ∀ label ∈ viewports, a'.names label = a.names label := by
  rw [List.perm_ext_iff_of_nodup (nodup_counted a' viewports) (nodup_counted a viewports)]
  constructor
  · intro hmem label hlabel
    have hiff : ∀ names, names ≠ [] → (a'.names label = names ↔ a.names label = names) := by
      intro names hne
      have hpair := hmem (label, names)
      rw [mem_counted, mem_counted] at hpair
      simpa [hlabel, hne] using hpair
    by_cases hnone : a.names label = []
    · -- A list that is not empty would count for the other attribute as well.
      by_contra hsome
      rw [hnone] at hsome
      exact hsome (((hiff _ hsome).mp rfl).symm.trans hnone)
    · exact (hiff _ hnone).mpr rfl
  · rintro h ⟨label, names⟩
    rw [mem_counted, mem_counted]
    apply and_congr_right
    intro hlabel
    rw [h label hlabel]

end Attribute

namespace Command

/-- **Only the lists of the configured labels show.** Attributes with the same base classes and the
same list for each configured label, where a label that is missing has an empty list, have the same
layout and the same buckets, and the same is printed for them. They have the same lists exactly if
the pairs that count are a permutation of one another: the order of the labels, labels that are not
configured, and labels with an empty list have no effect. -/
theorem configured_lists_only (s : Settings) (a a' : Attribute) (hbase : a'.base = a.base) :
    ((∀ label ∈ s.viewports, a'.names label = a.names label) →
      s.layout a' = s.layout a ∧ listing s a' = listing s a ∧
        ∀ o : Options, o.print s a' = o.print s a) ∧
    ((a'.counted s.viewports).Perm (a.counted s.viewports) ↔
      ∀ label ∈ s.viewports, a'.names label = a.names label) := by
  refine ⟨?_, Attribute.perm_counted_iff⟩
  intro hnames
  have hscoped : ∀ label ∈ s.viewports, a'.scopedTo label = a.scopedTo label := by
    intro label hlabel
    rw [Attribute.scopedTo_eq_map_names, Attribute.scopedTo_eq_map_names, hnames label hlabel]
  have hlayout : s.layout a' = s.layout a :=
    Settings.layout_congr rfl rfl hbase hscoped fun _ _ => rfl
  have hlisting : listing s a' = listing s a := by
    rw [listing_eq, listing_eq, Attribute.combined_congr hbase hscoped]
  refine ⟨hlayout, hlisting, ?_⟩
  intro o
  unfold Options.print
  rw [hlayout, hlisting]

/-- Labels in another order, a label that is not configured, and one whose list is empty. -/
theorem configured_lists_only_reordered :
    let s : Settings :=
      { taxonomy := [⟨"box", "flex p-*"⟩], viewports := ["md", "xl", "sm"], mode := .inline }
    let a : Attribute :=
      { base := ["p-4"], byViewport := .ofList [("sm", ["flex"]), ("lg", ["?"]), ("md", ["p-2"])] }
    let a' : Attribute :=
      { base := ["p-4"], byViewport := .ofList [("md", ["p-2"]), ("xl", []), ("sm", ["flex"])] }
    a'.base = a.base ∧
      a.counted s.viewports = [("sm", ["flex"]), ("md", ["p-2"])] ∧
      a'.counted s.viewports = [("md", ["p-2"]), ("sm", ["flex"])] ∧
      s.layout a' = s.layout a ∧ listing s a' = listing s a ∧
      ({ action := .group, config := "c.json" } : Options).print s a'
        = ({ action := .group, config := "c.json" } : Options).print s a := by
  intro s a a'
  obtain ⟨hsame, hiff⟩ := configured_lists_only s a a' rfl
  have hperm : (a'.counted s.viewports).Perm (a.counted s.viewports) := by decide
  obtain ⟨hlayout, hlisting, hprint⟩ := hsame (hiff.mp hperm)
  exact ⟨rfl, by decide, by decide, hlayout, hlisting, hprint _⟩

end Command

end ClassTidy
