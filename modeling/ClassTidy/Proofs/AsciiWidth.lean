import ClassTidy.Proofs.Labels
import ClassTidy.Proofs.Packing
import ClassTidy.Proofs.Partition
import ClassTidy.Proofs.Words

/-!
# The two measures on ASCII texts

Columns are counted by a scan that knows what stands behind each character. Up to the no-break space
only the two characters of a line end take part in a sequence, so as long as there is no line feed
the scan sees nothing ahead, and every character adds one column (`step_low`, `scan_low`):

> `columns_eq_length`: a printable ASCII text has as many columns as characters.

The cuts of a packing depend on no more than the widths of the lines that could be made, and such
lines hold classes that are laid out, with spaces between them:

> `passLines_congr_measure`: measures that agree on the lines of a pass make the same lines;
> `measures_agree_on_ascii`: on ASCII classes the measure makes no difference.
-/

namespace ClassTidy

namespace Text

/-- The characters of the text are printable ones of ASCII, from the space to the tilde. -/
def IsPrintableAscii (s : String) : Prop :=
  ∀ c ∈ s.toList, 0x20 ≤ c.toNat ∧ c.toNat ≤ 0x7E

instance (s : String) : Decidable (IsPrintableAscii s) :=
  List.decidableBAll _ s.toList

theorem IsPrintableAscii.inScope {label name : String} (hlabel : IsPrintableAscii label)
    (hname : IsPrintableAscii name) : IsPrintableAscii (inScope label name) := by
  intro c hc
  rw [ClassTidy.inScope, String.toList_append, String.toList_append, List.mem_append,
    List.mem_append] at hc
  rcases hc with (hc | hc) | hc
  · exact hlabel c hc
  · obtain rfl := List.mem_singleton.mp hc
    decide
  · exact hname c hc

theorem isPrintableAscii_spaced {classes : List String}
    (h : ∀ cls ∈ classes, IsPrintableAscii cls) : IsPrintableAscii (spaced classes) := by
  intro c hc
  rcases mem_toList_spaced hc with rfl | ⟨cls, hcls, hc⟩
  · decide
  · exact h cls hcls c hc

end Text

/-! ## Columns and characters -/

namespace Width

/-- Up to the no-break space, a character that is no line feed takes one column if nothing is ahead,
and is nothing to the character before it. -/
theorem step_low {c : Char} (hle : c.toNat ≤ 0xA0) (hne : c ≠ '\n') :
    step c .plain = (1, .plain) := by
  have hline : ¬(c = '\r' ∧ Ahead.plain = .of .lineFeed) := by
    rintro ⟨-, h⟩
    exact absurd h (by decide)
  have hahead : ahead c = .plain := by
    have hfeed : ¬(c.toNat == 0x0A) = true := by
      intro h
      exact hne (Char.toNat_inj.mp (beq_iff_eq.mp h))
    rw [ahead, if_neg hfeed, if_pos hle]
  show (if c.toNat ≤ 0xA0 then (if c = '\r' ∧ Ahead.plain = .of .lineFeed then 0 else 1, ahead c)
    else stepWide c .plain) = _
  rw [if_pos hle, if_neg hline, hahead]

/-- So nothing is ahead of any character, and each adds one column. -/
theorem scan_low {cs : List Char} (h : ∀ c ∈ cs, c.toNat ≤ 0xA0 ∧ c ≠ '\n') :
    scan cs = ((cs.length : Int), .plain) := by
  induction cs with
  | nil => rfl
  | cons c cs ih =>
    obtain ⟨hle, hne⟩ := h c (List.mem_cons_self ..)
    rw [scan, ih fun d hd => h d (List.mem_cons_of_mem _ hd)]
    show ((cs.length : Int) + (step c .plain).1, (step c .plain).2) = _
    rw [step_low hle hne, List.length_cons, Int.natCast_succ]

/-- **A printable ASCII text has as many columns as characters.** -/
theorem columns_eq_length {s : String} (h : Text.IsPrintableAscii s) : columns s = s.length := by
  have hlow : ∀ c ∈ s.toList, c.toNat ≤ 0xA0 ∧ c ≠ '\n' := by
    intro c hc
    obtain ⟨hge, hle⟩ := h c hc
    refine ⟨by omega, ?_⟩
    rintro rfl
    exact absurd hge (by decide)
  rw [columns, scan_low hlow, Int.toNat_natCast, String.length_toList]

end Width

/-! ## Lines -/

namespace Packing

variable {width width' : String → Nat} {limit : Nat}

theorem companions_congr {first : List String} {rest : List (List String)}
    (h : ∀ k, width' (line (first :: rest.take k)) = width (line (first :: rest.take k))) :
    ∀ n, companions width' limit first rest n = companions width limit first rest n
  | 0 => rfl
  | n + 1 => by rw [companions, companions, h, companions_congr h n]

/-- The cuts depend on the widths of runs of the groups alone. -/
theorem cut_congr {groups : List (List String)}
    (h : ∀ run, run <:+: groups → width' (line run) = width (line run)) :
    cut width' limit groups = cut width limit groups := by
  fun_induction cut width limit groups with
  | case1 => rw [cut]
  | case2 first rest n ih =>
    have hn : companions width' limit first rest rest.length = n := by
      apply companions_congr
      intro k
      exact h _ (List.take_prefix (k + 1) (first :: rest)).isInfix
    have hrest : ∀ run, run <:+: rest.drop n → width' (line run) = width (line run) := by
      intro run hrun
      exact h run (hrun.trans ((List.drop_suffix ..).trans (List.suffix_cons ..)).isInfix)
    rw [cut, hn, ih hrest]

end Packing

namespace Settings

/-- Measures make the same lines of a pass if they agree on all lines of its classes. -/
theorem passLines_congr_measure {s : Settings} {measure : Measure} {pass : List String}
    (h : ∀ classes, classes ⊆ pass →
      measure.width (spaced classes) = s.measure.width (spaced classes)) :
    { s with measure := measure }.passLines pass = s.passLines pass := by
  have hpack : ∀ shelf ∈ (s.sort pass).shelves,
      pack measure.width s.printWidth shelf.groups
        = pack s.measure.width s.printWidth shelf.groups := by
    intro shelf hshelf
    unfold pack
    rw [Packing.cut_congr]
    intro run hrun
    apply h
    intro cls hcls
    obtain ⟨group, hgroup, hcls⟩ := List.mem_flatten.mp hcls
    have hmem : group ∈ shelf.groups := (List.mem_filter.mp (hrun.subset hgroup)).1
    exact Sorted.mem_of_mem_groups hshelf hmem hcls
  show (s.sort pass).lines measure.width s.printWidth s.placement
    = (s.sort pass).lines s.measure.width s.printWidth s.placement
  unfold Sorted.lines
  rw [List.flatMap_congr hpack]

/-- **On ASCII classes the measure makes no difference.** A text of printable ASCII characters is as
wide in columns as in characters. So if the base classes, the configured labels and the bare names
of these labels are such texts, the layout is the same with both measures. -/
theorem measures_agree_on_ascii (s : Settings) (a : Attribute) :
    (∀ text, Text.IsPrintableAscii text →
      Measure.display.width text = Measure.chars.width text) ∧
    ((∀ cls ∈ a.base, Text.IsPrintableAscii cls) →
      (∀ label ∈ s.viewports, Text.IsPrintableAscii label ∧
        ∀ name ∈ a.names label, Text.IsPrintableAscii name) →
      { s with measure := .display }.layout a = { s with measure := .chars }.layout a) := by
  have hwidth : ∀ text, Text.IsPrintableAscii text →
      Measure.display.width text = Measure.chars.width text :=
    fun text htext => Width.columns_eq_length htext
  refine ⟨hwidth, ?_⟩
  intro hbase hscoped
  have hcombined : ∀ cls ∈ a.combined s.viewports, Text.IsPrintableAscii cls := by
    intro cls hcls
    rcases List.mem_append.mp hcls with hcls | hcls
    · exact hbase cls hcls
    · obtain ⟨label, hlabel, hcls⟩ := List.mem_flatMap.mp hcls
      rw [Attribute.scopedTo_eq_map_names] at hcls
      obtain ⟨name, hname, rfl⟩ := List.mem_map.mp hcls
      obtain ⟨hascii, hnames⟩ := hscoped label (List.mem_eraseDups.mp hlabel)
      exact hascii.inScope (hnames name hname)
  refine layout_congr rfl rfl rfl (fun _ _ => rfl) ?_
  intro pass hpass
  apply passLines_congr_measure (s := { s with measure := .chars })
  intro classes hclasses
  apply hwidth
  apply Text.isPrintableAscii_spaced
  intro cls hcls
  exact hcombined cls (hpass (hclasses hcls))

/-- Characters that a selector would turn into emoji, and lists that are not ASCII but not
configured. -/
theorem measures_agree_on_ascii_keycaps :
    let s : Settings :=
      { taxonomy := [⟨"box", "p-* # 1*"⟩], viewports := ["md", "~"], printWidth := 8 }
    let display : Settings := { s with measure := .display }
    let chars : Settings := { s with measure := .chars }
    let a : Attribute :=
      { base := ["1 2", "#*", "p-[#]"], byViewport := .ofList [("lg", ["界"]), ("~", ["1", "#"])] }
    ((∀ cls ∈ a.base, Text.IsPrintableAscii cls) ∧
      ∀ label ∈ s.viewports, Text.IsPrintableAscii label ∧
        ∀ name ∈ a.names label, Text.IsPrintableAscii name) ∧
      Measure.display.width "p-[#] #*" = Measure.chars.width "p-[#] #*" ∧
      chars.layout a = ["p-[#] #*", "1 2", "~:# ~:1"] ∧
      display.layout a = chars.layout a := by
  intro s display chars a
  have hbase : ∀ cls ∈ a.base, Text.IsPrintableAscii cls := by decide
  have hscoped : ∀ label ∈ s.viewports, Text.IsPrintableAscii label ∧
      ∀ name ∈ a.names label, Text.IsPrintableAscii name := by
    decide
  obtain ⟨hwidth, hlayout⟩ := measures_agree_on_ascii s a
  have hchars : chars.layout a = ["p-[#] #*", "1 2", "~:# ~:1"] := by
    unfold layout separateLines passLines Settings.sort Sorted.ofClasses
    rw [Taxonomy.ranking_eq_insertionSort]
    decide +kernel
  exact ⟨⟨hbase, hscoped⟩, hwidth "p-[#] #*" (by decide), hchars, hlayout hbase hscoped⟩

end Settings

end ClassTidy
