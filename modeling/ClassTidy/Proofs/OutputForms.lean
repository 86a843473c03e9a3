import Mathlib.Data.List.Nodup
import ClassTidy.Proofs.Idempotence
import ClassTidy.Proofs.LineBreaks
import ClassTidy.Proofs.ParsedInput

/-!
# The two forms of the output

The lines of a formatted text are printed one by one or as a JSON array. Whatever the text and the
settings are, a line holds words of the text with single spaces between them, and at least one:

> `exists_words_of_mem_layout`: what a line of a formatted text holds.

So no line feed stands within a line, and the printed text falls into the lines again
(`lines_join`). The written array is read as the lines in any case (`ofJson_base`).

> `output_forms_agree`: both forms hold the same lines.
-/

namespace ClassTidy

namespace Text

/-- The lines of a text, as its line feeds end them. What stands behind the last one is left out. -/
def lines (s : String) : List String :=
  (s.toList.splitOn '\n').dropLast.map String.ofList

/-- Lines without line feeds, each ended by one, are found again. -/
theorem lines_join {ls : List String} (h : ∀ l ∈ ls, '\n' ∉ l.toList) :
    lines (String.join (ls.map (· ++ "\n"))) = ls := by
  induction ls with
  | nil => rfl
  | cons l ls ih =>
    have hl : '\n' ∉ l.toList := h l (List.mem_cons_self ..)
    have hls := ih fun l' hl' => h l' (List.mem_cons_of_mem _ hl')
    have htext : (String.join ((l :: ls).map (· ++ "\n"))).toList
        = l.toList ++ '\n' :: (String.join (ls.map (· ++ "\n"))).toList := by
      rw [List.map_cons, String.join_cons, String.toList_append, String.toList_append,
        List.append_assoc]
      rfl
    rw [lines, htext, List.splitOn_append_cons_self_of_not_mem hl,
      List.dropLast_cons_of_ne_nil (List.splitOn_ne_nil _ _), List.map_cons, String.ofList_toList]
    exact congrArg (l :: ·) hls

variable {ws : List String}

/-- Words stay on one line. -/
theorem lineFeed_notMem_spaced (h : ∀ w ∈ ws, IsWord w) : '\n' ∉ (spaced ws).toList := by
  intro hin
  rcases mem_toList_spaced hin with hspace | ⟨w, hw, hc⟩
  · exact absurd hspace (by decide)
  · have hblank : isBlank '\n' = false := (h w hw).2 _ hc
    exact absurd hblank (by decide)

theorem spaced_ne_empty (hne : ws ≠ []) (h : ∀ w ∈ ws, IsWord w) : spaced ws ≠ "" := by
  intro hempty
  have hwords := words_spaced h
  rw [hempty, words_empty] at hwords
  exact hne hwords.symm

end Text

namespace Settings

variable {s : Settings}

/-- With categories and a known mode the rows hold the words, each as often as it is given. -/
theorem perm_classes_rows_ofWords (ht : s.taxonomy ≠ []) (hm : s.mode ≠ .unknown)
    (words : List String) :
    ((s.rows (.ofWords s.viewports words)).flatMap (Row.classes s)).Perm words := by
  refine (perm_classes_rows ht hm _).trans ?_
  rw [Attribute.combined_ofWords]
  exact sortBy_perm ..

/-- In any case the rows hold nothing but words of the text. -/
theorem mem_words_of_mem_rows {text cls : String} {row : Row}
    (hrow : row ∈ s.rows (.ofText s.viewports text)) (hcls : cls ∈ row.classes s) :
    cls ∈ Text.words text := by
  by_cases hnil : s.taxonomy = [] ∨ s.mode = .unknown
  · have hrows : (s.rows (.ofText s.viewports text)).map (Row.text s) = [] := by
      rw [← layout_eq_rows, layout_eq_nil hnil]
    rw [List.map_eq_nil_iff.mp hrows] at hrow
    exact absurd hrow List.not_mem_nil
  · obtain ⟨ht, hm⟩ := not_or.mp hnil
    rw [Attribute.ofText_eq_ofWords] at hrow
    exact (perm_classes_rows_ofWords ht hm _).mem_iff.mp (List.mem_flatMap.mpr ⟨row, hrow, hcls⟩)

/-- **What a line of a formatted text holds**: words with single spaces between them, and at least
one. -/
theorem exists_words_of_mem_layout {text line : String}
    (h : line ∈ s.layout (.ofText s.viewports text)) :
    ∃ classes, classes ≠ [] ∧ (∀ cls ∈ classes, Text.IsWord cls) ∧ line = spaced classes := by
  rw [layout_eq_rows] at h
  obtain ⟨row, hrow, rfl⟩ := List.mem_map.mp h
  refine ⟨row.classes s, classes_ne_nil_of_mem_rows hrow, ?_, rfl⟩
  intro cls hcls
  exact Text.isWord_of_mem_words (mem_words_of_mem_rows hrow hcls)

end Settings

namespace Attribute

open Json

/-- A written array is read as the base classes of an attribute. -/
theorem ofJson_base (l : List String) :
    ofJson ("\x7b\"baseClasses\":" ++ (Value.strings l).toText ++ "\x7d") = .ok { base := l } := by
  let given : GivenField Attribute :=
    ⟨"baseClasses", (Value.strings l).compact, fun a => { a with base := l }⟩
  have hfits : ∀ g ∈ [given], g.Fits fields := by
    intro g hg
    obtain rfl := List.mem_singleton.mp hg
    exact fits_writtenFields { base := l } given (List.mem_cons_self ..)
  have hnames : ([given].map (·.name)).Nodup := List.nodup_singleton _
  have htakes := Reader.Takes.record hnames hfits "struct ParsedClasses" {}
  have htext : "\x7b\"baseClasses\":" ++ (Value.strings l).toText ++ "\x7d"
      = String.ofList ('{' :: ([','].intercalate ([given].map fun g =>
          writtenMember g.name g.text) ++ ['}'])) := by
    have hkey : "\x7b\"baseClasses\":".toList = '{' :: (writtenString "baseClasses" ++ [':']) := by
      decide
    apply String.toList_injective
    rw [String.toList_append, String.toList_append, hkey, Value.toText, String.toList_ofList,
      String.toList_ofList, List.map_singleton, List.intercalate_singleton]
    simp [writtenMember, given]
  rw [htext]
  exact ofText_of_takes htakes

end Attribute

namespace Command

variable {args args' : List String} {o : Options}

namespace Options

theorem print_format (haction : o.action = .format) (s : Settings) (a : Attribute) :
    o.print s a = printLines o.json (s.layout a) := by
  rw [print, haction]

/-- The form of the output does not bear on what is read, so both forms fail alike or print the
lines of the same text. -/
theorem result_add_json (haction : o.action = .format) (hraw : o.parsed = false)
    (hjson : o.json = false) (files : Files) (stdin : ByteArray) :
    (∃ e, o.result files stdin = .error e ∧ (o.add .json).result files stdin = .error e) ∨
      ∃ (s : Settings) (text : String),
        o.result files stdin = .ok (printLines false (s.layout (.ofText s.viewports text))) ∧
        (o.add .json).result files stdin
          = .ok (printLines true (s.layout (.ofText s.viewports text))) := by
  have hsettings : (o.add .json).readSettings files = o.readSettings files := rfl
  have hinput : (o.add .json).readInput files stdin = o.readInput files stdin := rfl
  cases hs : o.readSettings files with
  | error e =>
    left
    refine ⟨e, ?_, ?_⟩ <;> simp only [result, hsettings, hs]
  | ok s =>
    cases htext : o.readInput files stdin with
    | error e =>
      left
      refine ⟨e, ?_, ?_⟩ <;> simp only [result, hsettings, hinput, hs, htext]
    | ok text =>
      have ha : o.readAttribute s text = .ok (.ofText s.viewports text) := by
        rw [readAttribute, hraw]
        rfl
      have ha' : (o.add .json).readAttribute s text = .ok (.ofText s.viewports text) := ha
      have haction' : (o.add .json).action = .format := haction
      have hprint' : (o.add .json).print s (.ofText s.viewports text)
          = printLines true (s.layout (.ofText s.viewports text)) := print_format haction' ..
      refine Or.inr ⟨s, text, ?_, ?_⟩
      · rw [result_of_parts hs htext ha, print_format haction, hjson]
      · rw [result_of_parts (hsettings.trans hs) (hinput.trans htext) ha', hprint']

end Options

/-- **The two forms of the output agree.** Raw text is formatted with and without `--json`. Both
runs end in the same way, and if there is a result, the array that is printed is read as the lines
of the plain text, which are each ended by a line feed. Each line has single spaces between its
classes, is not empty and holds no other blank. -/
theorem output_forms_agree (hargs : AddsFlag .json args args')
    (ho : Options.ofArgs? args = some o) (haction : o.action = .format)
    (hraw : o.parsed = false) (files : Files) (stdin : ByteArray) :
    let plain := run args files stdin
    let json := run args' files stdin
    let lines := Text.lines plain.out
    json.status = plain.status ∧ json.err = plain.err ∧
    (plain.status = 0 →
      (∃ array, json.out = array ++ "\n" ∧
        Attribute.ofJson ("\x7b\"baseClasses\":" ++ array ++ "\x7d") = .ok { base := lines }) ∧
      String.join (lines.map (· ++ "\n")) = plain.out ∧
      ∀ line ∈ lines, line ≠ "" ∧
        ∃ classes, (∀ cls ∈ classes, Text.IsWord cls) ∧ line = spaced classes) := by
  intro plain json lines
  have ho' : Options.ofArgs? args' = some (o.add .json) :=
    Options.ofArgs?_of_addsFlag (Or.inr rfl) hargs ho
  have hoff : o.json = false := by
    apply Options.switch_of_addsFlag Options.json (fun _ => rfl) ?_ hargs ho
    intro o item
    cases item <;> simp [Options.add]
  rcases Options.result_add_json haction hraw hoff files stdin with
    ⟨e, he, he'⟩ | ⟨s, text, hout, hout'⟩
  · have hplain : plain = ⟨1, "", e.message ++ "\n"⟩ := by simp only [plain, run, ho, he]
    have hjson : json = ⟨1, "", e.message ++ "\n"⟩ := by simp only [json, run, ho', he']
    refine ⟨by rw [hplain, hjson], by rw [hplain, hjson], ?_⟩
    rw [hplain]
    intro hzero
    cases hzero
  · have hplain : plain = ⟨0, printLines false (s.layout (.ofText s.viewports text)), ""⟩ := by
      simp only [plain, run, ho, hout]
    have hjson : json = ⟨0, printLines true (s.layout (.ofText s.viewports text)), ""⟩ := by
      simp only [json, run, ho', hout']
    refine ⟨by rw [hplain, hjson], by rw [hplain, hjson], ?_⟩
    intro _
    have hlines : lines = s.layout (.ofText s.viewports text) := by
      show Text.lines plain.out = _
      rw [hplain]
      apply Text.lines_join
      intro line hline
      obtain ⟨classes, -, hwords, rfl⟩ := Settings.exists_words_of_mem_layout hline
      exact Text.lineFeed_notMem_spaced hwords
    rw [hlines]
    refine ⟨⟨(Json.Value.strings (s.layout (.ofText s.viewports text))).toText, ?_,
      Attribute.ofJson_base _⟩, ?_, ?_⟩
    · rw [hjson]
      rfl
    · rw [hplain]
      rfl
    · intro line hline
      obtain ⟨classes, hne, hwords, rfl⟩ := Settings.exists_words_of_mem_layout hline
      exact ⟨Text.spaced_ne_empty hne hwords, classes, hwords, rfl⟩

/-- Line feeds in the text, and a class that has to be escaped. -/
theorem output_forms_agree_escaped :
    let args := ["--grouping", "inline", "--config", "c.json"]
    let o : Options := { config := "c.json", mode := some .inline }
    let settings :=
      "\x7b\"categories\": \x7b\"box\": \"flex p-*\"\x7d, \"viewports\": [\"md\"]\x7d"
    let files : Files := fun path =>
      if path = "c.json" then .ok settings.toUTF8 else .error .missing
    let text := "\np-1 \"\\\n md:p-2\tflex"
    let plain := run args files text.toUTF8
    let json := run ("--json" :: args) files text.toUTF8
    AddsFlag .json args ("--json" :: args) ∧ Options.ofArgs? args = some o ∧
      o.action = .format ∧ o.parsed = false ∧
      plain = ⟨0, "flex p-1 md:p-2\n\"\\\n", ""⟩ ∧
      Text.lines plain.out = ["flex p-1 md:p-2", "\"\\"] ∧
      json.status = 0 ∧
      ∃ array, json.out = array ++ "\n" ∧
        Attribute.ofJson ("\x7b\"baseClasses\":" ++ array ++ "\x7d")
          = .ok { base := ["flex p-1 md:p-2", "\"\\"] } := by
  intro args o settings files text plain json
  have hargs : AddsFlag .json args ("--json" :: args) := by
    have hitems : Item.ofWords? args = some [.mode .inline, .config "c.json"] := by decide
    exact addsFlag_cons (by decide) hitems (by decide)
  have ho : Options.ofArgs? args = some o := by decide
  let s : Settings := { taxonomy := [⟨"box", "flex p-*"⟩], viewports := ["md"] }
  have hs : Settings.ofJson settings = .ok s := Json.ofText_of_toOption (by decide +kernel)
  have hplain : plain = ⟨0, "flex p-1 md:p-2\n\"\\\n", ""⟩ := by
    have hread : readFile files o.config = .ok settings := readFile_of_toUTF8 rfl
    have hinput : o.readInput files text.toUTF8 = .ok text := decode_toUTF8 text
    have ha : o.readAttribute (o.override s) text = .ok (.ofText s.viewports text) := rfl
    have hresult := Options.result_of_parts (Options.readSettings_of_ofJson hread hs) hinput ha
    have hprint : o.print (o.override s) (.ofText s.viewports text)
        = "flex p-1 md:p-2\n\"\\\n" := by
      unfold Options.print Settings.layout Settings.passLines Settings.sort Sorted.ofClasses
      rw [Taxonomy.ranking_eq_insertionSort]
      decide +kernel
    simp only [plain, run, ho, hresult, hprint]
  have hlines : Text.lines plain.out = ["flex p-1 md:p-2", "\"\\"] := by
    rw [hplain]
    decide
  obtain ⟨hstatus, -, hagree⟩ := output_forms_agree hargs ho rfl rfl files text.toUTF8
  have hzero : plain.status = 0 := by rw [hplain]
  obtain ⟨harray, -, -⟩ := hagree hzero
  rw [hlines] at harray
  exact ⟨hargs, ho, rfl, rfl, hplain, hlines, hstatus.trans hzero, harray⟩

end Command

end ClassTidy
