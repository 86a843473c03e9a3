import ClassTidy.Proofs.CommandLines
import ClassTidy.Proofs.Json.Written
import ClassTidy.Proofs.Runs

/-!
# Input that is text or JSON

An attribute is written as a record and read as it was (`ofJson_toText`). So it does not matter
whether a run is given the text of an attribute, or the attribute that the text stands for as JSON:

> `parsed_input_agrees`: both runs print the same.
-/

namespace ClassTidy

namespace Attribute

open Json

/-- What is written for each field, and the change that it makes. -/
def writtenFields (a : Attribute) : List (GivenField Attribute) :=
  [ ⟨"baseClasses", (Value.strings a.base).compact, fun b => { b with base := a.base }⟩,
    ⟨"viewportClasses",
      (Value.object (a.byViewport.toList.map fun (label, names) =>
        (label, .strings names))).compact,
      fun b => { b with byViewport := a.byViewport }⟩ ]

/-- Each field takes what is written for it. -/
theorem fits_writtenFields (a : Attribute) : ∀ g ∈ a.writtenFields, g.Fits fields := by
  intro g hg
  simp only [writtenFields, List.mem_cons, List.not_mem_nil, or_false] at hg
  rcases hg with rfl | rfl
  · exact ⟨_, rfl, (Reader.Takes.strings "a string" a.base).map _⟩
  · exact ⟨_, rfl, (Reader.Takes.ofMap fun p _ => .strings "a string" p.2).map _⟩

/-- **A written attribute is read as it was.** -/
theorem ofJson_toText (a : Attribute) : ofJson a.toJson.toText = .ok a := by
  have hnames : (a.writtenFields.map (·.name)).Nodup := by
    simp only [writtenFields, List.map_cons, List.map_nil]
    decide
  have htakes : reader.Takes a.toJson.compact a := by
    rw [toJson, Value.compact_object]
    exact Reader.Takes.record hnames a.fits_writtenFields "struct ParsedClasses" {}
  exact ofText_of_takes htakes

end Attribute

namespace Command

/-- The second command line has the items of the first, and `--parsed` at some places besides. -/
def AddsParsed (args args' : List String) : Prop :=
  ∃ items items', Item.ofWords? args = some items ∧ Item.ofWords? args' = some items' ∧
    .parsed ∉ items ∧ .parsed ∈ items' ∧ items'.filter (· ≠ .parsed) = items

/-- The option may stand in front of all others. -/
theorem addsParsed_cons {args : List String} {items : List Item}
    (h : Item.ofWords? args = some items) (hnot : .parsed ∉ items) :
    AddsParsed args ("--parsed" :: args) :=
  addsFlag_cons (by decide) h hnot

/-- Nothing but the form of the input is changed by it. -/
theorem ofArgs?_of_addsParsed {args args' : List String} {o : Options} (h : AddsParsed args args')
    (ho : Options.ofArgs? args = some o) :
    o.parsed = false ∧ Options.ofArgs? args' = some { o with parsed := true } := by
  refine ⟨?_, Options.ofArgs?_of_addsFlag (Or.inl rfl) h ho⟩
  apply Options.switch_of_addsFlag Options.parsed (fun _ => rfl) ?_ h ho
  intro o item
  cases item <;> simp [Options.add]

/-- **Attributes as text and as JSON.** A written attribute is read as it was. So a run that is
given a text on its standard input, and a run with `--parsed` besides that is given the written
attribute of the text, leave the same behind, whatever else their command lines ask for. -/
theorem parsed_input_agrees :
    (∀ a : Attribute, Attribute.ofJson a.toJson.toText = .ok a) ∧
    ∀ (args args' : List String) (o : Options) (files : Files) (settings : String) (s : Settings)
      (text : String),
      AddsParsed args args' → Options.ofArgs? args = some o →
      (o.input = none ∨ o.input = some "-") →
      readFile files o.config = .ok settings → Settings.ofJson settings = .ok s →
      run args files text.toUTF8
        = run args' files (Attribute.ofText s.viewports text).toJson.toText.toUTF8 := by
  refine ⟨Attribute.ofJson_toText, ?_⟩
  intro args args' o files settings s text hargs ho hinput hread hs
  obtain ⟨hparsed, ho'⟩ := ofArgs?_of_addsParsed hargs ho
  apply run_eq_of_result ho ho'
  let a := Attribute.ofText s.viewports text
  let o' := { o with parsed := true }
  have hresult : o.result files text.toUTF8 = .ok (o.print (o.override s) a) := by
    apply Options.result_of_parts (Options.readSettings_of_ofJson hread hs)
    · rw [Options.readInput_of_stdin hinput, decode_toUTF8]
    · rw [Options.readAttribute, hparsed]
      rfl
  have hresult' : o'.result files a.toJson.toText.toUTF8 = .ok (o'.print (o'.override s) a) := by
    apply Options.result_of_parts (Options.readSettings_of_ofJson (o := o') hread hs)
    · rw [Options.readInput_of_stdin (o := o') hinput, decode_toUTF8]
    · rw [Options.readAttribute, if_pos rfl, Attribute.ofJson_toText a]
  rw [hresult, hresult']
  rfl

/-- Scoped classes, one with a quotation mark, and options in the words around. -/
theorem parsed_input_agrees_quoted :
    let args := ["group", "--config", "c.json", "--grouping", "inline", "-"]
    let text := "md:a b \"c\" md:\"d"
    let settings := "\x7b\"viewports\": [\"md\"]\x7d"
    let s : Settings := { viewports := ["md"] }
    let files : Files := fun path =>
      if path = "c.json" then .ok settings.toUTF8 else .error .missing
    AddsParsed args ("--parsed" :: args) ∧ Settings.ofJson settings = .ok s ∧
      run args files text.toUTF8
        = run ("--parsed" :: args) files
            (Attribute.ofText s.viewports text).toJson.toText.toUTF8 := by
  intro args text settings s files
  have hargs : AddsParsed args ("--parsed" :: args) := by
    have hitems : Item.ofWords? args = some
        [.action .group, .config "c.json", .mode .inline, .input "-"] := by
      decide
    exact addsParsed_cons hitems (by decide)
  have ho : Options.ofArgs? args = some
      { action := .group, config := "c.json", input := "-", mode := some .inline } := by
    decide
  have hread : readFile files "c.json" = .ok settings := readFile_of_toUTF8 rfl
  have hs : Settings.ofJson settings = .ok s :=
    Json.ofText_of_toOption (by decide +kernel)
  exact ⟨hargs, hs,
    parsed_input_agrees.2 args _ _ files settings s text hargs ho (Or.inr rfl) hread hs⟩

end Command

end ClassTidy
