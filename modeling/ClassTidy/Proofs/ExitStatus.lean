import ClassTidy.Proofs.Json.Written
import ClassTidy.Proofs.Runs

/-!
# How a run ends

A run takes four steps that can fail: the settings file is read and understood, then the input. What
can go wrong at a step is said by `FailsAt` for each step by itself, so several steps may fail at
once. The first of them decides (`FailsFirst`), and without one there is a result:

> `result_cases`: a run fails with the failure of the first step that fails, or prints its result.

So the status can be told from what fails, and nothing is printed beside the one message:

> `exit_status`: the status, and what is printed with it.
-/

namespace ClassTidy.Command

/-! ## Bytes that are no text -/

/-- No text can be had, either because the system refuses or because the bytes are not UTF-8. -/
inductive Unreadable : Except ReadFailure ByteArray → ReadFailure → Prop where
  | refused (e : ReadFailure) : Unreadable (.error e) e
  | notText {bytes : ByteArray} : ¬bytes.IsValidUTF8 → Unreadable (.ok bytes) .notText

/-- The text of what a path leads to. -/
def textOf : Except ReadFailure ByteArray → Except Failure String
  | .ok bytes => decode bytes
  | .error e => .error (.unreadable e)

variable {source : Except ReadFailure ByteArray}

theorem textOf_of_unreadable {e : ReadFailure} (h : Unreadable source e) :
    textOf source = .error (.unreadable e) := by
  cases h with
  | refused => rfl
  | notText hbytes =>
    rw [textOf, decode, String.fromUTF8?, dif_neg hbytes]

theorem textOf_toUTF8 (text : String) : textOf (.ok text.toUTF8) = .ok text :=
  decode_toUTF8 text

/-- There is a text or a reason why not. -/
theorem unreadable_or_text (source : Except ReadFailure ByteArray) :
    (∃ e, Unreadable source e) ∨ ∃ text : String, source = .ok text.toUTF8 := by
  cases source with
  | error e => exact Or.inl ⟨e, .refused e⟩
  | ok bytes =>
    by_cases h : bytes.IsValidUTF8
    · exact Or.inr ⟨String.fromUTF8 bytes h, rfl⟩
    · exact Or.inl ⟨.notText, .notText h⟩

/-- There are not both. -/
theorem not_unreadable_of_text {text : String} {e : ReadFailure} (h : source = .ok text.toUTF8) :
    ¬Unreadable source e := by
  intro hun
  have htext := textOf_of_unreadable hun
  rw [h, textOf_toUTF8] at htext
  cases htext

/-- There is one reason why there is no text. -/
theorem Unreadable.unique {e e' : ReadFailure} (h : Unreadable source e)
    (h' : Unreadable source e') : e = e' := by
  have htext := textOf_of_unreadable h
  rw [textOf_of_unreadable h'] at htext
  cases htext
  rfl

/-- The bytes of a text are those of no other text. -/
theorem text_unique {text text' : String} (h : source = .ok text.toUTF8)
    (h' : source = .ok text'.toUTF8) : text = text' := by
  have htext := textOf_toUTF8 text
  rw [← h, h', textOf_toUTF8] at htext
  cases htext
  rfl

/-! ## The steps of a run -/

/-- What can fail once the command line has been understood, in the order of the run. -/
inductive Step where
  | readSettings
  | loadSettings
  | readInput
  | loadAttribute
deriving DecidableEq

/-- The place of a step in the order of the run. -/
def Step.position : Step → Nat
  | readSettings => 0
  | loadSettings => 1
  | readInput => 2
  | loadAttribute => 3

theorem Step.eq_of_position_eq {step step' : Step} (h : step.position = step'.position) :
    step = step' := by
  cases step <;> cases step' <;> simp [position] at h ⊢

namespace Options

variable {o : Options} {files : Files} {stdin : ByteArray}

/-- The bytes of the input. -/
def inputBytes (o : Options) (files : Files) (stdin : ByteArray) : Except ReadFailure ByteArray :=
  match o.input with
  | none => .ok stdin
  | some path => if path = "-" then .ok stdin else files path

/-- A step fails, whatever the other steps do: the settings file or the input is no text, or it is
one that cannot be understood. -/
inductive FailsAt (o : Options) (files : Files) (stdin : ByteArray) : Step → Failure → Prop where
  | readSettings {e : ReadFailure} :
    Unreadable (files o.config) e → FailsAt o files stdin .readSettings (.unreadable e)
  | loadSettings {text : String} {d : Json.Defect} :
    files o.config = .ok text.toUTF8 → Settings.ofJson text = .error d →
      FailsAt o files stdin .loadSettings (.badSettings d)
  | readInput {e : ReadFailure} :
    Unreadable (o.inputBytes files stdin) e → FailsAt o files stdin .readInput (.unreadable e)
  | loadAttribute {text : String} {d : Json.Defect} :
    o.parsed = true → o.inputBytes files stdin = .ok text.toUTF8 →
      Attribute.ofJson text = .error d → FailsAt o files stdin .loadAttribute (.badAttribute d)

/-- A step fails, and no step before it does. -/
def FailsFirst (o : Options) (files : Files) (stdin : ByteArray) (step : Step) (e : Failure) :
    Prop :=
  o.FailsAt files stdin step e ∧
    ∀ step' e', step'.position < step.position → ¬o.FailsAt files stdin step' e'

theorem readInput_eq_textOf (o : Options) (files : Files) (stdin : ByteArray) :
    o.readInput files stdin = textOf (o.inputBytes files stdin) := by
  unfold readInput inputBytes
  cases o.input with
  | none => rfl
  | some path =>
    by_cases hdash : path = "-"
    · simp only [if_pos hdash]
      rfl
    · simp only [if_neg hdash]
      rfl

/-- Only input that is taken as JSON can hold no attribute. -/
theorem readAttribute_eq_error {s : Settings} {text : String} {e : Failure}
    (h : o.readAttribute s text = .error e) :
    o.parsed = true ∧ ∃ d, Attribute.ofJson text = .error d ∧ e = .badAttribute d := by
  unfold readAttribute at h
  split at h
  next hparsed =>
    cases hd : Attribute.ofJson text with
    | error d =>
      rw [hd] at h
      exact ⟨hparsed, d, rfl, (Except.error.inj h).symm⟩
    | ok a =>
      rw [hd] at h
      cases h
  next => cases h

/-- A step fails in one way. -/
theorem FailsAt.unique {step : Step} {e e' : Failure} (h : o.FailsAt files stdin step e)
    (h' : o.FailsAt files stdin step e') : e = e' := by
  cases h with
  | readSettings hun =>
    cases h' with
    | readSettings hun' => rw [hun.unique hun']
  | loadSettings htext hd =>
    cases h' with
    | loadSettings htext' hd' =>
      rw [← text_unique htext htext', hd] at hd'
      rw [Except.error.inj hd']
  | readInput hun =>
    cases h' with
    | readInput hun' => rw [hun.unique hun']
  | loadAttribute _ htext hd =>
    cases h' with
    | loadAttribute _ htext' hd' =>
      rw [← text_unique htext htext', hd] at hd'
      rw [Except.error.inj hd']

/-- There is one first step that fails. -/
theorem FailsFirst.unique {step step' : Step} {e e' : Failure}
    (h : o.FailsFirst files stdin step e) (h' : o.FailsFirst files stdin step' e') : e = e' := by
  have hle : step'.position ≤ step.position := by
    refine Nat.le_of_not_lt ?_
    intro hlt
    exact h'.2 step e hlt h.1
  have hle' : step.position ≤ step'.position := by
    refine Nat.le_of_not_lt ?_
    intro hlt
    exact h.2 step' e' hlt h'.1
  obtain rfl : step = step' := Step.eq_of_position_eq (Nat.le_antisymm hle' hle)
  exact h.1.unique h'.1

/-! ## Steps that do not fail -/

theorem not_failsAt_readSettings {settings : String} (h : files o.config = .ok settings.toUTF8)
    (e : Failure) : ¬o.FailsAt files stdin .readSettings e := by
  intro hfails
  cases hfails with
  | readSettings hun => exact not_unreadable_of_text h hun

theorem not_failsAt_loadSettings {settings : String} {s : Settings}
    (h : files o.config = .ok settings.toUTF8) (hs : Settings.ofJson settings = .ok s)
    (e : Failure) : ¬o.FailsAt files stdin .loadSettings e := by
  intro hfails
  cases hfails with
  | loadSettings h' hd =>
    rw [← text_unique h h', hs] at hd
    cases hd

theorem not_failsAt_readInput {text : String} (h : o.inputBytes files stdin = .ok text.toUTF8)
    (e : Failure) : ¬o.FailsAt files stdin .readInput e := by
  intro hfails
  cases hfails with
  | readInput hun => exact not_unreadable_of_text h hun

theorem not_failsAt_loadAttribute {text : String} {s : Settings} {a : Attribute}
    (h : o.inputBytes files stdin = .ok text.toUTF8) (ha : o.readAttribute s text = .ok a)
    (e : Failure) : ¬o.FailsAt files stdin .loadAttribute e := by
  intro hfails
  cases hfails with
  | loadAttribute hparsed h' hd =>
    rw [← text_unique h h'] at hd
    rw [readAttribute, if_pos hparsed, hd] at ha
    cases ha

/-- A step fails only if something is wrong with what it reads. -/
theorem not_failsAt {settings text : String} {s : Settings} {a : Attribute}
    (hsettings : files o.config = .ok settings.toUTF8) (hs : Settings.ofJson settings = .ok s)
    (htext : o.inputBytes files stdin = .ok text.toUTF8)
    (ha : o.readAttribute (o.override s) text = .ok a) (step : Step) (e : Failure) :
    ¬o.FailsAt files stdin step e := by
  cases step with
  | readSettings => exact not_failsAt_readSettings hsettings e
  | loadSettings => exact not_failsAt_loadSettings hsettings hs e
  | readInput => exact not_failsAt_readInput htext e
  | loadAttribute => exact not_failsAt_loadAttribute htext ha e

/-- Nothing can be wrong with a raw text. -/
theorem not_failsAt_of_raw {settings text : String} {s : Settings} (hraw : o.parsed = false)
    (hsettings : files o.config = .ok settings.toUTF8) (hs : Settings.ofJson settings = .ok s)
    (htext : o.inputBytes files stdin = .ok text.toUTF8) (step : Step) (e : Failure) :
    ¬o.FailsAt files stdin step e := by
  have ha : o.readAttribute (o.override s) text
      = .ok (Attribute.ofText (o.override s).viewports text) := by
    rw [readAttribute, hraw]
    rfl
  exact not_failsAt hsettings hs htext ha step e

/-! ## The result -/

/-- The settings file is no text, or one that cannot be loaded, or it gives the settings. -/
theorem readSettings_cases (o : Options) (files : Files) :
    (∃ e, Unreadable (files o.config) e ∧ o.readSettings files = .error (.unreadable e)) ∨
      ∃ settings : String, files o.config = .ok settings.toUTF8 ∧
        ((∃ d, Settings.ofJson settings = .error d ∧
            o.readSettings files = .error (.badSettings d)) ∨
          ∃ s, Settings.ofJson settings = .ok s ∧ o.readSettings files = .ok (o.override s)) := by
  rcases unreadable_or_text (files o.config) with ⟨e, hun⟩ | ⟨settings, hsettings⟩
  · have hread : readFile files o.config = .error (.unreadable e) := textOf_of_unreadable hun
    refine Or.inl ⟨e, hun, ?_⟩
    rw [readSettings, hread]
  · have hread : readFile files o.config = .ok settings := readFile_of_toUTF8 hsettings
    refine Or.inr ⟨settings, hsettings, ?_⟩
    cases hs : Settings.ofJson settings with
    | error d =>
      refine Or.inl ⟨d, rfl, ?_⟩
      rw [readSettings, hread]
      simp only [hs]
    | ok s => exact Or.inr ⟨s, rfl, readSettings_of_ofJson hread hs⟩

/-- The input is no text, or the text is read. -/
theorem readInput_cases (o : Options) (files : Files) (stdin : ByteArray) :
    (∃ e, Unreadable (o.inputBytes files stdin) e ∧
        o.readInput files stdin = .error (.unreadable e)) ∨
      ∃ text : String, o.inputBytes files stdin = .ok text.toUTF8 ∧
        o.readInput files stdin = .ok text := by
  rw [readInput_eq_textOf]
  rcases unreadable_or_text (o.inputBytes files stdin) with ⟨e, hun⟩ | ⟨text, htext⟩
  · exact Or.inl ⟨e, hun, textOf_of_unreadable hun⟩
  · refine Or.inr ⟨text, htext, ?_⟩
    rw [htext, textOf_toUTF8]

/-- **The first step that fails decides.** A run has the failure of this step, or no step fails and
there is a result. -/
theorem result_cases (o : Options) (files : Files) (stdin : ByteArray) :
    (∃ step e, o.FailsFirst files stdin step e ∧ o.result files stdin = .error e) ∨
      (∀ step e, ¬o.FailsAt files stdin step e) ∧ ∃ out, o.result files stdin = .ok out := by
  rcases o.readSettings_cases files with
    ⟨e, hun, hread⟩ | ⟨settings, hsettings, ⟨d, hd, hread⟩ | ⟨s, hs, hread⟩⟩
  · refine Or.inl ⟨.readSettings, .unreadable e, ⟨.readSettings hun, ?_⟩, ?_⟩
    · intro step' e' hlt
      exact absurd hlt (Nat.not_lt_zero _)
    · simp only [result, hread]
  · refine Or.inl ⟨.loadSettings, .badSettings d, ⟨.loadSettings hsettings hd, ?_⟩, ?_⟩
    · intro step' e' hlt
      cases step' with
      | readSettings => exact not_failsAt_readSettings hsettings e'
      | _ => exact absurd hlt (by decide)
    · simp only [result, hread]
  rcases o.readInput_cases files stdin with ⟨e, hun, hinput⟩ | ⟨text, htext, hinput⟩
  · refine Or.inl ⟨.readInput, .unreadable e, ⟨.readInput hun, ?_⟩, ?_⟩
    · intro step' e' hlt
      cases step' with
      | readSettings => exact not_failsAt_readSettings hsettings e'
      | loadSettings => exact not_failsAt_loadSettings hsettings hs e'
      | _ => exact absurd hlt (by decide)
    · simp only [result, hread, hinput]
  cases ha : o.readAttribute (o.override s) text with
  | error e =>
    obtain ⟨hparsed, d, hd, rfl⟩ := readAttribute_eq_error ha
    refine Or.inl ⟨.loadAttribute, .badAttribute d, ⟨.loadAttribute hparsed htext hd, ?_⟩, ?_⟩
    · intro step' e' hlt
      cases step' with
      | readSettings => exact not_failsAt_readSettings hsettings e'
      | loadSettings => exact not_failsAt_loadSettings hsettings hs e'
      | readInput => exact not_failsAt_readInput htext e'
      | loadAttribute => exact absurd hlt (by decide)
    · simp only [result, hread, hinput, ha]
  | ok a =>
    exact Or.inr ⟨not_failsAt hsettings hs htext ha, _, result_of_parts hread hinput ha⟩

end Options

open Options (FailsAt FailsFirst)

/-! ## The whole run -/

variable {args : List String} {o : Options}

/-- A command line that is not understood ends every run in the same way. -/
theorem run_of_rejected (ho : Options.ofArgs? args = none) (files : Files) (stdin : ByteArray) :
    run args files stdin = ⟨2, "", usage ++ "\n"⟩ := by
  simp only [run, ho]

/-- A run prints the message of the first step that fails, or its result. -/
theorem run_of_accepted (ho : Options.ofArgs? args = some o) (files : Files) (stdin : ByteArray) :
    (∃ step e, FailsFirst o files stdin step e ∧
      run args files stdin = ⟨1, "", e.message ++ "\n"⟩) ∨
    (∀ step e, ¬FailsAt o files stdin step e) ∧ ∃ out, run args files stdin = ⟨0, out, ""⟩ := by
  rcases o.result_cases files stdin with ⟨step, e, hfirst, hresult⟩ | ⟨hnone, out, hresult⟩
  · refine Or.inl ⟨step, e, hfirst, ?_⟩
    simp only [run, ho, hresult]
  · refine Or.inr ⟨hnone, out, ?_⟩
    simp only [run, ho, hresult]

/-- **The status of a run and what is printed with it.** The status is 2 exactly if the command line
is not understood, whatever the files and the input are; it is 1 exactly if a step of an understood
command line fails, and then the message is that of the first such step; otherwise it is 0. Without
a result nothing is printed but the message, and with a result there is no message. So settings that
can be loaded and a text that can be read have a result, whatever they say. -/
theorem exit_status (args : List String) (files : Files) (stdin : ByteArray) :
    let r := run args files stdin
    (r.status = 2 ↔ Options.ofArgs? args = none) ∧
    (r.status = 2 → ∀ files' stdin', run args files' stdin' = r) ∧
    (r.status = 1 ↔ ∃ o, Options.ofArgs? args = some o ∧
      ∃ step e, FailsAt o files stdin step e) ∧
    (∀ o step e, Options.ofArgs? args = some o → FailsFirst o files stdin step e →
      r.err = e.message ++ "\n") ∧
    (r.status = 0 ∨ r.status = 1 ∨ r.status = 2) ∧
    (r.status ≠ 0 → r.out = "") ∧
    (r.status = 0 → r.err = "") ∧
    (∀ (o : Options) (settings : String) (s : Settings) (text : String),
      Options.ofArgs? args = some o → o.parsed = false →
      files o.config = .ok settings.toUTF8 → Settings.ofJson settings = .ok s →
      o.inputBytes files stdin = .ok text.toUTF8 → r.status = 0) := by
  intro r
  cases ho : Options.ofArgs? args with
  | none =>
    have hall := run_of_rejected ho
    have hr : r = ⟨2, "", usage ++ "\n"⟩ := hall files stdin
    simp [hr, hall]
  | some o =>
    rcases run_of_accepted ho files stdin with ⟨step, e, hfirst, hrun⟩ | ⟨hnone, out, hrun⟩
    · have hr : r = ⟨1, "", e.message ++ "\n"⟩ := hrun
      refine ⟨by simp [hr], by simp [hr], ?_, ?_, by simp [hr], by simp [hr], by simp [hr], ?_⟩
      · have hstatus : r.status = 1 := by rw [hr]
        exact iff_of_true hstatus ⟨o, rfl, step, e, hfirst.1⟩
      · intro o' step' e' ho' hfirst'
        cases ho'
        rw [hr, hfirst'.unique hfirst]
      · intro o' settings s text ho' hraw hsettings hs htext
        cases ho'
        exact absurd hfirst.1 (Options.not_failsAt_of_raw hraw hsettings hs htext step e)
    · have hr : r = ⟨0, out, ""⟩ := hrun
      refine ⟨by simp [hr], by simp [hr], ?_, ?_, by simp [hr], by simp [hr], by simp [hr], ?_⟩
      · have hstatus : r.status ≠ 1 := by simp [hr]
        refine iff_of_false hstatus ?_
        intro ⟨o', ho', step, e, hfails⟩
        cases ho'
        exact hnone step e hfails
      · intro o' step e ho' hfirst
        cases ho'
        exact absurd hfirst.1 (hnone step e)
      · intros
        rw [hr]

/-- Malformed settings and a missing input file: the settings come first. With settings that can be
loaded a text has a result, and a command line that names no settings has none in any case. -/
theorem exit_status_settings_first :
    let args := ["--config", "c.json", "--parsed", "in.txt"]
    let o : Options := { config := "c.json", parsed := true, input := "in.txt" }
    let d : Json.Defect := ⟨.endIn .array, 1, 1⟩
    let settings := "\x7b\"categories\": \x7b\"box\": \"flex p-*\"\x7d\x7d"
    let files : String → Files := fun settings path =>
      if path = "c.json" then .ok settings.toUTF8 else .error .missing
    let stdin := "p-1 flex".toUTF8
    let failed := run args (files "[") stdin
    let ended := run ["--config", "c.json"] (files settings) stdin
    let refused := run ["format"] (files settings) stdin
    FailsFirst o (files "[") stdin .loadSettings (.badSettings d) ∧
      FailsAt o (files "[") stdin .readInput (.unreadable .missing) ∧
      failed.status = 1 ∧ failed.out = "" ∧
      failed.err
        = "Invalid formatter config: EOF while parsing a list at line 1 column 1\n" ∧
      Settings.ofJson settings = .ok { taxonomy := [⟨"box", "flex p-*"⟩] } ∧
      ended.status = 0 ∧ ended.err = "" ∧
      refused.status = 2 ∧ refused.out = "" := by
  intro args o d settings files stdin failed ended refused
  have hfirst : FailsFirst o (files "[") stdin .loadSettings (.badSettings d) := by
    have hread : files "[" o.config = .ok "[".toUTF8 := rfl
    have hbad : Settings.ofJson "[" = .error d := by
      have hfault : Settings.reader.read "[".toList = .error ⟨.endIn .array, 0⟩ := rfl
      have hplace : Json.Defect.ofFault "[" ⟨.endIn .array, 0⟩ = d := by
        rw [Json.Defect.mk.injEq]
        exact ⟨rfl, by decide +kernel, by decide +kernel⟩
      rw [Settings.ofJson, Json.Reader.ofText, hfault, ← hplace]
    refine ⟨.loadSettings hread hbad, ?_⟩
    intro step e hlt
    cases step with
    | readSettings => exact Options.not_failsAt_readSettings hread e
    | _ => exact absurd hlt (by decide)
  have hmissing : FailsAt o (files "[") stdin .readInput (.unreadable .missing) :=
    .readInput (.refused .missing)
  have hs : Settings.ofJson settings = .ok { taxonomy := [⟨"box", "flex p-*"⟩] } :=
    Json.ofText_of_toOption (by decide +kernel)
  have hargs : Options.ofArgs? args = some o := by decide
  obtain ⟨-, -, hone, hmessage, -, hout, -⟩ := exit_status args (files "[") stdin
  have hfailed : failed.status = 1 := hone.mpr ⟨o, hargs, _, _, hfirst.1⟩
  have herr : failed.err
      = "Invalid formatter config: EOF while parsing a list at line 1 column 1\n" :=
    (hmessage o _ _ hargs hfirst).trans (by decide)
  obtain ⟨-, -, -, -, -, -, hquiet, hzero⟩ :=
    exit_status ["--config", "c.json"] (files settings) stdin
  have hended : ended.status = 0 :=
    hzero { config := "c.json" } settings _ "p-1 flex" (by decide) rfl rfl hs rfl
  obtain ⟨htwo, -, -, -, -, hout', -⟩ := exit_status ["format"] (files settings) stdin
  have hrefused : refused.status = 2 := htwo.mpr (by decide)
  have hnone : failed.out = "" := hout (by rw [hfailed]; decide)
  have hnone' : refused.out = "" := hout' (by rw [hrefused]; decide)
  exact ⟨hfirst, hmissing, hfailed, hnone, herr, hs, hended, hquiet hended, hrefused, hnone'⟩

end ClassTidy.Command
