import ClassTidy.Command.Program

/-!
# What a run depends on

Two runs that come to the same result leave the same behind (`run_eq_of_result`). Their results are
compared part by part:

> `readSettings_of_ofJson`: settings that can be read are the ones in the file, overridden;
> `readInput_of_stdin`, `readInput_eq`: the input is the standard input or its own file.
-/

namespace ClassTidy.Command

/-- The bytes of a text are read as the text. -/
theorem decode_toUTF8 (text : String) : decode text.toUTF8 = .ok text := by
  have hvalid : text.toUTF8.IsValidUTF8 := text.isValidUTF8
  unfold decode String.fromUTF8?
  rw [dif_pos hvalid]
  rfl

theorem readFile_of_toUTF8 {files : Files} {path text : String}
    (h : files path = .ok text.toUTF8) : readFile files path = .ok text := by
  rw [readFile, h]
  exact decode_toUTF8 text

namespace Options

theorem readSettings_of_ofJson {o : Options} {files : Files} {text : String} {s : Settings}
    (hread : readFile files o.config = .ok text) (hs : Settings.ofJson text = .ok s) :
    o.readSettings files = .ok (o.override s) := by
  rw [readSettings, hread]
  simp only [hs]

theorem readInput_of_stdin {o : Options} (h : o.input = none ∨ o.input = some "-") (files : Files)
    (stdin : ByteArray) : o.readInput files stdin = decode stdin := by
  unfold readInput
  rcases h with h | h <;> rw [h]
  rfl

/-- Of the files, the input depends on the one that is named. -/
theorem readInput_eq {o o' : Options} {files files' : Files} (hinput : o'.input = o.input)
    (hfiles : ∀ path, o.input = some path → path ≠ "-" → files' path = files path)
    (stdin : ByteArray) : o'.readInput files' stdin = o.readInput files stdin := by
  unfold readInput
  rw [hinput]
  cases hpath : o.input with
  | none => rfl
  | some path =>
    by_cases hdash : path = "-"
    · simp only [if_pos hdash]
    · simp only [if_neg hdash, readFile, hfiles path hpath hdash]

/-- A result is printed once its settings, its input and its attribute have been read. -/
theorem result_of_parts {o : Options} {files : Files} {stdin : ByteArray} {s : Settings}
    {text : String} {a : Attribute} (hsettings : o.readSettings files = .ok s)
    (hinput : o.readInput files stdin = .ok text) (ha : o.readAttribute s text = .ok a) :
    o.result files stdin = .ok (o.print s a) := by
  simp only [result, hsettings, hinput, ha]

end Options

theorem run_eq_of_result {args args' : List String} {o o' : Options} {files files' : Files}
    {stdin stdin' : ByteArray} (h : Options.ofArgs? args = some o)
    (h' : Options.ofArgs? args' = some o')
    (hresult : o.result files stdin = o'.result files' stdin') :
    run args files stdin = run args' files' stdin' := by
  simp only [run, h, h', hresult]

end ClassTidy.Command
