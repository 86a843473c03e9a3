import ClassTidy.Proofs.CommandLines
import ClassTidy.Proofs.Runs
import ClassTidy.Proofs.SettingsFiles

/-!
# Overriding the settings file

Four options override what the settings file says. A command line without them that names another
settings file (`withSettingsFile`) asks for the same otherwise (`ofArgs?_withSettingsFile`). If the
other file holds the settings with the last value that each option gives (`withGiven`), then the
options were not needed:

> `overrides_are_settings`: both runs leave the same behind.
-/

namespace ClassTidy.Command

/-- The options that override the settings file. -/
def overrideOptions : List String :=
  ["--print-width", "--grouping", "--uncategorized", "--width-measure"]

/-- The words without the options that override, and with another settings file in the place of
every one that they name. -/
def withSettingsFile (path : String) : List String → List String
  | word :: word' :: words =>
    if word = "--" then word :: word' :: words
    else if word = "--config" then word :: path :: withSettingsFile path words
    else if word ∈ overrideOptions then withSettingsFile path words
    else word :: withSettingsFile path (word' :: words)
  | words => words

namespace Item

/-- What becomes of an item: those that override are left out, and the settings file is another. -/
def settingsFrom (path : String) : Item → Option Item
  | .config _ => some (.config path)
  | .printWidth _ => none
  | .mode _ => none
  | .placement _ => none
  | .measure _ => none
  | item => some item

/-- A word that is an item by itself is kept. -/
theorem settingsFrom_of_ofWord? {word : String} {item : Item} (h : ofWord? word = some item)
    (path : String) : item.settingsFrom path = some item := by
  unfold ofWord? at h
  split at h
  next => cases h; rfl
  split at h
  next => cases h; rfl
  split at h
  next => cases h; rfl
  split at h
  next => cases h; rfl
  split at h
  next => cases h; rfl
  next => cases h

theorem withSettingsFile_word {word : String} {item : Item} (h : ofWord? word = some item)
    (path : String) (words : List String) :
    withSettingsFile path (word :: words) = word :: withSettingsFile path words := by
  have hnot : ∀ option ∈ "--" :: "--config" :: overrideOptions, word ≠ option := by
    rintro option hmem rfl
    have hnone : ∀ option ∈ "--" :: "--config" :: overrideOptions, ofWord? option = none := by
      decide
    rw [hnone word hmem] at h
    cases h
  have hoverride : word ∉ overrideOptions := fun hmem =>
    hnot word (List.mem_cons_of_mem _ (List.mem_cons_of_mem _ hmem)) rfl
  cases words with
  | nil => rfl
  | cons word' words =>
    rw [withSettingsFile, if_neg (hnot "--" (by simp)), if_neg (hnot "--config" (by simp)),
      if_neg hoverride]

/-- The words without the options that override spell what is left of the items. -/
theorem Spells.withSettingsFile {words : List String} {items : List Item} (h : Spells words items)
    (path : String) :
    Spells (withSettingsFile path words) (items.filterMap (settingsFrom path)) := by
  induction h with
  | nil => exact .nil
  | dashes => exact .dashes
  | dashesInput word => exact .dashesInput word
  | word hitem _ ih =>
    rw [withSettingsFile_word hitem, List.filterMap_cons_some (settingsFrom_of_ofWord? hitem path)]
    exact .word hitem ih
  | pair hitem _ ih =>
    rcases ofPair?_cases hitem with
      ⟨rfl, rfl⟩ | ⟨rfl, _, -, rfl⟩ | ⟨rfl, rfl⟩ | ⟨rfl, _, -, rfl⟩ | ⟨rfl, _, -, rfl⟩
    -- Of these options only the one that names the settings file is kept.
    · exact .pair rfl ih
    · exact ih
    · exact ih
    · exact ih
    · exact ih

/-- A width that is given is a machine word. -/
theorem Spells.printWidth_lt {words : List String} {items : List Item} (h : Spells words items)
    {n : Nat} (hn : .printWidth n ∈ items) : n < UInt64.size := by
  induction h with
  | nil => cases hn
  | dashes => cases hn
  | dashesInput word => simp at hn
  | word hitem _ ih =>
    rcases List.mem_cons.mp hn with rfl | hn
    · -- A width is left out, but an item of one word never is.
      cases settingsFrom_of_ofWord? hitem ""
    · exact ih hn
  | pair hitem _ ih =>
    rcases List.mem_cons.mp hn with rfl | hn
    · rcases ofPair?_cases hitem with
        ⟨-, h⟩ | ⟨-, m, hm, h⟩ | ⟨-, h⟩ | ⟨-, _, -, h⟩ | ⟨-, _, -, h⟩ <;> cases h
      exact lt_of_width? hm
    · exact ih hn

/-! ## The values that items give -/

def printWidth? : Item → Option Nat
  | .printWidth n => some n
  | _ => none

def mode? : Item → Option Mode
  | .mode m => some m
  | _ => none

def placement? : Item → Option Placement
  | .placement p => some p
  | _ => none

def measure? : Item → Option Measure
  | .measure m => some m
  | _ => none

end Item

/-! ## Options from the file -/

open Options

/-- The settings with the last value that the items give for each field, if there is one. -/
def withGiven (items : List Item) (s : Settings) : Settings :=
  { s with
    printWidth := (lastGiven Item.printWidth? items).getD s.printWidth
    mode := (lastGiven Item.mode? items).getD s.mode
    placement := (lastGiven Item.placement? items).getD s.placement
    measure := (lastGiven Item.measure? items).getD s.measure }

/-- Each option that overrides has the value that the last item of its kind gives. -/
theorem given_of_ofItems? {items : List Item} {o : Options} (h : ofItems? items = some o) :
    o.printWidth = lastGiven Item.printWidth? items ∧ o.mode = lastGiven Item.mode? items ∧
    o.placement = lastGiven Item.placement? items ∧ o.measure = lastGiven Item.measure? items := by
  obtain ⟨path, rfl⟩ := exists_foldl_of_ofItems? h
  have hwidth := foldl_add_eq_lastGiven Item.printWidth? Options.printWidth
    (fun o item => by cases item <;> rfl) items { config := path }
  have hmode := foldl_add_eq_lastGiven Item.mode? Options.mode
    (fun o item => by cases item <;> rfl) items { config := path }
  have hplacement := foldl_add_eq_lastGiven Item.placement? Options.placement
    (fun o item => by cases item <;> rfl) items { config := path }
  have hmeasure := foldl_add_eq_lastGiven Item.measure? Options.measure
    (fun o item => by cases item <;> rfl) items { config := path }
  simp only [Option.or_none] at hwidth hmode hplacement hmeasure
  exact ⟨hwidth, hmode, hplacement, hmeasure⟩

/-- The options that override make the settings the same as the items do. -/
theorem override_eq_withGiven {items : List Item} {o : Options} (h : ofItems? items = some o)
    (s : Settings) : o.override s = withGiven items s := by
  obtain ⟨hwidth, hmode, hplacement, hmeasure⟩ := given_of_ofItems? h
  rw [override, withGiven, hwidth, hmode, hplacement, hmeasure]

/-- Settings that have been read may be written with the values that a command line gives. -/
theorem loaded_withGiven {args : List String} {items : List Item} {s : Settings}
    (hitems : Item.ofWords? args = some items) (hs : s.Loaded) : (withGiven items s).Loaded := by
  refine ⟨hs.names_nodup, ?_⟩
  show (lastGiven Item.printWidth? items).getD s.printWidth < UInt64.size
  cases hgiven : lastGiven Item.printWidth? items with
  | none => exact hs.width_lt
  | some n =>
    obtain ⟨item, hmem, hitem⟩ := mem_of_lastGiven hgiven
    cases item <;> cases hitem
    exact (Item.ofWords?_eq_some_iff.mp hitems).printWidth_lt hmem

/-- What options ask for if another settings file says what they override. -/
def Options.settingsFrom (path : String) (o : Options) : Options :=
  { o with
    config := path
    printWidth := none
    mode := none
    placement := none
    measure := none }

theorem ofArgs?_withSettingsFile {args : List String} {o : Options}
    (h : ofArgs? args = some o) (path : String) :
    ofArgs? (withSettingsFile path args) = some (o.settingsFrom path) := by
  obtain ⟨items, hitems, ho⟩ := Option.bind_eq_some_iff.mp h
  have hspells := (Item.ofWords?_eq_some_iff.mp hitems).withSettingsFile path
  have hoptions : ofItems? (items.filterMap (Item.settingsFrom path))
      = (ofItems? items).map (Options.settingsFrom path) := by
    apply ofItems?_filterMap fun _ => path
    · intro item
      cases item <;> rfl
    · intro item
      cases item <;> rfl
    · intro path
      rfl
    · intro o item
      cases item <;> rfl
  rw [ofArgs?, Item.ofWords?_eq_some_iff.mpr hspells, Option.bind_some, hoptions, ho]
  rfl

/-- **Options override the settings file, and nothing else.** A run leaves the same behind as the
run without the options that override and with another settings file: the settings of the first
file, with the last value that each of these options gives. The files of the second run may be any
in which the input is the same. -/
theorem overrides_are_settings {args : List String} {items : List Item} {o : Options}
    {files files' : Files} {settings fresh : String} {s : Settings} {stdin : ByteArray}
    (hitems : Item.ofWords? args = some items) (ho : Options.ofItems? items = some o)
    (hread : readFile files o.config = .ok settings) (hs : Settings.ofJson settings = .ok s)
    (hfresh : files' fresh = .ok (withGiven items s).toJson.toText.toUTF8)
    (hinput : ∀ path, o.input = some path → path ≠ "-" → files' path = files path) :
    run args files stdin = run (withSettingsFile fresh args) files' stdin := by
  have hargs : ofArgs? args = some o := by
    rw [ofArgs?, hitems, Option.bind_some, ho]
  apply run_eq_of_result hargs (ofArgs?_withSettingsFile hargs fresh)
  have hback : Settings.ofJson (withGiven items s).toJson.toText = .ok (withGiven items s) :=
    (loaded_withGiven hitems (Settings.loaded_of_ofJson hs)).ofJson_toText
  have hsettings : o.readSettings files = .ok (withGiven items s) := by
    rw [readSettings_of_ofJson hread hs, override_eq_withGiven ho]
  have hsettings' : (o.settingsFrom fresh).readSettings files' = .ok (withGiven items s) :=
    readSettings_of_ofJson (readFile_of_toUTF8 hfresh) hback
  have hinput' : (o.settingsFrom fresh).readInput files' stdin = o.readInput files stdin :=
    readInput_eq rfl hinput stdin
  unfold result
  rw [hsettings, hsettings', hinput']
  rfl

/-- A width that is given twice, and a category that is given twice in the file. -/
theorem overrides_are_settings_repeated_width :
    let args := ["--print-width", "5", "in.txt", "--config", "c.json", "--grouping", "inline",
      "--print-width", "+7", "--uncategorized", "before"]
    let items : List Item := [.printWidth 5, .input "in.txt", .config "c.json", .mode .inline,
      .printWidth 7, .placement .before]
    let o : Options :=
      { config := "c.json"
        input := "in.txt"
        printWidth := some 7
        mode := some .inline
        placement := some .before }
    let settings := "\x7b\"categories\": \x7b\"a\": \"p\", \"a\": \"q\"\x7d\x7d"
    let s : Settings := { taxonomy := [⟨"a", "q"⟩] }
    let t : Settings := { s with mode := .inline, placement := .before, printWidth := 7 }
    let files : Files := fun path =>
      if path = "c.json" then .ok settings.toUTF8
      else if path = "in.txt" then .ok "p q".toUTF8
      else .error .missing
    let files' : Files := fun path =>
      if path = "t.json" then .ok t.toJson.toText.toUTF8 else files path
    Item.ofWords? args = some items ∧ Options.ofItems? items = some o ∧
      Settings.ofJson settings = .ok s ∧ withGiven items s = t ∧
      withSettingsFile "t.json" args = ["in.txt", "--config", "t.json"] ∧
      run args files ByteArray.empty
        = run (withSettingsFile "t.json" args) files' ByteArray.empty := by
  intro args items o settings s t files files'
  have hitems : Item.ofWords? args = some items := by decide
  have ho : Options.ofItems? items = some o := by decide
  have hread : readFile files "c.json" = .ok settings := readFile_of_toUTF8 rfl
  have hs : Settings.ofJson settings = .ok s :=
    Json.ofText_of_toOption (by decide +kernel)
  have hinput : ∀ path, o.input = some path → path ≠ "-" → files' path = files path := by
    intro path hpath _
    cases hpath
    rfl
  have hgiven : withGiven items s = t := by decide
  have hfresh : files' "t.json" = .ok (withGiven items s).toJson.toText.toUTF8 := by
    rw [hgiven]
    rfl
  exact ⟨hitems, ho, hs, hgiven, by decide, overrides_are_settings hitems ho hread hs hfresh hinput⟩

end ClassTidy.Command
