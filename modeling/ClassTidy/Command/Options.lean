import ClassTidy.Settings.Basic

/-!
# Command lines

A command line is a list of items in any order, each of one or two words. An item that comes again
overrides the one before it, apart from the input, which may be named once. Two dashes end the
options; one word may follow and is the input, whatever it looks like. A settings file has to be
named.
-/

namespace ClassTidy.Command

/-- What is to be done. -/
inductive Action where
  | format
  | group
deriving DecidableEq, Repr

/-- An item of a command line. -/
inductive Item where
  | action (a : Action)
  | parsed
  | json
  | config (path : String)
  | printWidth (n : Nat)
  | mode (m : Mode)
  | placement (p : Placement)
  | measure (m : Measure)
  /-- The input file, or `-` for the standard input. -/
  | input (path : String)
deriving DecidableEq, Repr

/-- A width in decimal digits, after a plus sign or not, below `2^64`. -/
def width? (word : String) : Option Nat :=
  let digits := if word.toList.head? = some '+' then word.toList.drop 1 else word.toList
  let n := digits.foldl (fun n d => 10 * n + (d.toNat - '0'.toNat)) 0
  if digits ≠ [] ∧ digits.all Char.isDigit ∧ n < UInt64.size then some n else none

namespace Item

/-- The item of one word. -/
def ofWord? (word : String) : Option Item :=
  if word = "format" then some (.action .format)
  else if word = "group" then some (.action .group)
  else if word = "--parsed" then some .parsed
  else if word = "--json" then some .json
  else if word = "-" ∨ word.toList.head? ≠ some '-' then some (.input word)
  else none

/-- The item of an option and the word behind it. -/
def ofPair? (option word : String) : Option Item :=
  if option = "--config" then some (.config word)
  else if option = "--print-width" then (width? word).map .printWidth
  else if option = "--grouping" then some (.mode (.ofName word))
  else if option = "--uncategorized" then
    if word = "before" then some (.placement .before)
    else if word = "after" then some (.placement .after)
    else none
  else if option = "--width-measure" then
    if word = "chars" then some (.measure .chars)
    else if word = "display" then some (.measure .display)
    else none
  else none

/-- The items of a command line, or `none` if its words are not all parts of items. -/
def ofWords? : List String → Option (List Item)
  | [] => some []
  | ["--"] => some []
  | ["--", word] => some [.input word]
  -- An option that needs a second word has none here.
  | [word] => (ofWord? word).map ([·])
  | word :: word' :: words =>
    if word = "--" then none
    else match ofWord? word with
      | some item => (ofWords? (word' :: words)).map (item :: ·)
      | none =>
        match ofPair? word word' with
        | some item => (ofWords? words).map (item :: ·)
        | none => none

end Item

/-- What a command line asks for. -/
structure Options where
  action : Action := .format
  config : String
  /-- The input file, the standard input if it is absent or `-`. -/
  input : Option String := none
  parsed : Bool := false
  json : Bool := false
  printWidth : Option Nat := none
  mode : Option Mode := none
  placement : Option Placement := none
  measure : Option Measure := none
deriving DecidableEq, Repr

namespace Options

def add (o : Options) : Item → Options
  | .action a => { o with action := a }
  | .parsed => { o with parsed := true }
  | .json => { o with json := true }
  | .config path => { o with config := path }
  | .printWidth n => { o with printWidth := some n }
  | .mode m => { o with mode := some m }
  | .placement p => { o with placement := some p }
  | .measure m => { o with measure := some m }
  | .input path => { o with input := some path }

def configOf? : Item → Option String
  | .config path => some path
  | _ => none

def inputOf? : Item → Option String
  | .input path => some path
  | _ => none

/-- The options that items stand for: a settings file has to be among them, and at most one
input. -/
def ofItems? (items : List Item) : Option Options :=
  match items.filterMap configOf?, items.filterMap inputOf? with
  | [], _ => none
  | _, _ :: _ :: _ => none
  | path :: _, _ => some (items.foldl add { config := path })

/-- The options of a command line. -/
def ofArgs? (args : List String) : Option Options :=
  (Item.ofWords? args).bind ofItems?

/-- The settings with what the options override. -/
def override (o : Options) (s : Settings) : Settings :=
  { s with
    printWidth := o.printWidth.getD s.printWidth
    mode := o.mode.getD s.mode
    placement := o.placement.getD s.placement
    measure := o.measure.getD s.measure }

end Options

end ClassTidy.Command
