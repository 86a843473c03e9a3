import ClassTidy.Attribute.Json
import ClassTidy.Command.Failure
import ClassTidy.Command.Options
import ClassTidy.Command.Usage
import ClassTidy.Layout
import ClassTidy.Settings.Json
import ClassTidy.Shelves.Json

/-!
# A run of the program

What a run prints and the status that it ends with, from its command line, the files it may read
and its standard input. The work is done in order: settings are read and understood, then the
input. The first thing that fails ends the run, and a run that fails prints no result.
-/

namespace ClassTidy.Command

/-- What a run leaves behind. -/
structure Outcome where
  /-- The exit status: 0 for a result, 1 for a failure, 2 for a bad command line. -/
  status : Nat
  out : String
  err : String
deriving DecidableEq, Repr

/-- What a path leads to. -/
abbrev Files := String → Except ReadFailure ByteArray

/-- The text that bytes stand for in UTF-8. -/
def decode (bytes : ByteArray) : Except Failure String :=
  match String.fromUTF8? bytes with
  | some text => .ok text
  | none => .error (.unreadable .notText)

def readFile (files : Files) (path : String) : Except Failure String :=
  match files path with
  | .ok bytes => decode bytes
  | .error e => .error (.unreadable e)

/-- The classes as lines or, if asked for, as a JSON array. -/
def printLines (json : Bool) (lines : List String) : String :=
  if json then (Json.Value.strings lines).toText ++ "\n"
  else String.join (lines.map (· ++ "\n"))

/-- Adds the scoped classes of one label after the other to the classes, but for the labels that
have been seen before. -/
def gather (a : Attribute) (seen classes : List String) : List String → List String
  | [] => classes
  | label :: labels =>
    if label ∈ seen then gather a seen classes labels
    else gather a (label :: seen) (classes ++ a.scopedTo label) labels

/-- The buckets of the base classes and of the scoped classes of every viewport. -/
def listing (s : Settings) (a : Attribute) : Sorted :=
  s.sort (gather a [] a.base s.viewports)

namespace Options

/-- Reads the settings file and overrides what the options override. -/
def readSettings (o : Options) (files : Files) : Except Failure Settings :=
  match readFile files o.config with
  | .error e => .error e
  | .ok text =>
    match Settings.ofJson text with
    | .error d => .error (.badSettings d)
    | .ok s => .ok (o.override s)

/-- Reads the text of the input. -/
def readInput (o : Options) (files : Files) (stdin : ByteArray) : Except Failure String :=
  match o.input with
  | none => decode stdin
  | some path => if path = "-" then decode stdin else readFile files path

/-- The attribute that the input stands for. -/
def readAttribute (o : Options) (s : Settings) (text : String) : Except Failure Attribute :=
  if o.parsed then
    match Attribute.ofJson text with
    | .error d => .error (.badAttribute d)
    | .ok a => .ok a
  else .ok (Attribute.ofText s.viewports text)

/-- What is printed for an attribute. -/
def print (o : Options) (s : Settings) (a : Attribute) : String :=
  match o.action with
  | .format => printLines o.json (s.layout a)
  | .group => (listing s a).toJson.toPrettyText ++ "\n"

def result (o : Options) (files : Files) (stdin : ByteArray) : Except Failure String :=
  match o.readSettings files with
  | .error e => .error e
  | .ok s =>
    match o.readInput files stdin with
    | .error e => .error e
    | .ok text =>
      match o.readAttribute s text with
      | .error e => .error e
      | .ok a => .ok (o.print s a)

end Options

/-- What a run leaves behind. -/
def run (args : List String) (files : Files) (stdin : ByteArray) : Outcome :=
  match Options.ofArgs? args with
  | none => ⟨2, "", usage ++ "\n"⟩
  | some o =>
    match o.result files stdin with
    | .error e => ⟨1, "", e.message ++ "\n"⟩
    | .ok out => ⟨0, out, ""⟩

end ClassTidy.Command
