import ClassTidy.Command.Program

/-!
# The command

Reads what the command line names, and prints what the run leaves behind. All decisions are made by
`Command.run`; only the reading of files and of the standard input is here.
-/

namespace ClassTidy.Command

/-- The number of a system error. Some are reported as words of 32 bits with the sign turned. -/
def errorNumber (code : UInt32) : Nat :=
  if code < 0x80000000 then code.toNat else (0 - code).toNat

/-- Why the system refused to read. -/
def readFailure : IO.Error → ReadFailure
  | .noFileOrDirectory .. => .missing
  | .inappropriateType _ code _ =>
    if errorNumber code = 20 then .notDirectory else .directory
  | .permissionDenied _ code details | .resourceExhausted _ code details
  | .alreadyExists _ code details | .invalidArgument _ code details
  | .interrupted _ code details => .refused details (errorNumber code)
  | .unsupportedOperation code details | .hardwareFault code details
  | .otherError code details => .refused details (errorNumber code)
  | e => .refused e.toString 0

/-- The bytes of a file, or why they cannot be read. -/
def readBytes (path : String) : IO (Except ReadFailure ByteArray) := do
  try
    return .ok (← IO.FS.readBinFile path)
  catch e =>
    return .error (readFailure e)

partial def readStdin (sofar : ByteArray := .empty) : IO ByteArray := do
  let chunk ← (← IO.getStdin).read 65536
  if chunk.isEmpty then return sofar else readStdin (sofar ++ chunk)

/-- The files that have been read, by path. -/
def filesOf (found : List (String × Except ReadFailure ByteArray)) : Files :=
  fun path => (found.lookup path).getD (.error .missing)

/-- What a run may read: the settings file, and the input file or the standard input. Nothing is
read for a command line that is not understood, and no input is waited for if there are no
settings. -/
def readNamed (args : List String) : IO (Files × ByteArray) := do
  let some o := Options.ofArgs? args | return (filesOf [], .empty)
  let config := (o.config, ← readBytes o.config)
  if (o.readSettings (filesOf [config])).toBool then
    match o.input with
    | none | some "-" => return (filesOf [config], ← readStdin)
    | some path => return (filesOf [config, (path, ← readBytes path)], .empty)
  else return (filesOf [config], .empty)

end ClassTidy.Command

def main (args : List String) : IO UInt32 := do
  let (files, stdin) ← ClassTidy.Command.readNamed args
  let outcome := ClassTidy.Command.run args files stdin
  IO.print outcome.out
  IO.eprint outcome.err
  return outcome.status.toUInt32
