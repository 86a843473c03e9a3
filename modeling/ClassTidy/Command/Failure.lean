import ClassTidy.Json.Fault

/-!
# Why a run fails
-/

namespace ClassTidy.Command

/-- Why a file or the standard input cannot be read as text. -/
inductive ReadFailure where
  /-- The system refuses, with its description and the number of the error. -/
  | refused (description : String) (number : Nat)
  | notText
deriving DecidableEq, Repr

namespace ReadFailure

def missing : ReadFailure := refused "No such file or directory" 2

/-- A part of the path is a file. -/
def notDirectory : ReadFailure := refused "Not a directory" 20

def directory : ReadFailure := refused "Is a directory" 21

def message : ReadFailure → String
  | refused description number => description ++ " (os error " ++ toString number ++ ")"
  | notText => "stream did not contain valid UTF-8"

end ReadFailure

/-- Why a run fails once its command line has been understood. -/
inductive Failure where
  | unreadable (e : ReadFailure)
  | badSettings (d : Json.Defect)
  /-- The input does not hold an attribute in JSON. -/
  | badAttribute (d : Json.Defect)

def Failure.message : Failure → String
  | unreadable e => "I/O error: " ++ e.message
  | badSettings d => "Invalid formatter config: " ++ d.message
  | badAttribute d => "Invalid parsed class data: " ++ d.message

end ClassTidy.Command
