/-!
# Packing groups of classes into lines

A group is a list of classes that stays together. Lines are filled with consecutive groups: each
line takes the longest run of the groups still to come that fits the limit, and at least one group.
The width of a line is a parameter. It need not grow with the run, so the longest fitting run is
looked for from the longest run downwards.
-/

namespace ClassTidy

/-- The classes with one space between neighbours. -/
def spaced (classes : List String) : String :=
  " ".intercalate classes

namespace Packing

variable (width : String → Nat) (limit : Nat)

/-- The line that holds the groups of a run. -/
def line (run : List (List String)) : String :=
  spaced run.flatten

/-- How many of the first `n` groups of `rest` go on one line with `first`: the largest number for
which the line fits, and none if there is no such number. -/
def companions (first : List String) (rest : List (List String)) : Nat → Nat
  | 0 => 0
  | n + 1 =>
    if width (line (first :: rest.take (n + 1))) ≤ limit then n + 1
    else companions first rest n

/-- Cuts the groups into the runs that share a line. -/
def cut : List (List String) → List (List (List String))
  | [] => []
  | first :: rest =>
    -- The first group always goes on the line, so the rest is shorter whether it fits or not.
    let n := companions width limit first rest rest.length
    (first :: rest.take n) :: cut (rest.drop n)
  termination_by groups => groups.length
  decreasing_by
    rw [List.length_drop, List.length_cons]
    omega

end Packing

/-- The lines that hold the groups, each as full as it can be. Empty groups are left out. -/
def pack (width : String → Nat) (limit : Nat) (groups : List (List String)) : List String :=
  (Packing.cut width limit (groups.filter (!·.isEmpty))).map Packing.line

end ClassTidy
