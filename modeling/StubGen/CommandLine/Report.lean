import StubGen.Text.Split

/-!
# Reports of failed runs

A report begins with what failed. Its causes follow from the outside in, each indented, and numbered
if there are several.
-/

namespace StubGen.CommandLine

/-- What failed, and why. -/
structure Report where
  message : String
  /-- The causes, each of the one before it. -/
  causes : List String := []
deriving DecidableEq, Inhabited

namespace Report

/-- A number in front of a cause. -/
def numbering (n : Nat) : String :=
  let digits := toString n
  String.ofList (List.replicate (5 - digits.length) ' ') ++ digits ++ ": "

/-- A cause with its lines indented. -/
def indented (number? : Option Nat) (cause : String) : String :=
  let (first, others) :=
    match number? with
    | some n => (numbering n, "       ")
    | none => ("    ", "    ")
  let lines := (Text.pieces '\n' cause.toList).map String.ofList
  first ++ ("\n" ++ others).intercalate lines

/-- The text of a report. -/
def text (r : Report) : String :=
  let number? (n : Nat) : Option Nat := if r.causes.length > 1 then some n else none
  let causes := r.causes.mapIdx fun n c => "\n" ++ indented (number? n) c
  "Error: " ++ r.message ++
    (if r.causes.isEmpty then "" else "\n\nCaused by:" ++ String.join causes) ++ "\n"

end Report

end StubGen.CommandLine
