import StubGen.Metadata.Decode
import StubGen.Metadata.File
import StubGen.Toml.Read

/-!
# Loading metadata into a registry

A metadata text is decoded as a whole before the first of its declarations is added. If one of them
is refused, those before it stay.

Main results:

* `addText_of_undecodable` — a text that cannot be decoded leaves the registry as it was.
-/

namespace StubGen

/-- The document in a text. -/
def Document.ofText (text : String) : Except DecodeError Document :=
  match Toml.read text with
  | some d => .ok d
  | none => .error .malformed

namespace Registry

/-- The declarations in a text. -/
def declarationsOf (text : String) : Except DecodeError (List Declaration) := do
  Decode.declarations .file (← Document.ofText text)

/-- Adds the declarations in a text, and counts them. -/
def addText (r : Registry) (text : String) : Except TextProblem Nat × Registry :=
  match declarationsOf text with
  | .error e => (.error (.undecodable e), r)
  | .ok ds =>
    let (result, r) := r.insertAll ds
    (match result with
      | .ok () => .ok ds.length
      | .error e => .error (.refused e), r)

/-- Adds the declarations in a file, and counts them. -/
def addFile (r : Registry) (d : Disk) (path : FilePath) : Except FileProblem Nat × Registry :=
  match FileRole.metadata.read d path with
  | .error e => (.error e, r)
  | .ok text =>
    let (result, r) := r.addText text
    (result.mapError (.unusable .metadata path), r)

/-- Adds files up to the first that cannot be used. -/
def addFiles (r : Registry) (d : Disk) : List FilePath → Except FileProblem Registry
  | [] => .ok r
  | p :: ps =>
    match r.addFile d p with
    | (.error e, _) => .error e
    | (.ok _, r) => addFiles r d ps

theorem addText_of_undecodable {r : Registry} {text : String} {e : DecodeError}
    (h : declarationsOf text = .error e) : r.addText text = (.error (.undecodable e), r) := by
  simp [addText, h]

end Registry

end StubGen
