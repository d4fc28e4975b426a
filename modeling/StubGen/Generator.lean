import StubGen.Closure
import StubGen.OutputUnit
import StubGen.Settings
import StubGen.Stub

/-!
# Generating implementations

A generator implements declared types: it checks that a type can be implemented, resolves the
members of the implementation, and only then touches the disk. The source file stays only if it was
written to its end.
-/

namespace StubGen

/-- What implementations are generated from. -/
structure Generator where
  registry : Registry
  settings : Settings

namespace Generator

variable (g : Generator)

/-! ## Targets -/

/-- How a failure spells a type that was to be implemented. -/
def spelling : TypeRef → String
  | .named n => n.canonical
  | .array c => spelling c ++ "[]"
  | .var v => v.name
  | .wildcard .. => "?"
  | .parameterized raw _ => raw.canonical

/-- The declaration of a name, if it can be implemented. -/
def checkName (n : BinaryName) : Except Refusal Declaration :=
  if n.isEmpty then .error .emptyName
  else if n.isPrimitive then .error .primitiveType
  else
    match g.registry.lookup n with
    | none => .error .unknownType
    | some d =>
      if d.kind = .enum ∨ n = .enum then .error .enumType
      else if !d.isInterface && d.modifiers.isFinal then .error .finalClass
      else if d.modifiers.isPrivate then .error .privateMember
      else .ok d

/-- The declaration that a reference names, if it can be implemented. -/
def check : TypeRef → Except Refusal Declaration
  | .named n => g.checkName n
  | .array _ => .error .arrayType
  | _ => .error .notAType

/-- The declaration to implement for a reference. -/
def target (t : TypeRef) : Except Failure Declaration :=
  (g.check t).mapError (.invalidTarget (spelling t))

/-! ## Names and places -/

/-- The name of the implementation of a type. -/
def implementationName (d : Declaration) : String := d.name.simpleName ++ g.settings.implSuffix

/-- The directories of a package. -/
def packageSegments (package : String) : List FilePath :=
  if package.isEmpty then []
  else (Text.pieces '.' package.toList).map fun p => ⟨String.ofList p⟩

/-- The source file of the implementation of a type. -/
def sourcePath (d : Declaration) (root : FilePath) : FilePath :=
  ((packageSegments d.package).foldl FilePath.join root).join
    ⟨g.implementationName d ++ "." ++ g.settings.sourceExtension⟩

/-- The archive entry of the compiled implementation of a type. -/
def archiveEntry (d : Declaration) : String :=
  let name := g.implementationName d ++ "." ++ g.settings.compiledExtension
  if d.package.isEmpty then name
  else String.ofList (d.package.toList.map fun c => if c = '.' then '/' else c) ++ "/" ++ name

/-! ## Writing -/

/-- The bindings under which a type is implemented. -/
def substitution (d : Declaration) : Substitution := Closure.substitution g.registry d

/-- The implementation of a type, not yet written. -/
def stub (d : Declaration) : Stub :=
  ⟨d, ⟨g.registry, g.substitution d⟩, g.settings.implSuffix⟩

/-- The members of the implementation of a type. -/
def members (d : Declaration) : Except SynthesisFault Members :=
  Members.resolve g.registry (g.substitution d) d

/-- Writes pieces into a unit, which is kept if all of them can be written. -/
def writeUnit (path : FilePath) (pieces : List (Except SynthesisFault String)) (s : Session) :
    Except SynthesisFault FilePath × Session :=
  match OutputUnit.create path g.settings.escapeUnicode s with
  | (.error e, s) => (.error (.io e), s)
  | (.ok u, s) =>
    -- The pieces before a fault are written too; discarding the unit takes them back.
    let (texts, fault?) := Stub.takePieces pieces
    let (u, s) := u.writeAll texts s
    match fault? with
    | some e => (.error e, u.discard s)
    | none =>
      let (path, s) := u.commit s
      (.ok path, s)

/-- Warns of the supertypes on the way from a type that are neither class nor interface. -/
def warnMalformed (d : Declaration) (s : Session) : Session :=
  (Closure.malformed g.registry d).foldl (fun s (t, n) => s.warn (.malformedSupertype t n)) s

/-- Writes the implementation of a declared type. -/
def writeStub (d : Declaration) (root : FilePath) (s : Session) :
    Except SynthesisFault FilePath × Session :=
  let s := g.warnMalformed d s
  match g.members d with
  | .error e => (.error e, s)
  | .ok ms => g.writeUnit (g.sourcePath d root) ((g.stub d).pieces ms) s

/-- Implements a type in a source tree. -/
def implement (t : TypeRef) (root : FilePath) (s : Session) : Except Failure FilePath × Session :=
  match g.target t with
  | .error e => (.error e, s)
  | .ok d =>
    let (result, s) := g.writeStub d root s
    (result.mapError (·.toFailure d.name), s)

/-- Implements types one after the other, up to the first that fails. -/
def implementAll (root : FilePath) :
    List TypeRef → Session → Except Failure (List FilePath) × Session
  | [], s => (.ok [], s)
  | t :: ts, s =>
    match g.implement t root s with
    | (.error e, s) => (.error e, s)
    | (.ok p, s) =>
      match implementAll root ts s with
      | (.error e, s) => (.error e, s)
      | (.ok ps, s) => (.ok (p :: ps), s)

end Generator

end StubGen
