import StubGen.CommandLine.Arguments
import StubGen.CommandLine.Report
import StubGen.Inheritance
import StubGen.Program
import StubGen.Registry.Prelude
import StubGen.Settings.Load
import StubGen.Tar.Format

/-!
# Runs of the program

A run reads its arguments, its settings and the metadata, checks the declared types and implements
the ones asked for, in a source tree or packed in an archive. It prints nothing of its own unless it
fails.
-/

namespace StubGen.CommandLine

/-- What the arguments ask for. -/
structure Invocation where
  targets : List String
  types : List FilePath
  output : FilePath
  archive : Option FilePath
  config : Option FilePath
  /-- The settings among the arguments. -/
  layer : Layer
deriving DecidableEq, Inhabited

/-- What arguments ask for. -/
def Arguments.invocation (a : Arguments) : Invocation where
  targets := a.targets
  types := (a.values .types).map FilePath.mk
  output := ⟨(a.value? .output).getD "."⟩
  archive := (a.value? .archive).map FilePath.mk
  config := (a.value? .config).map FilePath.mk
  layer :=
    { implSuffix := a.value? .suffix
      compiler := a.value? .compiler
      classpath := if a.has .classpath then some ((a.values .classpath).map FilePath.mk) else none
      prelude := if a.has .noPrelude then some false else none
      escapeUnicode := if a.has .rawUnicode then some false else none }

/-- Why a run fails. -/
inductive Problem
  | file (p : FileProblem)
  | invalid (p : Inheritance.Invalid)
  /-- An archive was asked for with this number of types. -/
  | targetCount (n : Nat)
  | failed (f : Failure)
deriving DecidableEq, Inhabited

/-- The report of a problem. -/
def Problem.report : Problem → Report
  | file p => ⟨p.message, [p.cause]⟩
  | invalid p => ⟨"Failed to validate type metadata", [p.message]⟩
  | targetCount n => ⟨"--archive packages exactly one type, got " ++ toString n, []⟩
  | failed f => ⟨f.message, f.cause?.toList.map IoError.message⟩

/-- What surrounds a run. -/
structure Environment where
  /-- The variables of the environment. -/
  bindings : List (String × String)
  /-- Where a build directory can be made. -/
  build : FilePath
  /-- The programs that the run can call. -/
  programs : Programs

namespace Invocation

variable (i : Invocation)

/-- The settings of a run. -/
def settings (env : Environment) (d : Disk) : Except FileProblem Settings := do
  return (← Settings.load d env.bindings i.config).apply i.layer

/-- The declared types of a run. -/
def registry (s : Settings) (d : Disk) : Except FileProblem Registry :=
  (if s.prelude then Registry.prelude else .empty).addFiles d i.types

/-- The generator of a run. -/
def generator (env : Environment) (d : Disk) : Except Problem Generator := do
  let settings ← (i.settings env d).mapError .file
  let registry ← (i.registry settings d).mapError .file
  -- Remarks on the registry do not stop the run.
  (Inheritance.validate registry).mapError .invalid
  return ⟨registry, settings⟩

/-- Implements the types that were asked for. -/
def generate (env : Environment) (g : Generator) (s : Session) : Except Problem Unit × Session :=
  let targets := i.targets.map fun n => TypeRef.named ⟨n⟩
  match i.archive, targets with
  | none, ts =>
    let (result, s) := g.implementAll i.output ts s
    ((result.mapError .failed).map fun _ => (), s)
  | some archive, [t] =>
    let compiler := g.settings.externalCompiler env.programs
    let (result, s) := g.implementArchive t archive env.build compiler .tar s
    ((result.mapError .failed).map fun _ => (), s)
  | some _, ts => (.error (.targetCount ts.length), s)

/-- The files that a run may read. -/
def inputs (env : Environment) : List FilePath :=
  (Layer.userFile? env.bindings).toList ++ [Layer.fileName] ++ i.config.toList ++ i.types

/-- The files that a run may write. -/
def outputs (env : Environment) (d : Disk) : List FilePath :=
  match i.generator env d with
  | .error _ => []
  | .ok g =>
    i.archive.toList ++
      (i.targets.filterMap fun n => g.registry.lookup ⟨n⟩).map fun t => g.sourcePath t i.output

/-- Runs an invocation. -/
def run (env : Environment) (s : Session) : Except Problem Unit × Session :=
  match i.generator env s.disk with
  | .error p => (.error p, s)
  | .ok g => i.generate env g s

end Invocation

/-- How a run of the program ended. -/
inductive Outcome
  | succeeded
  | failed (p : Problem)
  | stopped (s : Stop)
deriving DecidableEq, Inhabited

/-- The name and the version of the program. -/
def versionText : String := "implgen 0.8.2\n"

/-- How the program is used. -/
def usageText : String :=
  "Usage: implgen [OPTIONS] --types <FILE> <TYPE>...\n"

namespace Outcome

/-- The exit status for an outcome. -/
def status : Outcome → Nat
  | succeeded | stopped .help | stopped .version => 0
  -- A setting that cannot be meant is no ordinary failure.
  | failed (.failed (.invalidExtension ..)) => 101
  | failed _ => 1
  | stopped .usage => 2

/-- What the program itself prints. -/
def output : Outcome → String
  | stopped .help => usageText
  | stopped .version => versionText
  | _ => ""

/-- What the program itself prints as errors. -/
def errorOutput : Outcome → String
  | failed p => p.report.text
  | stopped .usage => usageText
  | _ => ""

end Outcome

/-- Runs the program: how it ended, and the session with all that was printed. -/
def run (arguments : List String) (env : Environment) (s : Session) : Outcome × Session :=
  let (outcome, s) : Outcome × Session :=
    match Arguments.read arguments with
    | .error stop => (.stopped stop, s)
    | .ok a =>
      match a.invocation.run env s with
      | (.ok (), s) => (.succeeded, s)
      | (.error p, s) => (.failed p, s)
  (outcome,
    { s with
      output := s.output ++ Text.utf8 outcome.output
      errorOutput := s.errorOutput ++ Text.utf8 outcome.errorOutput })

end StubGen.CommandLine
