import StubGen.CommandLine
import StubGen.Shell

/-!
# The program

Brings the files that a run may touch onto a disk of its own, runs there, and carries out what has
changed.
-/

namespace StubGen.CommandLine

/-- The absolute path of a location. -/
def absolute (l : Location) : String := "/" ++ "/".intercalate l

/-- What stands at a location: what cannot be read as a file counts as a directory. -/
def probe (l : Location) : IO (Option (Option (List UInt8))) := do
  try
    return some (some (← IO.FS.readBinFile (absolute l)).toList)
  catch
    | .noFileOrDirectory .. => return none
    | _ => return some none

/-- Brings everything on the way along a path onto the disk. -/
def fetch (disk : Disk) (p : FilePath) : IO Disk := do
  let mut d := disk
  let mut l := d.start p
  for segment in p.segments do
    if segment == ".." then l := l.dropLast
    else if segment != "." then
      l := l ++ [segment]
      if (d.get? l).isNone then
        match ← probe l with
        | none => return d
        | some none => d := d.put l .directory
        | some (some bytes) =>
          d := { d.put l (.file d.nextSerial bytes) with nextSerial := d.nextSerial + 1 }
  return d

/-- Brings everything on the way along paths onto the disk. -/
def fetchAll (d : Disk) (ps : List FilePath) : IO Disk := ps.foldlM fetch d

/-- Carries out what distinguishes one disk from the one before. -/
def carryOut (before after : Disk) : IO Unit := do
  for (l, e) in before.entries.reverse do
    if (after.get? l).isNone then
      match e with
      | .directory => IO.FS.removeDir (absolute l)
      | .file .. => IO.FS.removeFile (absolute l)
  for (l, e) in after.entries do
    if before.get? l ≠ some e then
      match e with
      | .directory => IO.FS.createDir (absolute l)
      | .file _ bytes => IO.FS.writeBinFile (absolute l) ⟨bytes.toArray⟩

/-- The variables that a run depends on. -/
def variableNames : List String :=
  ["HOME", "XDG_CONFIG_HOME", Layer.compilerVariable, Layer.classpathVariable]

/-- The environment of the program. -/
def environment : IO Environment := do
  let bindings ← variableNames.filterMapM fun x => do return (← IO.getEnv x).map fun v => (x, v)
  let temporary := (← IO.getEnv "TMPDIR").getD "/tmp"
  return ⟨bindings, FilePath.join ⟨temporary⟩ ⟨"implgen-build"⟩, Shell.programs bindings⟩

/-- The disk with everything that a run may touch. -/
def startDisk (arguments : List String) (env : Environment) : IO Disk := do
  let here : FilePath := ⟨(← IO.getEnv "PWD").getD "/"⟩
  let d ← fetchAll .empty (here :: env.build.parent?.toList)
  let d := { d with workingDirectory := here.segments }
  match Arguments.read arguments with
  | .error _ => return d
  | .ok a =>
    let d ← fetchAll d (a.invocation.inputs env)
    fetchAll d (a.invocation.outputs env d)

end StubGen.CommandLine

open StubGen in
def main (arguments : List String) : IO UInt32 := do
  let env ← CommandLine.environment
  let before ← CommandLine.startDisk arguments env
  let (outcome, s) := CommandLine.run arguments env { disk := before }
  CommandLine.carryOut before s.disk
  (← IO.getStdout).write ⟨s.output.toArray⟩
  (← IO.getStderr).write ⟨s.errorOutput.toArray⟩
  return UInt32.ofNat outcome.status
