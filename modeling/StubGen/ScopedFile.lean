import StubGen.Session

/-!
# Files that go unless they are kept

A scoped file is created together with the directories it needs. Until it is kept it can be
discarded, and then takes with it those directories, from the inside out, as far as they are empty.
Creation that fails discards at once, so that no directory is left behind for a file that never came
to be.
-/

namespace StubGen

/-- A file that was created and may yet be discarded. -/
structure ScopedFile where
  path : FilePath
  /-- The directories made for the file, innermost first. -/
  madeDirectories : List FilePath
deriving DecidableEq, Inhabited

namespace ScopedFile

/-- The directories above a path that are not there, innermost first. -/
def missingDirectories (d : Disk) (path : FilePath) : List FilePath :=
  path.ancestors.takeWhile fun a => !a.isEmpty && !d.pathExists a

/-- Removes directories one after the other, up to the first that cannot be removed. -/
def removeDirectories : List FilePath → Disk → Disk
  | [], d => d
  | p :: ps, d =>
    match d.removeDirectory p with
    | .ok d => removeDirectories ps d
    | .error _ => d

/-- Removes a file if it is there. -/
def removeIfPresent (path : FilePath) (s : Session) : Session :=
  match s.disk.removeFile path with
  | .ok d => s.withDisk d
  | .error (.os .notFound) => s
  | .error e => s.warn (.notRemoved path e)

/-- Removes the file and the directories made for it. -/
def discard (f : ScopedFile) (s : Session) : Session :=
  let s := removeIfPresent f.path s
  s.withDisk (removeDirectories f.madeDirectories s.disk)

/-- Makes the directory that holds a path. -/
def makeParent (path : FilePath) (d : Disk) : Except IoError Unit × Disk :=
  match path.parent? with
  | none => (.ok (), d)
  | some p => if p.isEmpty then (.ok (), d) else d.makeDirectoryTree p

/-- Creates a file, or truncates it, with the directories it needs. -/
def create (path : FilePath) (s : Session) : Except IoError (ScopedFile × FileHandle) × Session :=
  -- What is missing is noted before anything is made, so that a failure half-way can be undone.
  let f : ScopedFile := ⟨path, missingDirectories s.disk path⟩
  match makeParent path s.disk with
  | (.error e, d) => (.error e, f.discard (s.withDisk d))
  | (.ok (), d) =>
    match d.createFile path with
    | .error e => (.error e, f.discard (s.withDisk d))
    | .ok (h, d) => (.ok (f, h), s.withDisk d)

end ScopedFile

end StubGen
