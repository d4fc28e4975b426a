import StubGen.Generator

/-!
# Packaging implementations

An implementation is packaged in three steps: its source is written to a build directory, compiled
there, and the compiled unit copied into an archive. The compiler and the format of the archive are
parameters. An archive that could not be completed is removed, and so is the build directory in any
case.
-/

namespace StubGen

/-- What compiles a source file in its place. It answers with the exit status, or with the reason
why nothing could be run. -/
structure Compiler where
  compile : (source : FilePath) → (classpath : List FilePath) → Session →
    Except IoError Int × Session

/-- A format of archives: how one is opened on a file, filled with entries and finished. -/
structure ArchiveFormat where
  /-- An archive under way. -/
  State : Type
  openArchive : FileHandle → Disk → Except IoError State × Disk
  openEntry : (path : String) → State → Disk → Except IoError State × Disk
  write : (bytes : List UInt8) → State → Disk → Except IoError State × Disk
  closeEntry : State → Disk → Except IoError State × Disk
  finish : State → Disk → Except IoError Unit × Disk

/-- What to compile, and where the result goes. -/
structure PackageJob where
  target : BinaryName
  source : FilePath
  /-- Where the compiler leaves the compiled unit. -/
  compiled : FilePath
  classpath : List FilePath
  /-- The name of the archive entry. -/
  entry : String
  archive : FilePath
deriving DecidableEq, Inhabited

namespace ArchiveFormat

variable (format : ArchiveFormat)

/-- How many bytes are copied at a time. -/
def chunkSize : Nat := 8192

/-- Bytes in pieces of at most `size`; `limit` bounds how many. -/
def chunks (size : Nat) : (limit : Nat) → List UInt8 → List (List UInt8)
  | 0, _ | _, [] => []
  | limit + 1, bytes => bytes.take size :: chunks size limit (bytes.drop size)

/-- Writes pieces into the open entry. -/
def writeChunks : List (List UInt8) → format.State → Disk → Except IoError format.State × Disk
  | [], st, d => (.ok st, d)
  | c :: cs, st, d =>
    match format.write c st d with
    | (.error e, d) => (.error e, d)
    | (.ok st, d) => writeChunks cs st d

/-- Copies a file that was opened into the open entry. -/
def copyContent (content : Except IoError (List UInt8)) (st : format.State) (d : Disk) :
    Except IoError format.State × Disk :=
  match content with
  | .error e => (.error e, d)
  | .ok bytes => format.writeChunks (chunks chunkSize bytes.length bytes) st d

/-- Goes on with the next step if the one before succeeded. -/
def andThen {α β : Type} (step : Except IoError α × Disk)
    (next : α → Disk → Except IoError β × Disk) : Except IoError β × Disk :=
  match step with
  | (.error e, d) => (.error e, d)
  | (.ok a, d) => next a d

/-- Writes an archive whose only entry is the given file. -/
def archiveFile (h : FileHandle) (entry : String) (file : FilePath) (d : Disk) :
    Except IoError Unit × Disk :=
  match d.openFile file with
  | .error e => (.error e, d)
  | .ok content =>
    andThen (andThen (andThen (andThen (format.openArchive h d) (format.openEntry entry))
      (format.copyContent content)) format.closeEntry) format.finish

end ArchiveFormat

namespace PackageJob

variable (job : PackageJob)

/-- Writes the archive; it is removed again if that fails. -/
def archiveCompiled (format : ArchiveFormat) (s : Session) : Except IoError FilePath × Session :=
  match ScopedFile.create job.archive s with
  | (.error e, s) => (.error e, s)
  | (.ok (file, handle), s) =>
    match format.archiveFile handle job.entry job.compiled s.disk with
    | (.ok (), d) => (.ok file.path, s.withDisk d)
    | (.error e, d) => (.error e, file.discard (s.withDisk d))

/-- Compiles the source and archives the result. -/
def run (compiler : Compiler) (format : ArchiveFormat) (s : Session) :
    Except Failure FilePath × Session :=
  let typeName := job.target.canonical
  match compiler.compile job.source job.classpath s with
  | (.error e, s) => (.error (.compilationFailed typeName (.notRun e)), s)
  | (.ok code, s) =>
    if code ≠ 0 then (.error (.compilationFailed typeName (.exitStatus code)), s)
    else
      let (result, s) := job.archiveCompiled format s
      (result.mapError (.packagingFailed typeName), s)

end PackageJob

/-! ## Classpaths -/

namespace Classpath

/-- The list with a path at its end, unless it has one that is the same. -/
def add (ps : List FilePath) (p : FilePath) : List FilePath :=
  if ps.any p.same then ps else ps ++ [p]

/-- The list with paths added one after the other. -/
def addAll (ps qs : List FilePath) : List FilePath := qs.foldl add ps

/-- The entries that a type and its ancestors declare. -/
def declared (r : Registry) (target : Declaration) : List FilePath :=
  addAll [] ((Hierarchy.visited r (fun d => d.supertypes.reverse) target).filterMap (·.classpath))

/-- The text of a classpath for a program, unless an entry holds the separator. -/
def text (ps : List FilePath) : Except IoError String :=
  if ps.any fun p => p.chars.contains ':' then .error .separatorInEntry
  else .ok (":".intercalate (ps.map FilePath.text))

end Classpath

namespace Generator

variable (g : Generator)

/-- The classpath for compiling the implementation of a type in a build directory. -/
def classpath (d : Declaration) (build : FilePath) : List FilePath :=
  Classpath.addAll (build :: g.settings.classpath) (Classpath.declared g.registry d)

/-- The job of packaging the implementation of a type, of which the source is written. -/
def packageJob (d : Declaration) (build source archive : FilePath) : PackageJob where
  target := d.name
  source := source
  compiled := source.withExtension g.settings.compiledExtension
  classpath := g.classpath d build
  entry := g.archiveEntry d
  archive := archive

/-- Implements a type in a build directory and packages the implementation. -/
def packageIn (build : FilePath) (t : TypeRef) (d : Declaration) (archive : FilePath)
    (compiler : Compiler) (format : ArchiveFormat) (s : Session) :
    Except Failure FilePath × Session :=
  match g.implement t build s with
  | (.error e, s) => (.error e, s)
  | (.ok source, s) =>
    let extension := g.settings.compiledExtension
    -- A separator would lead out of the directory that the source is in.
    if extension.toList.contains '/' then
      (.error (.invalidExtension d.name.canonical extension), s)
    else (g.packageJob d build source archive).run compiler format s

/-- Removes the build directory. -/
def removeBuild (build : FilePath) (s : Session) : Session :=
  match s.disk.removeTree build with
  | .ok d => s.withDisk d
  | .error e => s.warn (.buildLeft build (.atPath e build))

/-- Implements a type, compiles the implementation and stores it in an archive. The build directory
must be a new one. -/
def implementArchive (t : TypeRef) (archive build : FilePath) (compiler : Compiler)
    (format : ArchiveFormat) (s : Session) : Except Failure FilePath × Session :=
  match g.target t with
  | .error e => (.error e, s)
  | .ok d =>
    match s.disk.makeDirectory build with
    | .error e => (.error (.ioFailure d.name.canonical (.atPath e build)), s)
    | .ok disk =>
      let (result, s) := g.packageIn build t d archive compiler format (s.withDisk disk)
      -- The build directory goes whether the package was made or not.
      (result, removeBuild build s)

end Generator

end StubGen
