import StubGen.Packaging
import StubGen.Tar.Archiver

/-!
# Tar as a format of archives

The archiver on a file: what it puts out is written to the file as it goes.
-/

namespace StubGen

namespace Tar

/-- An archive under way in a file: how far the file has been written, and the archiver, whose own
output is taken from it each time. -/
structure OpenArchive where
  handle : FileHandle
  archiver : Archiver
deriving DecidableEq, Inhabited

namespace OpenArchive

/-- Writes what the archiver has put out. -/
def drain (a : OpenArchive) (d : Disk) : OpenArchive × Disk :=
  let (h, d) := d.write a.handle a.archiver.output
  (⟨h, { a.archiver with output := [] }⟩, d)

/-- An archive that is continued, or the reason why it cannot be. -/
def continued (a : OpenArchive) (r : Except ArchiveError Archiver) (d : Disk) :
    Except IoError OpenArchive × Disk :=
  match r with
  | .error e => (.error (.other e.message), d)
  | .ok archiver =>
    let (a, d) := drain { a with archiver } d
    (.ok a, d)

/-- Ends the archive. -/
def finish (a : OpenArchive) (d : Disk) : Except IoError Unit × Disk :=
  match a.archiver.finish with
  | .error e => (.error (.other e.message), d)
  | .ok bytes => (.ok (), (d.write a.handle bytes).2)

end OpenArchive

end Tar

/-- Uncompressed tar archives. -/
def ArchiveFormat.tar : ArchiveFormat where
  State := Tar.OpenArchive
  openArchive h d := (.ok ⟨h, .empty⟩, d)
  openEntry path a d := a.continued (a.archiver.openEntry path) d
  write bytes a d := a.continued (a.archiver.write bytes) d
  closeEntry a d :=
    let (result, archiver) := a.archiver.closeEntry
    a.continued (result.map fun _ => archiver) d
  finish a d := a.finish d

end StubGen
