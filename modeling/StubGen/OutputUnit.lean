import StubGen.ScopedFile
import StubGen.Text.Escape
import StubGen.Text.Utf8

/-!
# Source files under way

A unit is a scoped file that is written text by text, through a buffer. If it is asked to, it spells
characters outside ASCII as escapes. A unit that is not committed is removed again.
-/

namespace StubGen

/-- A file, how far it has been written, and what is to be written next. -/
structure BufferedFile where
  handle : FileHandle
  pending : List UInt8
deriving DecidableEq, Inhabited

namespace BufferedFile

/-- How many bytes wait before they are written. -/
def capacity : Nat := 8192

/-- Writes what is waiting. -/
def flush (b : BufferedFile) (d : Disk) : BufferedFile × Disk :=
  let (h, d) := d.write b.handle b.pending
  (⟨h, []⟩, d)

/-- Adds bytes. What waits is written first if they do not fit, and they do not wait themselves if
they fill the buffer. -/
def write (b : BufferedFile) (bytes : List UInt8) (d : Disk) : BufferedFile × Disk :=
  let (b, d) := if b.pending.length + bytes.length > capacity then b.flush d else (b, d)
  if bytes.length ≥ capacity then
    -- The buffer is empty here, so the order of the bytes is kept.
    let (h, d) := d.write b.handle bytes
    (⟨h, b.pending⟩, d)
  else (⟨b.handle, b.pending ++ bytes⟩, d)

end BufferedFile

/-- A source file under way. -/
structure OutputUnit where
  file : ScopedFile
  buffer : BufferedFile
  /-- Whether characters outside ASCII are escaped. -/
  escapeUnicode : Bool
deriving DecidableEq, Inhabited

namespace OutputUnit

/-- Creates a unit, or truncates the file that is there. -/
def create (path : FilePath) (escapeUnicode : Bool) (s : Session) :
    Except IoError OutputUnit × Session :=
  match ScopedFile.create path s with
  | (.error e, s) => (.error e, s)
  | (.ok (file, handle), s) => (.ok ⟨file, ⟨handle, []⟩, escapeUnicode⟩, s)

/-- The bytes by which a unit writes a text. -/
def encode (escapeUnicode : Bool) (text : String) : List UInt8 :=
  Text.utf8 (if escapeUnicode then String.ofList (Text.escapeNonAscii text.toList) else text)

/-- Writes a text. -/
def write (u : OutputUnit) (text : String) (s : Session) : OutputUnit × Session :=
  let (buffer, d) := u.buffer.write (encode u.escapeUnicode text) s.disk
  ({ u with buffer }, s.withDisk d)

/-- Writes texts one after the other. -/
def writeAll (u : OutputUnit) (texts : List String) (s : Session) : OutputUnit × Session :=
  texts.foldl (fun (u, s) t => u.write t s) (u, s)

/-- Writes what is waiting and keeps the file. -/
def commit (u : OutputUnit) (s : Session) : FilePath × Session :=
  (u.file.path, s.withDisk (u.buffer.flush s.disk).2)

/-- Removes the file. -/
def discard (u : OutputUnit) (s : Session) : Session :=
  u.file.discard (s.withDisk (u.buffer.flush s.disk).2)

end OutputUnit

end StubGen
