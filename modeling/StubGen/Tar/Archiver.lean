import StubGen.Tar.Header

/-!
# Writing archives

An archive is written entry by entry. The data of an entry is collected while the entry is open,
because its header tells the size, and written when the entry is closed. A name that does not fit
its field comes first as an entry of its own. Two blocks of zeros end the archive.
-/

namespace StubGen.Tar

/-- Why an archive cannot be continued. -/
inductive ArchiveError
  | noOpenEntry
  | stillOpen (path : String)
  | neverClosed (path : String)
  /-- A path is no name; `field` is what was written of it. -/
  | badName (problem : NameProblem) (field : NameField)
deriving DecidableEq, Inhabited

/-- The text of an error. -/
def ArchiveError.message : ArchiveError → String
  | noOpenEntry => "no archive entry is open"
  | stillOpen p => "archive entry " ++ p ++ " is still open"
  | neverClosed p => "archive entry " ++ p ++ " was never closed"
  | badName problem field =>
    problem.message ++ " when setting path for " ++ (Text.ofUtf8? field.text).getD ""

/-! ## Entries as bytes -/

/-- Bytes filled up with zeros to whole blocks. -/
def padded (bytes : List UInt8) : List UInt8 :=
  bytes ++ List.replicate ((blockSize - bytes.length % blockSize) % blockSize) 0

/-- An entry as it stands in an archive. -/
def record (kind : EntryKind) (name : NameField) (data : List UInt8) : List UInt8 :=
  Header.toBytes ⟨name, kind, data.length⟩ ++ padded data

/-- The name of an entry that holds a name. -/
def longNameField : NameField :=
  (NameField.empty.writeParts [.ok (Text.utf8 "././@LongLink")]).2

/-- The entry that holds a name for the entry after it. -/
def longNameRecord (path : FilePath) : List UInt8 :=
  record .longName longNameField (Text.utf8 path.text ++ [0])

/-- The longest start of a text that has at most so many bytes. -/
def cutText (limit : Nat) : List Char → List Char
  | [] => []
  | c :: s =>
    let size := (String.utf8EncodeChar c).length
    if size ≤ limit then c :: cutText (limit - size) s else []

/-- The entry for a path, with the entry for its name if it needs one. -/
def entry (path : FilePath) (data : List UInt8) : Except ArchiveError (List UInt8) :=
  match NameField.empty.writeParts (nameParts false path) with
  | (none, name) => .ok (record .data name data)
  | (some problem, name) =>
    if (Text.utf8 path.text).length < nameSize then .error (.badName problem name)
    else
      -- The header names the start of the path, over what the first attempt has left in the field.
      let start : FilePath := ⟨String.ofList (cutText nameSize path.chars)⟩
      match name.restart.writeParts (nameParts true start) with
      | (none, name) => .ok (longNameRecord path ++ record .data name data)
      | (some problem, name) => .error (.badName problem name)

/-- What ends an archive. -/
def endBlocks : List UInt8 := List.replicate (2 * blockSize) 0

/-! ## The archiver -/

/-- An entry whose data is being collected. -/
structure OpenEntry where
  path : String
  data : List UInt8
deriving DecidableEq, Inhabited

/-- An archive under way. -/
structure Archiver where
  /-- The entry that is open. -/
  current : Option OpenEntry
  /-- The bytes of the closed entries. -/
  output : List UInt8
deriving DecidableEq, Inhabited

namespace Archiver

/-- The archive without entries. -/
def empty : Archiver := ⟨none, []⟩

/-- Opens an entry. -/
def openEntry (a : Archiver) (path : String) : Except ArchiveError Archiver :=
  match a.current with
  | some e => .error (.stillOpen e.path)
  | none => .ok { a with current := some ⟨path, []⟩ }

/-- Adds data to the open entry. -/
def write (a : Archiver) (bytes : List UInt8) : Except ArchiveError Archiver :=
  match a.current with
  | none => .error .noOpenEntry
  | some e => .ok { a with current := some { e with data := e.data ++ bytes } }

/-- Closes the open entry. Even if its path is no name, no entry is open afterwards. -/
def closeEntry (a : Archiver) : Except ArchiveError Unit × Archiver :=
  match a.current with
  | none => (.error .noOpenEntry, a)
  | some e =>
    match entry ⟨e.path⟩ e.data with
    | .error problem => (.error problem, { a with current := none })
    | .ok bytes => (.ok (), ⟨none, a.output ++ bytes⟩)

/-- The bytes of the archive once it is given up or finished; data of an open entry is lost. -/
def bytes (a : Archiver) : List UInt8 := a.output ++ endBlocks

/-- Finishes the archive. -/
def finish (a : Archiver) : Except ArchiveError (List UInt8) :=
  match a.current with
  | some e => .error (.neverClosed e.path)
  | none => .ok a.bytes

end Archiver

end StubGen.Tar
