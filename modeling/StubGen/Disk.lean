import StubGen.IoError
import StubGen.Text.Utf8

/-!
# The file system

A disk is a tree of directories and files, kept as the list of what stands at each location. A file
carries a serial number, by which a handle finds it again: what is written through a handle reaches
the file even after it has been truncated by someone else, and reaches nothing once the file has
been removed.

Paths are walked segment by segment from the root or the working directory, and every operation
fails for the reasons, and in the order, that the operating system has.

Main results:

* `get?_put`, `get?_erase` — changing one location leaves every other as it was;
* `overlay_end` — writing at the end appends.
-/

namespace StubGen

/-- The names on the way from the root. -/
abbrev Location := List String

/-- What stands at a location. -/
inductive Entry
  | directory
  | file (serial : Nat) (bytes : List UInt8)
deriving DecidableEq, Inhabited

/-- The file system as one process sees it. -/
structure Disk where
  entries : List (Location × Entry)
  /-- The serial number of the next new file. -/
  nextSerial : Nat
  workingDirectory : Location
deriving DecidableEq, Inhabited

/-- An open file, and how far it has been written. -/
structure FileHandle where
  serial : Nat
  position : Nat
deriving DecidableEq, Inhabited

namespace Disk

/-- The disk that holds the root directory alone. -/
def empty : Disk := ⟨[], 0, []⟩

/-- What stands at a location; the root is always a directory. -/
def get? (d : Disk) (l : Location) : Option Entry :=
  if l = [] then some .directory else d.entries.lookup l

/-- The entries with `e` in place of what stood at a location, or at the end. -/
def putIn (l : Location) (e : Entry) : List (Location × Entry) → List (Location × Entry)
  | [] => [(l, e)]
  | (k, v) :: es => if k = l then (l, e) :: es else (k, v) :: putIn l e es

/-- Puts an entry at a location. -/
def put (d : Disk) (l : Location) (e : Entry) : Disk := { d with entries := putIn l e d.entries }

/-- Removes the entry of a location. -/
def erase (d : Disk) (l : Location) : Disk :=
  { d with entries := d.entries.filter fun x => x.1 ≠ l }

/-- Removes a location with everything below it. -/
def eraseTree (d : Disk) (l : Location) : Disk :=
  { d with entries := d.entries.filter fun x => !l.isPrefixOf x.1 }

/-- Whether a directory has entries. -/
def hasChildren (d : Disk) (l : Location) : Bool :=
  d.entries.any fun x => x.1 != l && l.isPrefixOf x.1

/-! ## Finding locations -/

/-- The longest name of a file, in bytes. -/
def nameLimit : Nat := 255

/-- The longest path, in bytes. -/
def pathLimit : Nat := 4095

/-- Follows one segment of a path. -/
def enter (d : Disk) (l : Location) (segment : String) : Except IoError Location :=
  if d.get? l ≠ some .directory then .error (.os .notADirectory)
  else if segment = "." then .ok l
  else if segment = ".." then .ok l.dropLast
  else if segment.utf8ByteSize > nameLimit then .error (.os .nameTooLong)
  else if (d.get? (l ++ [segment])).isNone then .error (.os .notFound)
  else .ok (l ++ [segment])

/-- Follows segments one after the other. -/
def walk (d : Disk) (l : Location) (segments : List String) : Except IoError Location :=
  segments.foldlM d.enter l

/-- Where a path starts. -/
def start (d : Disk) (p : FilePath) : Location :=
  if p.isAbsolute then [] else d.workingDirectory

/-- Refuses what is no path at all. -/
def checkPath (p : FilePath) : Except IoError Unit :=
  if p.chars.contains '\x00' then .error .nulInPath
  else if p.isEmpty then .error (.os .notFound)
  else if p.text.utf8ByteSize > pathLimit then .error (.os .nameTooLong)
  else .ok ()

/-- The location of an existing file or directory. -/
def locate (d : Disk) (p : FilePath) : Except IoError Location := do
  checkPath p
  let l ← d.walk (d.start p) p.segments
  if p.endsWithSlash ∧ d.get? l ≠ some .directory then throw (.os .notADirectory)
  return l

/-- A place in a directory, whether anything stands there or not. -/
structure Slot where
  directory : Location
  /-- The last segment, unless it is one that names a directory by itself. -/
  name? : Option String
  /-- Whether a separator follows the name. -/
  hasSlash : Bool

/-- The place that a path leads to. -/
def slot (d : Disk) (p : FilePath) : Except IoError Slot := do
  checkPath p
  match p.segments.reverse with
  | [] => return ⟨[], none, true⟩
  | last :: before =>
    let l ← d.walk (d.start p) before.reverse
    if d.get? l ≠ some .directory then throw (.os .notADirectory)
    return ⟨l, if last = "." ∨ last = ".." then none else some last, p.endsWithSlash⟩

/-- The location of a name in a directory. -/
def child (l : Location) (name : String) : Except IoError Location :=
  if name.utf8ByteSize > nameLimit then .error (.os .nameTooLong) else .ok (l ++ [name])

/-- What a path leads to. -/
def find? (d : Disk) (p : FilePath) : Option Entry :=
  match d.locate p with
  | .ok l => d.get? l
  | .error _ => none

def pathExists (d : Disk) (p : FilePath) : Bool := (d.find? p).isSome

def isDirectory (d : Disk) (p : FilePath) : Bool := d.find? p == some .directory

def isFile (d : Disk) (p : FilePath) : Bool :=
  match d.find? p with
  | some (.file ..) => true
  | _ => false

/-! ## Files -/

/-- Opens a file for writing: an existing file is truncated, a missing one created. -/
def createFile (d : Disk) (p : FilePath) : Except IoError (FileHandle × Disk) := do
  let s ← d.slot p
  match s.name? with
  | none => throw (.os .isADirectory)
  | some name =>
    -- A name with a separator after it asks for a directory, whether one is there or not.
    if s.hasSlash then throw (.os .isADirectory)
    let l ← child s.directory name
    match d.get? l with
    | some .directory => throw (.os .isADirectory)
    -- The number stays, so handles opened before see the truncated file.
    | some (.file serial _) => return (⟨serial, 0⟩, d.put l (.file serial []))
    | none =>
      return (⟨d.nextSerial, 0⟩,
        { d.put l (.file d.nextSerial []) with nextSerial := d.nextSerial + 1 })

/-- The bytes with `new` in place of what stood from `position` on; a gap before it is filled with
zeros. -/
def overlay (old : List UInt8) (position : Nat) (new : List UInt8) : List UInt8 :=
  if new.isEmpty then old
  else
    old.take position ++ List.replicate (position - old.length) 0 ++ new ++
      old.drop (position + new.length)

/-- An entry after bytes were written to the file of a handle. -/
def writeEntry (h : FileHandle) (bytes : List UInt8) : Entry → Entry
  | .directory => .directory
  | .file serial old =>
    if serial = h.serial then .file serial (overlay old h.position bytes) else .file serial old

/-- Writes bytes where a handle stands. -/
def write (d : Disk) (h : FileHandle) (bytes : List UInt8) : FileHandle × Disk :=
  (⟨h.serial, h.position + bytes.length⟩,
    { d with entries := d.entries.map fun x => (x.1, writeEntry h bytes x.2) })

/-- Opens a file for reading. Reading it may still fail, because a directory can be opened. -/
def openFile (d : Disk) (p : FilePath) : Except IoError (Except IoError (List UInt8)) := do
  match d.get? (← d.locate p) with
  | some (.file _ bytes) => return .ok bytes
  | some .directory => return .error (.os .isADirectory)
  | none => throw (.os .notFound)

/-- The bytes of a file. -/
def readBytes (d : Disk) (p : FilePath) : Except IoError (List UInt8) := do
  (← d.openFile p)

/-- The text of a file. -/
def readText (d : Disk) (p : FilePath) : Except IoError String := do
  match Text.ofUtf8? (← d.readBytes p) with
  | some t => return t
  | none => throw .notText

/-- Removes a file. -/
def removeFile (d : Disk) (p : FilePath) : Except IoError Disk := do
  let s ← d.slot p
  match s.name? with
  | none => throw (.os .isADirectory)
  | some name =>
    let l ← child s.directory name
    match d.get? l with
    | none => throw (.os .notFound)
    | some .directory => throw (.os .isADirectory)
    | some (.file ..) => if s.hasSlash then throw (.os .notADirectory) else return d.erase l

/-! ## Directories -/

/-- Makes a directory. -/
def makeDirectory (d : Disk) (p : FilePath) : Except IoError Disk := do
  let s ← d.slot p
  match s.name? with
  | none => throw (.os .alreadyExists)
  | some name =>
    let l ← child s.directory name
    match d.get? l with
    | some _ => throw (.os .alreadyExists)
    | none => return d.put l .directory

/-- Makes the first of the given directories. If what should hold it is missing, the rest of the
list, from the inside out, is made first. -/
def makeDirectories : List FilePath → Disk → Except IoError Unit × Disk
  | [], d => (.ok (), d)
  | p :: outer, d =>
    let settle (e : IoError) (d : Disk) : Except IoError Unit × Disk :=
      if e = .os .alreadyExists ∧ d.isDirectory p then (.ok (), d) else (.error e, d)
    if p.isEmpty then (.ok (), d)
    else
      match d.makeDirectory p with
      | .ok d => (.ok (), d)
      | .error (.os .notFound) =>
        -- What holds the directory is missing; directories made on the way stay on failure.
        match makeDirectories outer d with
        | (.error e, d) => (.error e, d)
        | (.ok (), d) =>
          match d.makeDirectory p with
          | .ok d => (.ok (), d)
          | .error e => settle e d
      | .error e => settle e d

/-- Makes a directory with everything that should hold it. -/
def makeDirectoryTree (d : Disk) (p : FilePath) : Except IoError Unit × Disk :=
  makeDirectories (p :: p.ancestors) d

/-- Removes an empty directory. -/
def removeDirectory (d : Disk) (p : FilePath) : Except IoError Disk := do
  let s ← d.slot p
  match s.name? with
  | none => throw (.os .invalidArgument)
  | some name =>
    let l ← child s.directory name
    match d.get? l with
    | none => throw (.os .notFound)
    | some (.file ..) => throw (.os .notADirectory)
    | some .directory => if d.hasChildren l then throw (.os .notEmpty) else return d.erase l

/-- Removes a directory with everything in it. -/
def removeTree (d : Disk) (p : FilePath) : Except IoError Disk := do
  let l ← d.locate p
  if d.get? l = some .directory then return d.eraseTree l
  else throw (.os .notADirectory)

/-! ## One location at a time -/

theorem lookup_filter_ne {l m : Location} (h : m ≠ l) (es : List (Location × Entry)) :
    (es.filter fun x => x.1 ≠ l).lookup m = es.lookup m := by
  induction es with
  | nil => rfl
  | cons e es ih =>
    obtain ⟨k, v⟩ := e
    by_cases hk : k = l
    · subst hk
      have hb : (m == k) = false := by simpa using h
      rw [List.filter_cons_of_neg (by simp), ih, List.lookup_cons, hb]
    · rw [List.filter_cons_of_pos (by simpa using hk), List.lookup_cons, List.lookup_cons, ih]

theorem lookup_filter_self (l : Location) (es : List (Location × Entry)) :
    (es.filter fun x => x.1 ≠ l).lookup l = none := by
  induction es with
  | nil => rfl
  | cons e es ih =>
    obtain ⟨k, v⟩ := e
    by_cases hk : k = l
    · rw [List.filter_cons_of_neg (by simpa using hk), ih]
    · have hb : (l == k) = false := by simpa using Ne.symm hk
      rw [List.filter_cons_of_pos (by simpa using hk), List.lookup_cons, hb, ih]

/-- What is put in is found at its place, and all other places are as before. -/
theorem lookup_putIn (l m : Location) (e : Entry) (es : List (Location × Entry)) :
    (putIn l e es).lookup m = if m = l then some e else es.lookup m := by
  induction es with
  | nil =>
    by_cases h : m = l
    · simp [putIn, h]
    · have hb : (m == l) = false := by simpa using h
      simp [putIn, List.lookup_cons, hb, h]
  | cons x es ih =>
    obtain ⟨k, v⟩ := x
    by_cases hk : k = l
    · subst hk
      by_cases h : m = k
      · simp [putIn, h]
      · have hb : (m == k) = false := by simpa using h
        simp [putIn, List.lookup_cons, hb, h]
    · by_cases hmk : m = k
      · subst hmk
        simp [putIn, hk]
      · have hb : (m == k) = false := by simpa using hmk
        simp [putIn, hk, List.lookup_cons, hb, ih]

theorem get?_put (d : Disk) (l m : Location) (e : Entry) :
    (d.put l e).get? m = if m = [] then some .directory else if m = l then some e
      else d.get? m := by
  by_cases hm : m = []
  · simp [get?, hm]
  · simp only [get?, put, hm, if_false, lookup_putIn]

theorem get?_erase (d : Disk) (l m : Location) :
    (d.erase l).get? m = if m = [] then some .directory else if m = l then none
      else d.get? m := by
  by_cases hm : m = []
  · simp [get?, hm]
  · by_cases hml : m = l
    · subst hml
      simp only [get?, erase, hm, if_false, if_true, lookup_filter_self]
    · simp only [get?, erase, hm, hml, if_false, lookup_filter_ne hml]

theorem overlay_end (old new : List UInt8) : overlay old old.length new = old ++ new := by
  cases new with
  | nil => simp [overlay]
  | cons b new => simp [overlay]

end Disk

end StubGen
