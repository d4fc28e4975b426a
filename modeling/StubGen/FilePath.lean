import StubGen.Text.Split

/-!
# File paths

A path is kept as the text it was written with, because messages show it that way. Two readings of
the text matter: its *components*, which ignore repeated separators and inner `.` and decide when
two paths are the same and what a path's parent is, and its *segments*, the names between
separators exactly as they stand, which a file system walks one after the other.
-/

namespace StubGen

/-- A path as it was written. -/
structure FilePath where
  text : String
deriving DecidableEq, Inhabited

/-- A part of a path that has a meaning of its own. -/
inductive PathComponent
  /-- The leading separator of an absolute path. -/
  | root
  /-- A leading `.`. -/
  | current
  /-- A `..`. -/
  | parent
  | name (text : String)
deriving DecidableEq, Inhabited

namespace PathComponent

/-- The component as it is written between separators. -/
def text : PathComponent → String
  | root => ""
  | current => "."
  | parent => ".."
  | name s => s

end PathComponent

namespace FilePath

/-- The characters of a path. -/
def chars (p : FilePath) : List Char := p.text.toList

def isEmpty (p : FilePath) : Bool := p.text == ""

def isAbsolute (p : FilePath) : Bool := p.chars.head? == some '/'

def endsWithSlash (p : FilePath) : Bool := p.chars.getLast? == some '/'

/-- The names between separators, `.` and `..` included. -/
def segments (p : FilePath) : List String :=
  ((Text.pieces '/' p.chars).filter (!·.isEmpty)).map String.ofList

/-- The components of a path. -/
def components (p : FilePath) : List PathComponent :=
  let start :=
    if p.isAbsolute then [.root]
    else if p.segments.head? == some "." then [.current]
    else []
  start ++ (p.segments.filter (· != ".")).map fun s => if s == ".." then .parent else .name s

/-- The path with the given components. -/
def ofComponents : List PathComponent → FilePath
  | .root :: cs => ⟨"/" ++ "/".intercalate (cs.map PathComponent.text)⟩
  | cs => ⟨"/".intercalate (cs.map PathComponent.text)⟩

/-- Two paths are the same if their components are. -/
def same (p q : FilePath) : Bool := p.components == q.components

/-- The directories above the last component, from the inside out. A relative path ends in the
empty path and an absolute one in the root. -/
def ancestors (p : FilePath) : List FilePath :=
  let rec above : List PathComponent → List FilePath
    | [] | [.root] => []
    | _ :: cs => ofComponents cs.reverse :: above cs
  above p.components.reverse

/-- The directory that holds the last component. -/
def parent? (p : FilePath) : Option FilePath := p.ancestors.head?

/-- The path with `q` appended after a separator; an absolute `q` takes its place. -/
def join (p q : FilePath) : FilePath :=
  if q.isAbsolute then q
  else if p.isEmpty || p.endsWithSlash then ⟨p.text ++ q.text⟩
  else ⟨p.text ++ "/" ++ q.text⟩

/-- The last component, if it is a name. -/
def fileName? (p : FilePath) : Option String :=
  match p.components.getLast? with
  | some (.name s) => some s
  | _ => none

/-- A file name cut at its last `.`; a name whose only `.` comes first has no extension. -/
def splitExtension (name : String) : String × Option String :=
  match Text.splitLast? '.' name.toList with
  | none | some ([], _) => (name, none)
  | some (stem, extension) => (String.ofList stem, some (String.ofList extension))

/-- What follows the last `.` of the file name. -/
def extension? (p : FilePath) : Option String := p.fileName?.bind fun n => (splitExtension n).2

/-- A text without the separators and `.` segments at its end; the argument and the result are
written backwards. -/
def dropTrailing : List Char → List Char
  | '/' :: s => dropTrailing s
  | '.' :: '/' :: s => dropTrailing s
  | s => s

/-- The path with what follows the stem of its file name replaced by the extension. A path without
file name stays as it is. -/
def setExtension (p : FilePath) (extension : String) : FilePath :=
  match p.fileName? with
  | none => p
  | some name =>
    let whole := (dropTrailing p.chars.reverse).reverse
    let stem := (splitExtension name).1
    let kept := whole.take (whole.length - name.length) ++ stem.toList
    ⟨String.ofList kept ++ if extension == "" then "" else "." ++ extension⟩

/-- The path with its extension replaced; the empty extension removes it. -/
def withExtension (p : FilePath) (extension : String) : FilePath :=
  let old := (p.extension?.map String.length).getD 0
  setExtension ⟨String.ofList (p.chars.take (p.chars.length - old))⟩ extension

end FilePath

end StubGen
