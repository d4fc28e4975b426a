import StubGen.FilePath
import StubGen.Text.Utf8

/-!
# Names of archive entries

A header has a field of fixed size for the name of its entry. A path is written into it part by
part, and only relative paths that never leave their directory are accepted. A path that is refused
half-way leaves in the field what was written until then.

Main results:

* `length_writeBytes`, `length_writeParts` — the field keeps its size, whatever is written into it.
-/

namespace StubGen.Tar

/-- Why a path is no name for an entry. -/
inductive NameProblem
  | notRelative
  /-- The path has a `..`. -/
  | leavesDirectory
  | noComponent
  | tooLong
  | hasNul
deriving DecidableEq, Inhabited

/-- The text of a problem. -/
def NameProblem.message : NameProblem → String
  | notRelative => "paths in archives must be relative"
  | leavesDirectory => "paths in archives must not have " ++ "`..`"
  | noComponent => "paths in archives must have at least one component"
  | tooLong => "provided value is too long"
  | hasNul => "provided value contains a nul byte"

/-- The number of bytes for a name. -/
def nameSize : Nat := 100

/-- A name field, and how far it has been written. -/
structure NameField where
  bytes : List UInt8
  position : Nat
deriving DecidableEq, Inhabited

namespace NameField

/-- The field without a name. -/
def empty : NameField := ⟨List.replicate nameSize 0, 0⟩

/-- The field, to be written from its start again. -/
def restart (f : NameField) : NameField := { f with position := 0 }

/-- The bytes before the first zero. -/
def text (f : NameField) : List UInt8 := f.bytes.takeWhile (· != 0)

/-- Writes bytes, and a zero after them if there is room. -/
def writeBytes (f : NameField) (new : List UInt8) : Except NameProblem NameField :=
  if f.position + new.length > nameSize then .error .tooLong
  else if new.contains 0 then .error .hasNul
  else
    -- A zero that does not fit any more is cut off.
    let whole := f.bytes.take f.position ++ new ++ 0 :: f.bytes.drop (f.position + new.length + 1)
    .ok ⟨whole.take nameSize, f.position + new.length⟩

/-- Writes parts one after the other, up to the first that is refused or does not fit. -/
def writeParts (f : NameField) :
    List (Except NameProblem (List UInt8)) → Option NameProblem × NameField
  | [] => (none, f)
  | .error e :: _ => (some e, f)
  | .ok new :: parts =>
    match f.writeBytes new with
    | .error e => (some e, f)
    | .ok f => writeParts f parts

theorem length_writeBytes {f g : NameField} {new : List UInt8} (hf : f.bytes.length = nameSize)
    (h : f.writeBytes new = .ok g) : g.bytes.length = nameSize := by
  simp only [writeBytes] at h
  split at h
  · simp at h
  · split at h
    · simp at h
    · simp only [Except.ok.injEq] at h
      subst h
      simp only [List.length_take, List.length_append, List.length_cons, List.length_drop, hf]
      omega

theorem length_writeParts {f : NameField} (parts : List (Except NameProblem (List UInt8)))
    (hf : f.bytes.length = nameSize) : (f.writeParts parts).2.bytes.length = nameSize := by
  induction parts generalizing f with
  | nil => simpa [writeParts] using hf
  | cons p parts ih =>
    cases p with
    | error e => simpa [writeParts] using hf
    | ok new =>
      simp only [writeParts]
      split
      · exact hf
      · exact ih (length_writeBytes hf ‹_›)

end NameField

/-- The byte between the components of a name. -/
def separator : UInt8 := 47

/-- What a component contributes to a name. The last component of a path that was cut short may be
the start of a longer one, so there `..` is harmless. -/
def component (isCut isLast : Bool) : PathComponent → Except NameProblem (List UInt8)
  | .root => .error .notRelative
  | .parent => if isCut && isLast then .ok (Text.utf8 "..") else .error .leavesDirectory
  | c => .ok (Text.utf8 c.text)

/-- What components contribute, with separators between them; nothing follows a refusal. -/
def contributions (isCut : Bool) :
    (hasPrevious : Bool) → List PathComponent → List (Except NameProblem (List UInt8))
  | _, [] => []
  | hasPrevious, c :: cs =>
    match component isCut cs.isEmpty c with
    | .error e => [.error e]
    | .ok bytes =>
      (if hasPrevious then [.ok [separator]] else []) ++ .ok bytes :: contributions isCut true cs

/-- The parts of the name that a path gives. A leading `.` counts only if it is all there is. -/
def nameParts (isCut : Bool) (path : FilePath) : List (Except NameProblem (List UInt8)) :=
  let trailing := if path.endsWithSlash then [.ok [separator]] else []
  match path.components with
  | [] => [.error .noComponent]
  | [.current] => .ok (Text.utf8 ".") :: trailing
  | cs => contributions isCut false (cs.filter (· != .current)) ++ trailing

end StubGen.Tar
