import StubGen.Disk
import StubGen.TypeRef.Diagnostic

/-!
# Sessions

A session is what a run works on and leaves behind: the disk, the warnings given on the way, and
what the programs it called have printed.
A step of a run takes a session and gives back a result with the session after it; the session is
there whether the step succeeded or not.
-/

namespace StubGen

/-- Something that went wrong without stopping the run. -/
inductive Warning
  /-- A file that should have gone is still there. -/
  | notRemoved (path : FilePath) (e : IoError)
  /-- The build directory could not be removed. -/
  | buildLeft (path : FilePath) (e : IoError)
  /-- A supertype is neither class nor interface. -/
  | malformedSupertype (supertype : TypeRef) (type : BinaryName)
deriving Inhabited

/-- The text of a warning. -/
def Warning.message : Warning → String
  | notRemoved p e => "Failed to remove " ++ p.text ++ ": " ++ e.message
  | buildLeft p e => "Failed to remove temporary directory " ++ p.text ++ ": " ++ e.message
  | malformedSupertype t n => "Ignoring malformed supertype " ++ t.diagnostic ++ " of " ++ n.text

/-- The state of a run. -/
structure Session where
  disk : Disk
  warnings : List Warning := []
  /-- What programs have written to their output. -/
  output : List UInt8 := []
  /-- What programs have written to their error output. -/
  errorOutput : List UInt8 := []
deriving Inhabited

namespace Session

/-- The session after a change of the disk. -/
def withDisk (s : Session) (d : Disk) : Session := { s with disk := d }

/-- The session after a warning. -/
def warn (s : Session) (w : Warning) : Session := { s with warnings := s.warnings ++ [w] }

@[simp] theorem disk_withDisk (s : Session) (d : Disk) : (s.withDisk d).disk = d := rfl

@[simp] theorem disk_warn (s : Session) (w : Warning) : (s.warn w).disk = s.disk := rfl

end Session

end StubGen
