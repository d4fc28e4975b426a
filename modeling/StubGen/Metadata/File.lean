import StubGen.Disk
import StubGen.Metadata.Shorthand
import StubGen.Registry

/-!
# Files of metadata and settings

What can go wrong with a file that a run depends on: it cannot be read, or what it says cannot be
used. Either way the message names the file, and the cause follows.
-/

namespace StubGen

/-- Why a text cannot be used. -/
inductive TextProblem
  | undecodable (e : DecodeError)
  /-- The text declares a type that may not be declared. -/
  | refused (e : RegistryError)
deriving DecidableEq, Inhabited

/-- The text of a problem. -/
def TextProblem.message : TextProblem → String
  | undecodable e => e.explanation?.getD "the document does not have the expected form"
  | refused e => e.message

/-- What a file is for. -/
inductive FileRole
  | metadata
  | settings
deriving DecidableEq, Inhabited

/-- What a file is called in messages. -/
def FileRole.noun : FileRole → String
  | metadata => "type metadata"
  | settings => "config file"

/-- Why a file cannot be used. -/
inductive FileProblem
  | unreadable (role : FileRole) (path : FilePath) (e : IoError)
  | unusable (role : FileRole) (path : FilePath) (problem : TextProblem)
deriving DecidableEq, Inhabited

namespace FileProblem

/-- What failed, and with which file. -/
def message : FileProblem → String
  | unreadable role path _ => "Failed to read " ++ role.noun ++ " " ++ path.text
  | unusable role path _ => "Failed to parse " ++ role.noun ++ " " ++ path.text

/-- What it failed for. -/
def cause : FileProblem → String
  | unreadable _ _ e => e.message
  | unusable _ _ p => p.message

end FileProblem

/-- The text of a file. -/
def FileRole.read (role : FileRole) (d : Disk) (path : FilePath) : Except FileProblem String :=
  (d.readText path).mapError (.unreadable role path)

end StubGen
