import StubGen.FilePath
import StubGen.Text.Quoted

/-!
# Failures of input and output

What can go wrong with files and with the programs that are run on them.
-/

namespace StubGen

/-- The failures that the operating system reports. -/
inductive OsError
  | notFound
  | permissionDenied
  | alreadyExists
  | notADirectory
  | isADirectory
  | invalidArgument
  | nameTooLong
  | notEmpty
deriving DecidableEq, Inhabited

namespace OsError

/-- The number of a failure. -/
def code : OsError → Nat
  | notFound => 2
  | permissionDenied => 13
  | alreadyExists => 17
  | notADirectory => 20
  | isADirectory => 21
  | invalidArgument => 22
  | nameTooLong => 36
  | notEmpty => 39

/-- The description of a failure. -/
def description : OsError → String
  | notFound => "No such file or directory"
  | permissionDenied => "Permission denied"
  | alreadyExists => "File exists"
  | notADirectory => "Not a directory"
  | isADirectory => "Is a directory"
  | invalidArgument => "Invalid argument"
  | nameTooLong => "File name too long"
  | notEmpty => "Directory not empty"

end OsError

/-- A failure of input or output. -/
inductive IoError
  | os (e : OsError)
  /-- A path holds a NUL, which no file name can. -/
  | nulInPath
  /-- An argument of a program holds a NUL, which none can. -/
  | nulInArgument
  /-- An entry of a classpath holds the separator of entries. -/
  | separatorInEntry
  /-- A file that should hold text does not. -/
  | notText
  | other (text : String)
  /-- A failure together with the path it is about. -/
  | atPath (e : IoError) (path : FilePath)
deriving DecidableEq, Inhabited

/-- The text of a failure. -/
def IoError.message : IoError → String
  | os e => e.description ++ " (os error " ++ toString e.code ++ ")"
  | nulInPath => "file name contained an unexpected NUL byte"
  | nulInArgument => "nul byte found in provided data"
  | separatorInEntry => "path segment contains separator " ++ "`:`"
  | notText => "stream did not contain valid UTF-8"
  | other t => t
  | atPath e p => e.message ++ " at path " ++ Text.quoted p.text

end StubGen
