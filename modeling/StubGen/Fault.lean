import StubGen.BinaryName
import StubGen.IoError

/-!
# Failures of a run

The stages of a run fail with a synthesis fault, which does not know for which type it arose. The
run as a whole fails with one failure, which always names the type.
-/

namespace StubGen

/-- A fault of one stage. -/
inductive SynthesisFault
  /-- Every constructor of the type is private. -/
  | noUsableConstructor
  /-- A member type that cannot be named, because it is private. -/
  | inaccessibleMember (name : BinaryName)
  | io (e : IoError)
deriving DecidableEq, Inhabited

/-- The text of a fault. -/
def SynthesisFault.message : SynthesisFault → String
  | noUsableConstructor => "no usable constructor"
  | inaccessibleMember n => "`" ++ n.text ++ "` is not accessible"
  | io e => e.message

/-- Why a type cannot be implemented. -/
inductive Refusal
  | arrayType
  | notAType
  | emptyName
  | primitiveType
  | unknownType
  | enumType
  | finalClass
  | privateMember
  | other (text : String)
deriving DecidableEq, Inhabited

/-- The text of a refusal. -/
def Refusal.message : Refusal → String
  | arrayType => "array type"
  | notAType => "not a class or interface"
  | emptyName => "empty type name"
  | primitiveType => "primitive type"
  | unknownType => "unknown type"
  | enumType => "enum type"
  | finalClass => "final class"
  | privateMember => "private member type"
  | other t => t

/-- How a compilation went wrong. -/
inductive CompilationProblem
  /-- The compiler could not be run. -/
  | notRun (e : IoError)
  | exitStatus (code : Int)
  | other (text : String)
deriving DecidableEq, Inhabited

/-- The text of a problem. -/
def CompilationProblem.message : CompilationProblem → String
  | notRun e => "failed to run the compiler: " ++ e.message
  | exitStatus code => "compiler exited with status " ++ toString code
  | other t => t

/-- The failure of a run; `typeName` is the source spelling of the type it was for. -/
inductive Failure
  | invalidTarget (typeName : String) (refusal : Refusal)
  | noUsableConstructor (typeName : String)
  | inaccessibleMember (typeName member : String)
  | compilationFailed (typeName : String) (problem : CompilationProblem)
  /-- No file name can end in the extension of compiled units. -/
  | invalidExtension (typeName extension : String)
  | packagingFailed (typeName : String) (e : IoError)
  | ioFailure (typeName : String) (e : IoError)
deriving DecidableEq, Inhabited

namespace Failure

/-- The type that the failed run was for. -/
def typeName : Failure → String
  | invalidTarget t _ | noUsableConstructor t | inaccessibleMember t _ | compilationFailed t _
  | invalidExtension t _ | packagingFailed t _ | ioFailure t _ => t

/-- The failure of input or output behind a failure. -/
def cause? : Failure → Option IoError
  | packagingFailed _ e | ioFailure _ e => some e
  | _ => none

/-- The text of a failure. -/
def message : Failure → String
  | invalidTarget t r => "cannot implement `" ++ t ++ "`: " ++ r.message
  | noUsableConstructor t => "`" ++ t ++ "` has no non-private constructor to forward to"
  | inaccessibleMember t m =>
    "`" ++ t ++ "` requires `" ++ m ++ "`, which is private at some enclosing level"
  | compilationFailed t p =>
    "compilation of the implementation of `" ++ t ++ "` failed: " ++ p.message
  | invalidExtension t x =>
    "compilation of the implementation of `" ++ t ++ "` failed: extension `" ++ x ++
      "` contains a path separator"
  | packagingFailed t e => "packaging the implementation of `" ++ t ++ "` failed: " ++ e.message
  | ioFailure t e => "I/O failure while implementing `" ++ t ++ "`: " ++ e.message

end Failure

/-- The failure of the run for `target` in which a fault arose. -/
def SynthesisFault.toFailure (target : BinaryName) : SynthesisFault → Failure
  | noUsableConstructor => .noUsableConstructor target.canonical
  | inaccessibleMember m => .inaccessibleMember target.canonical m.canonical
  | io e => .ioFailure target.canonical e

end StubGen
