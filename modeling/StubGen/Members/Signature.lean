import StubGen.Declaration
import StubGen.Substitution

/-!
# Signatures

Two methods override one another if their names and resolved parameter types agree. A method's own
generic variables count by their position, so their names do not matter.
-/

namespace StubGen

/-- What decides whether one method overrides another. -/
structure Signature where
  name : String
  params : List TypeRef
deriving DecidableEq, Inhabited

namespace Signature

/-- The variable that stands for a method's own parameter at a position. -/
def placeholder (index : Nat) : TypeRef := .var ⟨toString index, .ofMember ⟨""⟩ ""⟩

/-- A method's own variables by their position, and every other variable as it is. -/
def positional (m : Method) (declaring : BinaryName) (v : TypeVar) : TypeRef :=
  if v.owner = .ofMember declaring m.name then
    match m.typeParamIndex? v.name with
    | some i => placeholder i
    | none => .var v
  else .var v

/-- The signature of a method declared in a type. -/
def ofMethod (s : Substitution) (declaring : BinaryName) (m : Method) : Signature where
  name := m.name
  params := m.params.map fun p => (s.resolve p).bind (positional m declaring)

/-- The name and the number of parameters. -/
def text (s : Signature) : String := s.name ++ "/" ++ toString s.params.length

end Signature

end StubGen
