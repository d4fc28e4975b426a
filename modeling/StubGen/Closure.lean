import StubGen.Hierarchy
import StubGen.Substitution

/-!
# What a type makes of its ancestors' variables

Every applied supertype on the walk from a type binds the supertype's parameters to the arguments
given for them. Together the bindings say what each ancestor's variable stands for in the type. When
several clauses lead to one ancestor, the last on the walk decides.
-/

namespace StubGen

namespace Closure

/-- The bindings of a step: the parent's parameters, as far as there are arguments for them. -/
def bindings (step : Hierarchy.Step) : List (TypeVar × TypeRef) :=
  match step.parent?, step.supertype with
  | some parent, .parameterized _ args => parent.typeVars.zip args
  | _, _ => []

/-- The bindings of a type's ancestors. -/
def substitution (r : Registry) (target : Declaration) : Substitution :=
  ((Hierarchy.steps r Declaration.supertypes target).flatMap bindings).foldl
    (fun s (v, t) => s.insert v t) .empty

/-- The supertypes on the walk that are neither class nor interface, each with its type. -/
def malformed (r : Registry) (target : Declaration) : List (TypeRef × BinaryName) :=
  let steps := Hierarchy.steps r Declaration.supertypes target
  (steps.filter fun s => s.supertype.rawName?.isNone).map fun s => (s.supertype, s.type.name)

end Closure

end StubGen
