import StubGen.Fault
import StubGen.Registry
import StubGen.Substitution

/-!
# Types in source text

A reference is written in source text after its bound variables have been resolved. A declared
member type is selected from its enclosing type, level by level; a private one cannot be named
outside, and neither can what it encloses.
-/

namespace StubGen

/-- The word before a wildcard's bounds. -/
def BoundKind.word : BoundKind → String
  | .upper => "extends"
  | .lower => "super"

/-- What the names and variables of a source text mean. -/
structure Scope where
  registry : Registry
  substitution : Substitution

namespace Scope

variable (scope : Scope)

/-- A declared type by its name. -/
def renderName (name : BinaryName) : Except SynthesisFault String :=
  match scope.registry.lookup name, _ : name.enclosing? with
  | none, _ | some _, none => .ok name.canonical
  | some d, some enclosing =>
    if d.modifiers.isPrivate then .error (.inaccessibleMember name)
    else do return (← renderName enclosing) ++ "." ++ name.simpleName
termination_by name.chars.length
decreasing_by exact BinaryName.length_enclosing?_lt ‹_›

/-- A wildcard says nothing if it has no bounds, or only the upper bound that every type has. -/
def isUnbounded (kind : BoundKind) (bounds : List TypeRef) : Bool :=
  bounds.isEmpty || kind = .upper && bounds == [.object]

mutual

/-- A resolved reference. -/
def renderResolved : TypeRef → Except SynthesisFault String
  | .named n => scope.renderName n
  | .array c => do return (← renderResolved c) ++ "[]"
  | .var v => .ok v.name
  | .wildcard kind bounds =>
    if isUnbounded kind bounds then .ok "?"
    else do return "? " ++ kind.word ++ " " ++ " & ".intercalate (← renderAll bounds)
  | .parameterized raw args => do
    let args ← renderAll args
    return (← scope.renderName raw) ++ "<" ++ ", ".intercalate args ++ ">"

/-- A list of resolved references. -/
def renderAll : List TypeRef → Except SynthesisFault (List String)
  | [] => .ok []
  | t :: ts => do return (← renderResolved t) :: (← renderAll ts)

end

/-- A reference. -/
def render (t : TypeRef) : Except SynthesisFault String :=
  scope.renderResolved (scope.substitution.resolve t)

/-- The last parameter of a member with a variable number of arguments. -/
def renderVariadic (t : TypeRef) : Except SynthesisFault String :=
  match scope.substitution.resolve t with
  | .array c => do return (← scope.renderResolved c) ++ "..."
  | other => scope.renderResolved other

/-- References with a separator between neighbours. -/
def renderList (ts : List TypeRef) (separator : String) : Except SynthesisFault String := do
  return separator.intercalate (← ts.mapM scope.render)

/-- The declaration of one generic parameter. -/
def renderTypeParam (p : TypeParam) : Except SynthesisFault String :=
  if p.hasExplicitBounds then do
    return p.name ++ " extends " ++ (← scope.renderList p.bounds " & ")
  else .ok p.name

/-- The declarations of generic parameters; nothing if there are none. -/
def renderTypeParams (ps : List TypeParam) : Except SynthesisFault String :=
  if ps.isEmpty then .ok ""
  else do return "<" ++ ", ".intercalate (← ps.mapM scope.renderTypeParam) ++ ">"

/-- Generic parameters as arguments; nothing if there are none. -/
def renderTypeArgs (ps : List TypeParam) : String :=
  if ps.isEmpty then "" else "<" ++ ", ".intercalate (ps.map (·.name)) ++ ">"

end Scope

end StubGen
