import StubGen.Members
import StubGen.Render

/-!
# The source text of an implementation

An implementation is written piece by piece: its header, the forwarding constructors, one method
after the other and the closing brace. Each piece is either written whole or, if something in it
cannot be named, not at all.
-/

namespace StubGen

/-- An implementation to be written. -/
structure Stub where
  target : Declaration
  scope : Scope
  /-- What the name of the implementation adds to the name of the target. -/
  suffix : String

namespace Stub

/-- The width of one level of indentation. -/
def indent : String := "    "

/-- The keywords of a set of modifiers, ready to be followed by more. -/
def keywords (m : Modifiers) : String := if m.isEmpty then "" else m.text ++ " "

/-- What a method returns when it has nothing to say; nothing for `void`. -/
def defaultValue : TypeRef → Option String
  | .named n =>
    if n.isVoid then none
    else if n.isBoolean then some "false"
    else if n.isPrimitive then some "0"
    else some "null"
  | _ => some "null"

/-- The name of the formal parameter at a position. -/
def argument (index : Nat) : String := "arg" ++ toString index

variable (stub : Stub)

/-- The name of the implementation. -/
def name : String := stub.target.name.simpleName ++ stub.suffix

/-- The package clause and the head of the class. -/
def header : Except SynthesisFault String := do
  let target := stub.target
  let package := target.package
  let relation := if target.isInterface then "implements" else "extends"
  let params ← stub.scope.renderTypeParams target.typeParams
  let supertype ← stub.scope.renderName target.name
  return (if package.isEmpty then "" else "package " ++ package ++ ";\n\n") ++
    "public class " ++ stub.name ++ params ++ " " ++ relation ++ " " ++ supertype ++
    Scope.renderTypeArgs target.typeParams ++ " \x7b\n"

/-- Generic parameters of a member, ready to be followed by more. -/
def typeParams (ps : List TypeParam) : Except SynthesisFault String := do
  let text ← stub.scope.renderTypeParams ps
  return if text.isEmpty then text else text ++ " "

/-- The types of formal parameters, of which the last may stand for any number. -/
def parameterTypes (varargs : Bool) : List TypeRef → Except SynthesisFault (List String)
  | [] => .ok []
  | [t] => do
    return [← if varargs then stub.scope.renderVariadic t else stub.scope.render t]
  | t :: ts => do return (← stub.scope.render t) :: (← parameterTypes varargs ts)

/-- The formal parameters of a member. -/
def parameters (params : List TypeRef) (varargs : Bool) : Except SynthesisFault String := do
  let types ← stub.parameterTypes varargs params
  return ", ".intercalate (types.mapIdx fun i t => t ++ " " ++ argument i)

/-- The exceptions of a member. -/
def throwsClause (throws : List TypeRef) : Except SynthesisFault String :=
  if throws.isEmpty then .ok ""
  else do return " throws " ++ (← stub.scope.renderList throws ", ")

/-- A constructor that passes its arguments on. -/
def constructor (f : Forwarding) : Except SynthesisFault String := do
  let c := f.constructor
  let typeParams ← stub.typeParams c.typeParams
  let parameters ← stub.parameters c.params c.varargs
  let throws ← stub.throwsClause c.throws
  let arguments := ", ".intercalate ((List.range c.params.length).map argument)
  return "\n" ++ indent ++ keywords (c.modifiers.without (.single .abstract)) ++ typeParams ++
    stub.name ++ "(" ++ parameters ++ ")" ++ throws ++ " \x7b\n" ++
    indent ++ indent ++ "super(" ++ arguments ++ ");\n" ++ indent ++ "\x7d\n"

/-- A method that returns a default value. -/
def method (c : Candidate) : Except SynthesisFault String := do
  let m := c.method
  let body :=
    match defaultValue m.returns with
    | some value => indent ++ indent ++ "return " ++ value ++ ";\n"
    | none => ""
  let typeParams ← stub.typeParams m.typeParams
  let returns ← stub.scope.render m.returns
  let parameters ← stub.parameters m.params m.varargs
  let throws ← stub.throwsClause m.throws
  return "\n" ++ indent ++ "@Override\n" ++ indent ++
    keywords (m.modifiers.without (.single .abstract)) ++ typeParams ++ returns ++ " " ++ m.name ++
    "(" ++ parameters ++ ")" ++ throws ++ " \x7b\n" ++ body ++ indent ++ "\x7d\n"

/-- The constructors that are written out: none for an interface. -/
def writtenConstructors (members : Members) : List Forwarding :=
  if stub.target.isInterface then [] else members.constructors.filter fun f => !f.isImplicit

/-- The pieces of the implementation in order. -/
def pieces (members : Members) : List (Except SynthesisFault String) :=
  stub.header :: ((stub.writtenConstructors members).map stub.constructor ++
    members.methods.map stub.method ++ [.ok "\x7d\n"])

/-- The pieces before the first that cannot be written, and the fault of that piece. -/
def takePieces : List (Except SynthesisFault String) → List String × Option SynthesisFault
  | [] => ([], none)
  | .error e :: _ => ([], some e)
  | .ok t :: ps =>
    let (written, fault) := takePieces ps
    (t :: written, fault)

/-- The text of the implementation. -/
def source (members : Members) : Except SynthesisFault String :=
  match takePieces (stub.pieces members) with
  | (_, some e) => .error e
  | (written, none) => .ok (String.join written)

end Stub

end StubGen
