import StubGen.Text.Quoted
import StubGen.TypeRef

/-!
# References in diagnostics

Diagnostics show a reference by its structure, with every text quoted, because a reference that
needs a diagnostic may have no spelling in source text.
-/

namespace StubGen

/-- `parts` between brackets, separated by commas. -/
def bracketed (parts : List String) : String := "[" ++ ", ".intercalate parts ++ "]"

/-- The structural spelling of a name. -/
def BinaryName.diagnostic (n : BinaryName) : String := "TypePath(" ++ Text.quoted n.text ++ ")"

/-- The structural spelling of an owner. -/
def VarOwner.diagnostic (o : VarOwner) : String :=
  let member :=
    match o.member with
    | none => "None"
    | some m => "Some(" ++ Text.quoted m ++ ")"
  "VarOwner \x7b ty: " ++ o.type.diagnostic ++ ", member: " ++ member ++ " \x7d"

/-- The structural spelling of a bound's direction. -/
def BoundKind.diagnostic : BoundKind → String
  | upper => "Upper"
  | lower => "Lower"

mutual

/-- The structural spelling of a reference. -/
def TypeRef.diagnostic : TypeRef → String
  | .named n => "Named(" ++ n.diagnostic ++ ")"
  | .array c => "Array(" ++ TypeRef.diagnostic c ++ ")"
  | .var v =>
    "Variable \x7b name: " ++ Text.quoted v.name ++ ", owner: " ++ v.owner.diagnostic ++ " \x7d"
  | .wildcard k bs =>
    "Wildcard \x7b kind: " ++ k.diagnostic ++ ", bounds: " ++
      bracketed (TypeRef.diagnosticAll bs) ++ " \x7d"
  | .parameterized r as =>
    "Parameterized \x7b raw: " ++ r.diagnostic ++ ", args: " ++
      bracketed (TypeRef.diagnosticAll as) ++ " \x7d"

/-- The structural spellings of a list of references. -/
def TypeRef.diagnosticAll : List TypeRef → List String
  | [] => []
  | t :: ts => TypeRef.diagnostic t :: TypeRef.diagnosticAll ts

end

end StubGen
