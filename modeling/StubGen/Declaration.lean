import StubGen.FilePath
import StubGen.Modifiers
import StubGen.TypeRef

/-!
# Declared types and their members

A declaration records what class files say about a type: its kind, modifiers, generic parameters,
supertypes, constructors and methods, and the classpath entry that holds its compiled form. Some of
it goes without saying: a class extends the root class and has a constructor without parameters,
and the members of an interface are public.

Main results:

* `mem_supertypes_iff`, `hasPublicMember_iff` — what is said and what goes without saying.
-/

namespace StubGen

/-- What a declaration declares. -/
inductive TypeKind
  | classType
  | interface
  | enum
  | annotationType
deriving DecidableEq, Inhabited

namespace TypeKind

/-- Annotations are implemented like interfaces. -/
def isInterface : TypeKind → Bool
  | interface | annotationType => true
  | .classType | .enum => false

/-- The keyword of a kind in metadata. -/
def keyword : TypeKind → String
  | .classType => "class"
  | interface => "interface"
  | enum => "enum"
  | annotationType => "annotation"

/-- Every kind. -/
def all : List TypeKind := [.classType, .interface, .enum, .annotationType]

end TypeKind

/-- A declared generic parameter with its bounds. -/
structure TypeParam where
  name : String
  bounds : List TypeRef := []
deriving DecidableEq, Inhabited

/-- A bound is worth writing unless it is the one every parameter has. -/
def TypeParam.hasExplicitBounds (p : TypeParam) : Bool :=
  match p.bounds with
  | [] => false
  | [b] => !b.isObject
  | _ => true

/-- A declared constructor. -/
structure Constructor where
  modifiers : Modifiers := .empty
  typeParams : List TypeParam := []
  params : List TypeRef := []
  throws : List TypeRef := []
  varargs : Bool := false
deriving DecidableEq, Inhabited

/-- A declared method. -/
structure Method where
  name : String
  modifiers : Modifiers := .empty
  typeParams : List TypeParam := []
  params : List TypeRef := []
  returns : TypeRef := .void
  throws : List TypeRef := []
  varargs : Bool := false
  deprecated : Bool := false
  /-- Written by a compiler, without a counterpart in source text. -/
  synthetic : Bool := false
  /-- Written by a compiler to bridge an erased signature. -/
  bridge : Bool := false
deriving DecidableEq, Inhabited

/-- The position of a generic variable among the method's own parameters. -/
def Method.typeParamIndex? (m : Method) (name : String) : Option Nat :=
  m.typeParams.findIdx? fun p => p.name == name

/-- A declared class, interface, enumeration or annotation. -/
structure Declaration where
  name : BinaryName
  kind : TypeKind := .classType
  modifiers : Modifiers := .empty
  typeParams : List TypeParam := []
  superclass : Option TypeRef := none
  interfaces : List TypeRef := []
  constructors : List Constructor := []
  methods : List Method := []
  /-- The classpath entry that holds the compiled type. -/
  classpath : Option FilePath := none
deriving DecidableEq, Inhabited

namespace Declaration

/-- An interface; interfaces are public and abstract. -/
def interface (name : BinaryName) : Declaration :=
  { name, kind := .interface, modifiers := .ofList [.publicAccess, .abstract] }

def isInterface (d : Declaration) : Bool := d.kind.isInterface

def package (d : Declaration) : String := d.name.package

/-- A reference to one of the type's own parameters. -/
def ownVariable (d : Declaration) (name : String) : TypeRef := .var ⟨name, .ofType d.name⟩

/-- The type's own parameters as variables. -/
def typeVars (d : Declaration) : List TypeVar :=
  d.typeParams.map fun p => ⟨p.name, .ofType d.name⟩

/-- The superclass: a class that names none extends the root class. -/
def effectiveSuperclass (d : Declaration) : Option TypeRef :=
  match d.superclass with
  | some s => some s
  | none => if d.kind = .classType ∧ ¬ d.name.isObject then some .object else none

/-- The direct supertypes, superclass first and interfaces in declared order. -/
def supertypes (d : Declaration) : List TypeRef := d.effectiveSuperclass.toList ++ d.interfaces

/-- The constructors, with the implicit one of a type that declares none. -/
def effectiveConstructors (d : Declaration) : List Constructor :=
  if d.constructors.isEmpty then [{ modifiers := d.modifiers.access }] else d.constructors

/-- Interface members are public unless they say that they are private. -/
def hasPublicMember (d : Declaration) (m : Method) : Bool :=
  m.modifiers.isPublic || d.isInterface && !m.modifiers.isPrivate

/-! ## What a declaration says without spelling it out -/

variable {d : Declaration} {m : Method} {t : TypeRef}

theorem effectiveSuperclass_eq_some_iff :
    d.effectiveSuperclass = some t ↔ d.superclass = some t ∨
      d.superclass = none ∧ d.kind = .classType ∧ ¬ d.name.isObject ∧ t = .object := by
  rw [effectiveSuperclass]
  cases d.superclass with
  | some s => simp
  | none => simp [and_assoc, @eq_comm _ TypeRef.object t]

theorem mem_supertypes_iff :
    t ∈ d.supertypes ↔ d.superclass = some t ∨
      (d.superclass = none ∧ d.kind = .classType ∧ ¬ d.name.isObject ∧ t = .object) ∨
      t ∈ d.interfaces := by
  rw [supertypes, List.mem_append, Option.mem_toList,
    effectiveSuperclass_eq_some_iff, or_assoc]

theorem hasPublicMember_iff :
    d.hasPublicMember m = true ↔
      m.modifiers.isPublic = true ∨ d.isInterface = true ∧ m.modifiers.isPrivate = false := by
  rw [hasPublicMember, Bool.or_eq_true, Bool.and_eq_true, Bool.not_eq_true']

theorem effectiveConstructors_of_nil (h : d.constructors = []) :
    d.effectiveConstructors = [{ modifiers := d.modifiers.access }] := by
  rw [effectiveConstructors, h]
  rfl

theorem effectiveConstructors_of_ne_nil (h : d.constructors ≠ []) :
    d.effectiveConstructors = d.constructors := by
  rw [effectiveConstructors, if_neg (mt List.isEmpty_iff.1 h)]

end Declaration

end StubGen
