import StubGen.BinaryName

/-!
# References to types

A signature refers to a type by a raw name, as an array, through a generic variable, through a
wildcard, or as a generic type applied to arguments. A generic variable belongs to the declaration
that introduces it, so two variables of one name are different when their owners are.

Main results:

* `TypeRef.beq_iff` — equality of references is decided structurally;
* `TypeRef.bindAll_eq_map` — substitution in a list works element by element.
-/

namespace StubGen

/-- What introduces a generic variable: a type, or a member (method or constructor) of a type. -/
structure VarOwner where
  type : BinaryName
  member : Option String
deriving DecidableEq, Inhabited

namespace VarOwner

/-- The owner of a type's own parameters. -/
def ofType (t : BinaryName) : VarOwner := ⟨t, none⟩

/-- The owner of the parameters of a generic member. -/
def ofMember (t : BinaryName) (member : String) : VarOwner := ⟨t, some member⟩

/-- Reads `pkg.Type` or `pkg.Type#member`, cutting at the first `#`. -/
def parse (text : String) : VarOwner :=
  match Text.splitFirst? '#' text.toList with
  | some (t, m) => ofMember ⟨String.ofList t⟩ (String.ofList m)
  | none => ofType ⟨text⟩

/-- The owner as it is written: `pkg.Type` or `pkg.Type#member`. -/
def text (o : VarOwner) : String :=
  match o.member with
  | some m => o.type.text ++ "#" ++ m
  | none => o.type.text

def isMemberScoped (o : VarOwner) : Bool := o.member.isSome

end VarOwner

/-- A generic variable, told apart by the declaration that introduces it. -/
structure TypeVar where
  name : String
  owner : VarOwner
deriving DecidableEq, Inhabited

/-- The direction of a wildcard's bounds. -/
inductive BoundKind
  /-- The argument is a subtype of every bound. -/
  | upper
  /-- The argument is a supertype of every bound. -/
  | lower
deriving DecidableEq, Inhabited

/-- A reference to a type as it stands in a signature. -/
inductive TypeRef
  /-- A raw class, interface or primitive. -/
  | named (name : BinaryName)
  | array (component : TypeRef)
  | var (v : TypeVar)
  | wildcard (bound : BoundKind) (bounds : List TypeRef)
  | parameterized (raw : BinaryName) (args : List TypeRef)
deriving Inhabited

namespace TypeRef

/-! ## Equality -/

mutual

/-- Structural equality. -/
def beq : TypeRef → TypeRef → Bool
  | named a, named b => a == b
  | array a, array b => beq a b
  | var a, var b => a == b
  | wildcard k as, wildcard l bs => k == l && beqAll as bs
  | parameterized r as, parameterized s bs => r == s && beqAll as bs
  | _, _ => false

/-- Structural equality of lists of references. -/
def beqAll : List TypeRef → List TypeRef → Bool
  | [], [] => true
  | a :: as, b :: bs => beq a b && beqAll as bs
  | _, _ => false

end

mutual

theorem beq_iff : ∀ {a b : TypeRef}, beq a b = true ↔ a = b
  | named _, b => by cases b <;> simp [beq]
  | array c, b => by
    cases b <;> simp [beq]
    exact @beq_iff c _
  | var _, b => by cases b <;> simp [beq]
  | wildcard _ as, b => by
    cases b <;> simp [beq]
    exact fun _ => @beqAll_iff as _
  | parameterized _ as, b => by
    cases b <;> simp [beq]
    exact fun _ => @beqAll_iff as _

theorem beqAll_iff : ∀ {as bs : List TypeRef}, beqAll as bs = true ↔ as = bs
  | [], bs => by cases bs <;> simp [beqAll]
  | a :: as, bs => by
    cases bs with
    | nil => simp [beqAll]
    | cons b bs => simp [beqAll, @beq_iff a b, @beqAll_iff as bs]

end

instance : DecidableEq TypeRef := fun _ _ => decidable_of_iff _ beq_iff

/-! ## Reading a reference -/

/-- The class every other class extends. -/
def object : TypeRef := named .object

/-- The absence of a result. -/
def void : TypeRef := named .void

def isVoid : TypeRef → Bool
  | named n => n.isVoid
  | _ => false

def isObject : TypeRef → Bool
  | named n => n.isObject
  | _ => false

/-- The name of a class or interface, raw or applied to arguments. -/
def rawName? : TypeRef → Option BinaryName
  | named n | parameterized n _ => some n
  | _ => none

/-- The type applied to `arrays` dimensions. -/
def ofDimensions (t : TypeRef) : Nat → TypeRef
  | 0 => t
  | n + 1 => array (ofDimensions t n)

/-! ## Substitution -/

mutual

/-- The reference with every variable replaced by what `f` gives for it. -/
def bind (f : TypeVar → TypeRef) : TypeRef → TypeRef
  | named n => named n
  | array c => array (bind f c)
  | var v => f v
  | wildcard k bs => wildcard k (bindAll f bs)
  | parameterized r as => parameterized r (bindAll f as)

/-- Substitution in a list of references. -/
def bindAll (f : TypeVar → TypeRef) : List TypeRef → List TypeRef
  | [] => []
  | t :: ts => bind f t :: bindAll f ts

end

theorem bindAll_eq_map (f : TypeVar → TypeRef) (ts : List TypeRef) :
    bindAll f ts = ts.map (bind f) := by
  induction ts with
  | nil => rfl
  | cons t ts ih => simp [bindAll, ih]

mutual

/-- The variables that occur in a reference, in order and with repetitions. -/
def vars : TypeRef → List TypeVar
  | named _ => []
  | array c => vars c
  | var v => [v]
  | wildcard _ bs => varsAll bs
  | parameterized _ as => varsAll as

/-- The variables that occur in a list of references. -/
def varsAll : List TypeRef → List TypeVar
  | [] => []
  | t :: ts => vars t ++ varsAll ts

end

end TypeRef

end StubGen
