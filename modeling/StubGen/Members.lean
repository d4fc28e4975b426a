import StubGen.Closure
import StubGen.Fault
import StubGen.Members.Collector

/-!
# The members of an implementation

An implementation of a type forwards every constructor that is not private and overrides every
method that it may. The methods are offered in two passes: first the public members of the type and
of everything it inherits from, then, along the chain of superclasses, the protected members and
those of the type's own package.
-/

namespace StubGen

/-- A constructor of the implementation, which forwards to one of the type. -/
structure Forwarding where
  constructor : Constructor
  declaring : BinaryName
  /-- Whether the language supplies the constructor without its being written. -/
  isImplicit : Bool
deriving DecidableEq, Inhabited

/-- The members of an implementation. -/
structure Members where
  constructors : List Forwarding
  methods : List Candidate
deriving DecidableEq, Inhabited

namespace Members

/-- The constructors: an interface has the implicit one, a class those that are not private. -/
def resolveConstructors (target : Declaration) : Except SynthesisFault (List Forwarding) :=
  if target.isInterface then
    .ok [⟨{ modifiers := .ofList [.publicAccess] }, target.name, true⟩]
  else
    match target.effectiveConstructors.filter fun c => !c.modifiers.isPrivate with
    | [] => .error .noUsableConstructor
    | cs => .ok (cs.map fun c => ⟨c, target.name, false⟩)

/-- The public members of a type, each with its access made explicit. -/
def publicMembers (d : Declaration) : List Candidate :=
  (d.methods.filter d.hasPublicMember).map fun m =>
    ⟨{ m with modifiers := m.modifiers.union (.single .publicAccess) }, d.name⟩

/-- The members of a class that are not public but visible in a package. -/
def restrictedMembers (package : String) (d : Declaration) : List Candidate :=
  (d.methods.filter fun m =>
    !d.hasPublicMember m && !m.modifiers.isPrivate &&
      (m.modifiers.isProtected || d.package == package)).map fun m => ⟨m, d.name⟩

/-- The methods in the order in which they are offered. -/
def offers (r : Registry) (target : Declaration) : List Candidate :=
  (Hierarchy.preorder r target).flatMap publicMembers ++
    (Hierarchy.chain r target).flatMap (restrictedMembers target.package)

/-- The methods to override. -/
def resolveMethods (r : Registry) (s : Substitution) (target : Declaration) : List Candidate :=
  (Collector.offerAll s (offers r target)).candidates

/-- The members of an implementation of `target`. -/
def resolve (r : Registry) (s : Substitution) (target : Declaration) :
    Except SynthesisFault Members := do
  return ⟨← resolveConstructors target, resolveMethods r s target⟩

end Members

end StubGen
