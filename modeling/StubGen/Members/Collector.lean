import StubGen.Members.Signature

/-!
# Collecting methods

Methods are offered one after the other. The first acceptable method of a signature is kept, and a
final method of that signature, before or after, rules it out.
-/

namespace StubGen

/-- A method with the type that declares it. -/
structure Candidate where
  method : Method
  declaring : BinaryName
deriving DecidableEq, Inhabited

namespace Candidate

/-- The signature of a candidate. -/
def signature (s : Substitution) (c : Candidate) : Signature := .ofMethod s c.declaring c.method

/-- Whether a compiler wrote the method. -/
def isGenerated (c : Candidate) : Bool := c.method.synthetic || c.method.bridge

/-- Whether a subtype may declare the method again: a deprecated method only if it must. -/
def isOverridable (c : Candidate) : Bool :=
  let m := c.method.modifiers
  !(c.method.deprecated && !m.isAbstract) &&
    !(m.isFinal || m.isStatic || m.isNative || m.isPrivate)

end Candidate

/-- The methods kept so far with their signatures, and the signatures that are ruled out. -/
structure Collector where
  accepted : List (Signature × Candidate) := []
  forbidden : List Signature := []
deriving Inhabited

namespace Collector

/-- Offers a method. -/
def offer (s : Substitution) (c : Collector) (candidate : Candidate) : Collector :=
  let signature := candidate.signature s
  if candidate.isGenerated then c
  -- A final method also evicts what was kept before it came.
  else if candidate.method.modifiers.isFinal then
    { accepted := c.accepted.filter fun a => a.1 ≠ signature
      forbidden := signature :: c.forbidden }
  else if !candidate.isOverridable then c
  else if signature ∈ c.forbidden then c
  else if c.accepted.any fun a => a.1 = signature then c
  else { c with accepted := c.accepted ++ [(signature, candidate)] }

/-- Offers methods in order. -/
def offerAll (s : Substitution) (candidates : List Candidate) : Collector :=
  candidates.foldl (offer s) {}

/-- The methods kept, in the order of acceptance. -/
def candidates (c : Collector) : List Candidate := c.accepted.map (·.2)

end Collector

end StubGen
