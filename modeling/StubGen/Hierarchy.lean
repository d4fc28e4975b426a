import StubGen.Registry
import StubGen.Unseen

/-!
# Walking the supertypes of a type

A depth-first walk over the supertype clauses of a type and of everything it inherits from. Each
declared type is entered once, at the first clause that leads to it, and its own clauses then come
before those that were still waiting. Clauses that lead to a type already entered, or to none that
is declared, are steps of the walk too.

Which clauses of a type are followed, and in which order, is a parameter: all of them for the
supertypes, the superclass alone for the chain of classes.
-/

namespace StubGen

namespace Hierarchy

/-- A step of a walk: a clause of a type and where it leads. -/
structure Step where
  type : Declaration
  supertype : TypeRef
  /-- The declaration of the supertype, if there is one. -/
  parent? : Option Declaration
  /-- Whether this step is the first that leads to its parent. -/
  enters : Bool
deriving Inhabited

/-- The type that a step is the first to lead to. -/
def Step.entered? (s : Step) : Option Declaration := if s.enters then s.parent? else none

/-- The declaration that a reference names. -/
def parent? (r : Registry) (t : TypeRef) : Option Declaration := t.rawName?.bind r.lookup

theorem mem_names_of_parent? {r : Registry} {t : TypeRef} {p : Declaration}
    (h : parent? r t = some p) : p.name ∈ r.names := by
  obtain ⟨n, -, hn⟩ := Option.bind_eq_some_iff.1 h
  exact List.mem_map_of_mem (Registry.mem_of_lookup hn)

/-- The followed clauses of a type. -/
def clauses (next : Declaration → List TypeRef) (d : Declaration) : List (Declaration × TypeRef) :=
  (next d).map fun t => (d, t)

/-- The steps of a walk from waiting clauses. -/
def walk (r : Registry) (next : Declaration → List TypeRef) (seen : List BinaryName) :
    List (Declaration × TypeRef) → List Step
  | [] => []
  | (d, t) :: waiting =>
    match _ : parent? r t with
    | none => ⟨d, t, none, false⟩ :: walk r next seen waiting
    | some p =>
      if _ : p.name ∈ seen then ⟨d, t, some p, false⟩ :: walk r next seen waiting
      else ⟨d, t, some p, true⟩ :: walk r next (p.name :: seen) (clauses next p ++ waiting)
termination_by waiting => ((unseen r.names seen).length, waiting.length)
decreasing_by
  · exact Prod.Lex.right _ (by simp)
  · exact Prod.Lex.right _ (by simp)
  · exact Prod.Lex.left _ _ (length_unseen_cons_lt (mem_names_of_parent? ‹_›) ‹_›)

/-- The walk from a type. -/
def steps (r : Registry) (next : Declaration → List TypeRef) (target : Declaration) : List Step :=
  walk r next [target.name] (clauses next target)

/-- A type and the declared types that a walk enters, in the order of entry. -/
def visited (r : Registry) (next : Declaration → List TypeRef) (target : Declaration) :
    List Declaration :=
  target :: (steps r next target).filterMap Step.entered?

/-- A type with everything it inherits from, supertypes after their subtype and superclass
first. -/
def preorder (r : Registry) (target : Declaration) : List Declaration :=
  visited r Declaration.supertypes target

/-- A type with its superclasses, up to the last that is declared. -/
def chain (r : Registry) (target : Declaration) : List Declaration :=
  visited r (fun d => d.effectiveSuperclass.toList) target

end Hierarchy

end StubGen
