import StubGen.TypeRef
import StubGen.Unseen

/-!
# Substitutions

A substitution binds generic variables to references. Resolving a reference follows the bindings
until no bound variable is left; a variable that is met again while it is being resolved stays.

Main results:

* `get?_insert` — a later binding of a variable takes the place of the earlier one.
-/

namespace StubGen

/-- Bindings of generic variables. -/
structure Substitution where
  bindings : List (TypeVar × TypeRef)
deriving DecidableEq, Inhabited

namespace Substitution

/-- The substitution without bindings. -/
def empty : Substitution := ⟨[]⟩

/-- The number of bound variables. -/
def size (s : Substitution) : Nat := s.bindings.length

def isEmpty (s : Substitution) : Bool := s.bindings.isEmpty

/-- The bound variables. -/
def keys (s : Substitution) : List TypeVar := s.bindings.map (·.1)

/-- What a variable is bound to. -/
def get? (s : Substitution) (v : TypeVar) : Option TypeRef := s.bindings.lookup v

/-- The substitution without a binding of `v`. -/
def erase (s : Substitution) (v : TypeVar) : Substitution := ⟨s.bindings.filter fun b => b.1 ≠ v⟩

/-- Binds `v`, in place of an earlier binding. -/
def insert (s : Substitution) (v : TypeVar) (t : TypeRef) : Substitution :=
  ⟨(v, t) :: (s.erase v).bindings⟩

theorem get?_insert (s : Substitution) (v : TypeVar) (t : TypeRef) (w : TypeVar) :
    (s.insert v t).get? w = if w = v then some t else s.get? w := by
  by_cases h : w = v
  · simp [get?, insert, h]
  · have hb : (w == v) = false := by simpa using h
    simp only [get?, insert, erase, List.lookup_cons, hb, h, if_false]
    induction s.bindings with
    | nil => rfl
    | cons b bs ih =>
      obtain ⟨x, u⟩ := b
      by_cases hx : x = v
      · subst hx
        rw [List.filter_cons_of_neg (by simp), ih, List.lookup_cons, hb]
      · rw [List.filter_cons_of_pos (by simpa using hx), List.lookup_cons, List.lookup_cons, ih]

theorem mem_keys_of_get? {s : Substitution} {v : TypeVar} {t : TypeRef} (h : s.get? v = some t) :
    v ∈ s.keys := by
  obtain ⟨before, after, hb, -⟩ := List.lookup_eq_some_iff.1 h
  simp [keys, hb]

/-- The reference with its bound variables resolved, and theirs in turn. A variable that is already
being expanded stays. -/
def resolveUnder (s : Substitution) (expanding : List TypeVar) (t : TypeRef) : TypeRef :=
  t.bind fun v =>
    if _ : v ∈ expanding then .var v
    else
      match _ : s.get? v with
      | none => .var v
      | some u => s.resolveUnder (v :: expanding) u
termination_by (unseen s.keys expanding).length
decreasing_by exact length_unseen_cons_lt (mem_keys_of_get? ‹_›) ‹_›

/-- The reference with every bound variable resolved. -/
def resolve (s : Substitution) (t : TypeRef) : TypeRef := s.resolveUnder [] t

end Substitution

end StubGen
