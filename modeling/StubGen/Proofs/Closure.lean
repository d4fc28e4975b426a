import StubGen.Closure
import StubGen.Proofs.Hierarchy

/-!
# The bindings of a type's ancestors

The substitution of a type binds a variable exactly if an applied clause of some type that it
inherits from supplies an argument for it, and what it binds the variable to is such an argument.

Main results:

* `get?_substitution` — the last binding on the walk decides;
* `exists_supplies_of_get?`, `exists_get?_of_supplies` — bindings come from clauses, and clauses
  give bindings.
-/

namespace StubGen

theorem Substitution.get?_foldl_insert (bs : List (TypeVar × TypeRef)) (s : Substitution)
    (v : TypeVar) :
    (bs.foldl (fun s (v, t) => s.insert v t) s).get? v = (bs.reverse.lookup v).or (s.get? v) := by
  induction bs generalizing s with
  | nil => rfl
  | cons b bs ih =>
    obtain ⟨w, u⟩ := b
    rw [List.foldl_cons, ih, get?_insert, List.reverse_cons, List.lookup_append, Option.or_assoc]
    congr 1
    by_cases h : v = w
    · simp [h]
    · have hb : (v == w) = false := by simpa using h
      simp [List.lookup_cons, hb, h]

theorem Declaration.owner_of_mem_typeVars {d : Declaration} {v : TypeVar} (h : v ∈ d.typeVars) :
    v.owner = .ofType d.name := by
  obtain ⟨p, -, rfl⟩ := List.mem_map.1 h
  rfl

theorem Declaration.typeParams_ne_nil_of_mem_typeVars {d : Declaration} {v : TypeVar}
    (h : v ∈ d.typeVars) : d.typeParams ≠ [] := by
  intro hnil
  rw [typeVars, hnil] at h
  cases h

/-- One variable belongs to one declared type. -/
theorem Declaration.eq_of_mem_typeVars {r : Registry} {d e : Declaration} {v : TypeVar}
    (hd : r.lookup d.name = some d) (he : r.lookup e.name = some e) (hvd : v ∈ d.typeVars)
    (hve : v ∈ e.typeVars) : d = e := by
  have howner := (owner_of_mem_typeVars hvd).symm.trans (owner_of_mem_typeVars hve)
  rw [(VarOwner.mk.inj howner).1, he] at hd
  exact (Option.some.inj hd).symm

namespace Closure

open Relation

variable {r : Registry} {target : Declaration}

/-- A clause of `d` applies the declared type `p` and supplies the argument `u` for its parameter
`v`. -/
def Supplies (r : Registry) (d p : Declaration) (v : TypeVar) (u : TypeRef) : Prop :=
  ∃ raw args, .parameterized raw args ∈ d.supertypes ∧
    Hierarchy.parent? r (.parameterized raw args) = some p ∧ (v, u) ∈ p.typeVars.zip args

theorem Supplies.parent {d p : Declaration} {v : TypeVar} {u : TypeRef} (h : Supplies r d p v u) :
    Hierarchy.Parent r d p := by
  obtain ⟨raw, args, ht, hp, -⟩ := h
  exact ⟨_, ht, hp⟩

theorem Supplies.mem_typeVars {d p : Declaration} {v : TypeVar} {u : TypeRef}
    (h : Supplies r d p v u) : v ∈ p.typeVars := by
  obtain ⟨raw, args, -, -, hmem⟩ := h
  exact (List.of_mem_zip hmem).1

/-- A step that leads to `p` supplies what its clause does. -/
theorem mem_bindings_iff {s : Hierarchy.Step}
    (hs : s ∈ Hierarchy.steps r Declaration.supertypes target) {v : TypeVar} {u : TypeRef} :
    (v, u) ∈ bindings s ↔ ∃ raw args p, s.supertype = .parameterized raw args ∧
      Hierarchy.parent? r (.parameterized raw args) = some p ∧ (v, u) ∈ p.typeVars.zip args := by
  have hp := Hierarchy.parent?_of_mem_steps hs
  unfold bindings
  split
  · -- the step leads to `p`, and its clause has arguments
    rename_i p raw args hparent hsuper
    rw [hparent, hsuper] at hp
    constructor
    · intro h
      exact ⟨raw, args, p, hsuper, hp.symm, h⟩
    · rintro ⟨raw', args', p', heq, hp', h⟩
      obtain ⟨rfl, rfl⟩ := TypeRef.parameterized.inj (hsuper.symm.trans heq)
      obtain rfl := Option.some.inj (hp.trans hp')
      exact h
  · -- the step leads nowhere, or its clause has no arguments, and then nothing is bound
    rename_i hnone
    constructor
    · intro h
      cases h
    · rintro ⟨raw, args, p, heq, hp', -⟩
      rw [heq, hp'] at hp
      exact absurd heq (hnone p raw args hp)

/-- The last binding on the walk decides. -/
theorem get?_substitution (v : TypeVar) :
    (substitution r target).get? v =
      ((Hierarchy.steps r Declaration.supertypes target).flatMap bindings).reverse.lookup v := by
  unfold substitution
  rw [Substitution.get?_foldl_insert]
  show Option.or _ (List.lookup v []) = _
  rw [List.lookup_nil, Option.or_none]

theorem exists_supplies_of_get? (htarget : r.lookup target.name = some target) {v : TypeVar}
    {u : TypeRef} (h : (substitution r target).get? v = some u) :
    ∃ d p, ReflTransGen (Hierarchy.Parent r) target d ∧ Supplies r d p v u := by
  rw [get?_substitution] at h
  obtain ⟨before, after, heq, -⟩ := List.lookup_eq_some_iff.1 h
  have hmem : (v, u) ∈ (Hierarchy.steps r Declaration.supertypes target).flatMap bindings := by
    rw [← List.mem_reverse, heq]
    simp
  obtain ⟨s, hs, hbind⟩ := List.mem_flatMap.1 hmem
  obtain ⟨raw, args, p, hsuper, hp, hzip⟩ := (mem_bindings_iff hs).1 hbind
  obtain ⟨hvisited, hclause⟩ := Hierarchy.source_of_mem_steps hs
  rw [hsuper] at hclause
  exact ⟨s.type, p, (Hierarchy.mem_visited_iff htarget).1 hvisited, raw, args, hclause, hp, hzip⟩

/-- What a step binds stays bound, to whatever a later step may bind it. -/
theorem exists_get?_of_mem_bindings {s : Hierarchy.Step}
    (hs : s ∈ Hierarchy.steps r Declaration.supertypes target) {v : TypeVar} {u : TypeRef}
    (h : (v, u) ∈ bindings s) : ∃ w, (substitution r target).get? v = some w := by
  rw [get?_substitution]
  cases hl : List.lookup v
      ((Hierarchy.steps r Declaration.supertypes target).flatMap bindings).reverse with
  | some w => exact ⟨w, rfl⟩
  | none =>
    rw [List.lookup_eq_none_iff] at hl
    have := hl (v, u) (List.mem_reverse.2 (List.mem_flatMap.2 ⟨s, hs, h⟩))
    simp at this

theorem exists_get?_of_supplies (htarget : r.lookup target.name = some target)
    {d p : Declaration} (hd : ReflTransGen (Hierarchy.Parent r) target d) {v : TypeVar}
    {u : TypeRef} (h : Supplies r d p v u) : ∃ w, (substitution r target).get? v = some w := by
  obtain ⟨raw, args, hclause, hp, hzip⟩ := h
  obtain ⟨s, hs, rfl, hsuper⟩ :=
    Hierarchy.exists_step ((Hierarchy.mem_visited_iff htarget).2 hd) hclause
  exact exists_get?_of_mem_bindings hs ((mem_bindings_iff hs).2 ⟨raw, args, p, hsuper, hp, hzip⟩)

end Closure

end StubGen
