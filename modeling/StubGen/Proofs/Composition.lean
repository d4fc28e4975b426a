import StubGen.Proofs.Scoping
import Mathlib.Data.List.Nodup

/-!
# Arguments composed along a chain of clauses

A chain of supertype clauses leads from a type to an ancestor. Each clause gives arguments in the
scope of the type it belongs to; replacing that type's parameters in them by what they come to
there, clause by clause, tells what the ancestor's parameters come to in the scope of the first
type. If all chains to an ancestor agree on this, it is what resolution gives, though the bindings
are collected in one walk and followed only when they are asked for.

Main results:

* `resolve_var_of_composes` — a variable in scope resolves to what any chain makes of it;
* `resolve_ownVariable_of_composes` — the parameters of an ancestor, position by position.
-/

namespace StubGen.Closure

open Relation

/-- The parameters of `d` stand for the arguments, and other variables for themselves. -/
def assignment (d : Declaration) (args : List TypeRef) (v : TypeVar) : TypeRef :=
  ((d.typeVars.zip args).lookup v).getD (.var v)

/-- Some chain of clauses leads from `target` to `d` and composes to these arguments for the
parameters of `d`. -/
inductive Composes (r : Registry) (target : Declaration) : Declaration → List TypeRef → Prop
  | target : Composes r target target (target.typeVars.map .var)
  | parent {d p : Declaration} {args : List TypeRef} {t : TypeRef} (hd : Composes r target d args)
      (ht : t ∈ d.supertypes) (hp : Hierarchy.parent? r t = some p) :
      Composes r target p (t.arguments.map (TypeRef.bind (assignment d args)))

/-- All chains from `target` to a generic ancestor compose to the same arguments. -/
def Coherent (r : Registry) (target : Declaration) : Prop :=
  ∀ d as bs, d.typeParams ≠ [] → Composes r target d as → Composes r target d bs → as = bs

/-- The parameters of a type that is used as a supertype have distinct names. -/
def DistinctParams (r : Registry) : Prop :=
  ∀ d ∈ r.declarations, ∀ t ∈ d.supertypes, ∀ p ∈ Hierarchy.parent? r t,
    (p.typeParams.map (·.name)).Nodup

variable {r : Registry} {target : Declaration}

/-! ## Assignments -/

theorem lookup_zip_of_mem {vs : List TypeVar} (hvs : vs.Nodup) {ts : List TypeRef} {v : TypeVar}
    {t : TypeRef} (h : (v, t) ∈ vs.zip ts) : (vs.zip ts).lookup v = some t := by
  induction vs generalizing ts with
  | nil => simp at h
  | cons w vs ih =>
    cases ts with
    | nil => simp at h
    | cons u ts =>
      rw [List.nodup_cons] at hvs
      rw [List.zip_cons_cons, List.mem_cons] at h
      rw [List.zip_cons_cons, List.lookup_cons]
      -- the pair is at the front, or it is further back, and then the front has another variable
      rcases h with heq | h
      · obtain ⟨rfl, rfl⟩ := Prod.mk.inj heq
        simp
      · have hne : (v == w) = false := by
          rw [beq_eq_false_iff_ne]
          rintro rfl
          exact hvs.1 (List.of_mem_zip h).1
        rw [hne]
        exact ih hvs.2 h

theorem nodup_typeVars {d : Declaration} (h : (d.typeParams.map (·.name)).Nodup) :
    d.typeVars.Nodup := by
  have hnames : d.typeVars.map (·.name) = d.typeParams.map (·.name) := by
    rw [Declaration.typeVars, List.map_map]
    rfl
  rw [← hnames] at h
  exact List.Nodup.of_map _ h

theorem assignment_of_mem_zip {d : Declaration} (h : d.typeVars.Nodup) {args : List TypeRef}
    {v : TypeVar} {t : TypeRef} (hv : (v, t) ∈ d.typeVars.zip args) : assignment d args v = t := by
  rw [assignment, lookup_zip_of_mem h hv]
  rfl

/-- Arguments that are the parameters themselves leave every variable as it is. -/
theorem assignment_self (d : Declaration) (v : TypeVar) :
    assignment d (d.typeVars.map TypeRef.var) v = .var v := by
  unfold assignment
  induction d.typeVars with
  | nil => rfl
  | cons w vs ih =>
    rw [List.map_cons, List.zip_cons_cons, List.lookup_cons]
    by_cases h : v = w
    · simp [h]
    · have hb : (v == w) = false := by simpa using h
      rw [hb]
      exact ih

/-! ## Chains -/

theorem Composes.reachable {d : Declaration} {args : List TypeRef} (h : Composes r target d args) :
    ReflTransGen (Hierarchy.Parent r) target d := by
  induction h with
  | target => exact .refl
  | parent _ ht hp ih => exact ih.tail ⟨_, ht, hp⟩

theorem exists_composes {d : Declaration} (h : ReflTransGen (Hierarchy.Parent r) target d) :
    ∃ args, Composes r target d args := by
  induction h with
  | refl => exact ⟨_, .target⟩
  | tail _ hp ih =>
    obtain ⟨args, hargs⟩ := ih
    obtain ⟨t, ht, hpt⟩ := hp
    exact ⟨_, hargs.parent ht hpt⟩

/-- A variable in the scope of an ancestor resolves to what any chain to the ancestor makes of
it. -/
theorem resolve_var_of_composes (hvalid : Inheritance.validate r = .ok ())
    (hr : r.ClausesScoped) (hdistinct : DistinctParams r)
    (htarget : r.lookup target.name = some target) (hcoherent : Coherent r target) (v : TypeVar)
    {d : Declaration} {args : List TypeRef} (hd : Composes r target d args)
    (hv : v ∈ d.typeVars) :
    (substitution r target).resolve (.var v) = assignment d args v := by
  have hacyclic := acyclic_substitution hvalid hr htarget
  -- a binding only mentions variables for which this is known
  induction v using hacyclic.induction generalizing d args with
  | step v ih =>
    have hne := Declaration.typeParams_ne_nil_of_mem_typeVars hv
    cases hget : (substitution r target).get? v with
    | none =>
      -- only a variable of the target is unbound, and of the target there is nothing to compose
      obtain rfl := eq_target_of_get?_eq_none hr htarget hd.reachable hv hget
      obtain rfl := hcoherent d args _ hne hd .target
      rw [Substitution.resolve_var_of_none hget, assignment_self]
    | some u =>
      -- a clause of `e` supplied the binding, and its parent has the variable, so it is `d`
      obtain ⟨e, p, he, hsup⟩ := exists_supplies_of_get? htarget hget
      have hedecl := Hierarchy.mem_declarations_of_reachable htarget he
      have hpd : p = d := by
        have hlp := Hierarchy.lookup_of_parent? hsup.parent.choose_spec.2
        have hld := Hierarchy.lookup_of_reachable htarget hd.reachable
        exact Declaration.eq_of_mem_typeVars hlp hld hsup.mem_typeVars hv
      subst hpd
      obtain ⟨as, has⟩ := exists_composes he
      obtain ⟨raw, bs, ht, hp, hzip⟩ := id hsup
      -- the chain through the clause that supplied the binding
      obtain rfl := hcoherent p args _ hne hd (has.parent ht hp)
      have hzip' : (v, u.bind (assignment e as)) ∈
          p.typeVars.zip (bs.map (TypeRef.bind (assignment e as))) := by
        rw [List.zip_map_right]
        exact List.mem_map_of_mem hzip
      calc (substitution r target).resolve (.var v)
          = (substitution r target).resolve u := hacyclic.resolve_var hget
        _ = u.bind fun w => (substitution r target).resolve (.var w) :=
            Substitution.resolve_eq_bind u
        _ = u.bind (assignment e as) :=
            TypeRef.bind_congr fun w hw => ih w ⟨u, hget, hw⟩ has (hsup.mentions hr hedecl hw)
        _ = _ := (assignment_of_mem_zip
            (nodup_typeVars (hdistinct e hedecl _ ht p hp)) hzip').symm

/-- Over a valid registry whose clauses are in scope and agree along all chains, every parameter of
every ancestor resolves to what the chain composes to at its position, and that is a reference over
the target's own parameters. The chain need not be the one whose clause supplied the binding:
coherence is what lets every chain speak for all of them. -/
theorem resolve_ownVariable_of_composes (hvalid : Inheritance.validate r = .ok ())
    (hr : r.ClausesScoped) (hdistinct : DistinctParams r) {n : BinaryName}
    (htarget : r.lookup n = some target) (hcoherent : Coherent r target) {d : Declaration}
    {args : List TypeRef} (hd : Composes r target d args) {i : Nat} {p : TypeParam}
    (hp : d.typeParams[i]? = some p) :
    args[i]? = some ((substitution r target).resolve (d.ownVariable p.name)) ∧
      ∀ v ∈ ((substitution r target).resolve (d.ownVariable p.name)).vars,
        v ∈ target.typeVars := by
  obtain rfl := Registry.name_of_lookup htarget
  have hv : d.typeVars[i]? = some ⟨p.name, .ofType d.name⟩ := by
    rw [Declaration.typeVars, List.getElem?_map, hp]
    rfl
  have hmem := List.mem_of_getElem? hv
  refine ⟨?_, fun v => mem_typeVars_of_resolve_var hvalid hr htarget hd.reachable hmem⟩
  rw [Declaration.ownVariable,
    resolve_var_of_composes hvalid hr hdistinct htarget hcoherent _ hd hmem]
  cases hd with
  | target => rw [assignment_self, List.getElem?_map, hv]; rfl
  | @parent e _ as t he ht hpt =>
    -- the chain ends in a clause that has an argument for every parameter of `d`
    have hedecl := Hierarchy.mem_declarations_of_reachable htarget he.reachable
    have hne := Declaration.typeParams_ne_nil_of_mem_typeVars hmem
    have hlen : i < (t.arguments.map (TypeRef.bind (assignment e as))).length := by
      rw [List.length_map, hr.arity e hedecl t ht d hpt hne]
      exact (List.getElem?_eq_some_iff.1 hp).1
    have hzip : (⟨p.name, .ofType d.name⟩,
        (t.arguments.map (TypeRef.bind (assignment e as)))[i]) ∈
        d.typeVars.zip (t.arguments.map (TypeRef.bind (assignment e as))) := by
      refine List.mem_of_getElem? (i := i) ?_
      rw [List.getElem?_zip_eq_some]
      exact ⟨hv, List.getElem?_eq_getElem hlen⟩
    rw [assignment_of_mem_zip (nodup_typeVars (hdistinct e hedecl t ht d hpt)) hzip]
    exact List.getElem?_eq_getElem hlen

end StubGen.Closure

namespace StubGen.Diamond

open Closure

/-- Both chains to `Base` make `E` a list of `V`. -/
theorem eq_of_composes {d : Declaration} {args : List TypeRef}
    (h : Composes registry leaf d args) :
    d = leaf ∧ args = leaf.typeVars.map .var ∨ (d = left ∨ d = base) ∧ args = [listOfV] := by
  induction h with
  | target => exact .inl ⟨rfl, rfl⟩
  | parent hd ht hp ih =>
    rcases ih with ⟨rfl, rfl⟩ | ⟨rfl | rfl, rfl⟩
    · rcases List.mem_cons.1 ht with rfl | ht
      · obtain rfl : left = _ := Option.some.inj hp
        exact .inr ⟨.inl rfl, by decide⟩
      · obtain rfl := List.mem_singleton.1 ht
        obtain rfl : base = _ := Option.some.inj hp
        exact .inr ⟨.inr rfl, by decide⟩
    · obtain rfl := List.mem_singleton.1 ht
      obtain rfl : base = _ := Option.some.inj hp
      exact .inr ⟨.inr rfl, by decide⟩
    · cases ht

theorem coherent : Coherent registry leaf := by
  intro d as bs _ has hbs
  have hleft : leaf ≠ left := by decide
  have hbase : leaf ≠ base := by decide
  rcases eq_of_composes has with ⟨rfl, rfl⟩ | ⟨hd, rfl⟩
  · rcases eq_of_composes hbs with ⟨-, rfl⟩ | ⟨hd, -⟩
    · rfl
    · exact absurd hd (by simp [hleft, hbase])
  · rcases eq_of_composes hbs with ⟨rfl, -⟩ | ⟨-, rfl⟩
    · exact absurd hd (by simp [hleft, hbase])
    · rfl

/-- The longer chain, through `Left`. -/
theorem composes_base : Composes registry leaf base [listOfV] := by
  have hleft : Composes registry leaf left [listOfV] :=
    Composes.target.parent (t := .parameterized ⟨"Left"⟩ [listOfV]) (by decide) rfl
  exact hleft.parent (t := .parameterized ⟨"Base"⟩ [.var ⟨"L", .ofType ⟨"Left"⟩⟩]) (by decide) rfl

theorem resolve_ownVariable_of_base :
    (Inheritance.validate registry = .ok () ∧ registry.ClausesScoped ∧ DistinctParams registry ∧
      registry.lookup ⟨"Leaf"⟩ = some leaf ∧ Coherent registry leaf ∧
      Composes registry leaf base [listOfV] ∧ base.typeParams[0]? = some ⟨"E", []⟩) ∧
    [listOfV][0]? = some ((substitution registry leaf).resolve (base.ownVariable "E")) ∧
      ∀ v ∈ ((substitution registry leaf).resolve (base.ownVariable "E")).vars,
        v ∈ leaf.typeVars := by
  have hdistinct : DistinctParams registry := by
    unfold DistinctParams
    decide
  have hleaf : registry.lookup ⟨"Leaf"⟩ = some leaf := rfl
  have hparam : base.typeParams[0]? = some ⟨"E", []⟩ := rfl
  exact ⟨⟨valid, clausesScoped, hdistinct, hleaf, coherent, composes_base, hparam⟩,
    resolve_ownVariable_of_composes valid clausesScoped hdistinct hleaf coherent composes_base
      hparam⟩

end StubGen.Diamond
