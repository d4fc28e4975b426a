import StubGen.Proofs.Preorder
import StubGen.Proofs.Renaming.Registry
import StubGen.Proofs.Scoping

/-!
# Resolution does not see the names of an ancestor's parameters

Over a renamed registry the same clauses bind the renamed variables to the renamed arguments, so a
renamed reference resolves to the renamed result. If the renamed type is a proper ancestor, then all
its parameters are bound, the result mentions none of them, and it is the same.

Main results:

* `Renaming.get?_substitution` — the bindings of the renamed variables;
* `Renaming.Carries.resolve_ref` — resolution commutes with renaming;
* `Renaming.resolve_ref_of_ancestor` — and does not see the names of an ancestor's parameters.
-/

namespace StubGen.Renaming

open Relation Hierarchy

variable {ρ : Renaming} {r : Registry} {d target : Declaration} {v w : TypeVar} {t : TypeRef}

/-! ## Resolution under renamed bindings -/

/-- The substitution `s'` binds the renamed variables to what `s` binds them to, renamed, and the
new names keep apart all variables that a bound one leads to. -/
structure Carries (ρ : Renaming) (s s' : Substitution) : Prop where
  get? : ∀ v, ρ.Apart v → s'.get? (ρ.var v) = (s.get? v).map ρ.ref
  apart : ∀ v u, s.get? v = some u → ∀ w ∈ u.vars, ρ.Apart w

namespace Carries

variable {s s' : Substitution}

/-- Resolution commutes with the renaming as far as the variables are apart. The induction is that
of the resolution; it goes into what a variable is bound to with one variable more under
expansion. -/
theorem resolveUnder_ref (hs : ρ.Carries s s') (expanding : List TypeVar) (t : TypeRef)
    (hexpanding : ∀ v ∈ expanding, ρ.Apart v) (ht : ∀ v ∈ t.vars, ρ.Apart v) :
    s'.resolveUnder (expanding.map ρ.var) (ρ.ref t) = ρ.ref (s.resolveUnder expanding t) := by
  induction expanding, t using Substitution.resolveUnder.induct s with
  | case1 expanding t ih =>
    rw [Substitution.resolveUnder_eq_bind, bind_ref, Substitution.resolveUnder_eq_bind expanding,
      ref_bind]
    refine TypeRef.bind_congr fun v hv => ?_
    rw [Substitution.resolveUnder_var, Substitution.resolveUnder_var]
    by_cases hexp : v ∈ expanding
    · rw [if_pos hexp, if_pos (List.mem_map_of_mem hexp)]
      rfl
    · -- a variable that is not under expansion has no new name in common with one that is
      have hexp' : ρ.var v ∉ expanding.map ρ.var := by
        intro hmem
        obtain ⟨w, hw, hvar⟩ := List.mem_map.1 hmem
        obtain rfl := (hexpanding w hw).injective (ht v hv) hvar
        exact hexp hw
      rw [if_neg hexp, if_neg hexp', hs.get? v (ht v hv)]
      cases hu : s.get? v with
      | none => rfl
      | some u =>
        refine ih v hexp u hu (fun w hw => ?_) (hs.apart v u hu)
        rcases List.mem_cons.1 hw with rfl | hw
        · exact ht w hv
        · exact hexpanding w hw

theorem resolve_ref (hs : ρ.Carries s s') (ht : ∀ v ∈ t.vars, ρ.Apart v) :
    s'.resolve (ρ.ref t) = ρ.ref (s.resolve t) :=
  hs.resolveUnder_ref [] t (fun _ h => nomatch h) ht

end Carries

/-! ## The bindings of a type's ancestors -/

/-- A renamed variable is looked up among renamed ones as its old name was among the old ones, if it
shares its new name with none of them. -/
theorem lookup_map {α β : Type} {f : α → β} {bs : List (TypeVar × α)}
    (h : ∀ b ∈ bs, ρ.var b.1 = ρ.var v → b.1 = v) :
    (bs.map (Prod.map ρ.var f)).lookup (ρ.var v) = (bs.lookup v).map f := by
  induction bs with
  | nil => rfl
  | cons b bs ih =>
    obtain ⟨w, a⟩ := b
    rw [List.map_cons, Prod.map_apply, List.lookup_cons, List.lookup_cons,
      ih fun b hb => h b (List.mem_cons_of_mem _ hb)]
    by_cases hvw : v = w
    · simp [hvw]
    · have hvar : ρ.var v ≠ ρ.var w := fun heq => hvw (h (w, a) List.mem_cons_self heq.symm).symm
      rw [beq_eq_false_iff_ne.2 hvw, beq_eq_false_iff_ne.2 hvar]

/-- A renamed step binds the renamed parameters to the renamed arguments. -/
theorem bindings_step (s : Step) :
    Closure.bindings (ρ.step s) = (Closure.bindings s).map (Prod.map ρ.var ρ.ref) := by
  obtain ⟨type, supertype, parent?, enters⟩ := s
  cases parent? with
  | none => rfl
  | some parent =>
    cases supertype with
    | parameterized raw args =>
      show Closure.bindings ⟨ρ.declaration type, ρ.ref (.parameterized raw args),
        some (ρ.declaration parent), enters⟩ = _
      rw [ref_parameterized]
      show (ρ.declaration parent).typeVars.zip (args.map ρ.ref) = _
      rw [typeVars_declaration, List.zip_map]
      rfl
    | named n | array c | var x | wildcard k bs => rfl

section

variable (htype : r.lookup ρ.type.name = some ρ.type) (hdistinct : ∀ v ∈ ρ.type.typeVars, ρ.Apart v)

include htype hdistinct

theorem apart_of_reachable (htarget : r.lookup target.name = some target)
    (hd : ReflTransGen (Parent r) target d) (hv : v ∈ d.typeVars) : ρ.Apart v :=
  apart_of_mem_typeVars htype hdistinct (lookup_of_reachable htarget hd) hv

/-- The renamed variables are bound, and to the renamed arguments. The walk takes the same steps, so
the bindings are collected in the same order, and the last one of a variable is the last one of its
new name. -/
theorem get?_substitution (hv : ρ.Apart v) :
    (Closure.substitution (ρ.registry r) (ρ.declaration target)).get? (ρ.var v) =
      ((Closure.substitution r target).get? v).map ρ.ref := by
  have hbindings : (steps (ρ.registry r) Declaration.supertypes (ρ.declaration target)).flatMap
        Closure.bindings =
      ((steps r Declaration.supertypes target).flatMap Closure.bindings).map
        (Prod.map ρ.var ρ.ref) := by
    rw [steps_registry supertypes_declaration, List.flatMap_map, List.map_flatMap]
    exact congrArg (List.flatMap · _) (funext bindings_step)
  rw [Closure.get?_substitution, Closure.get?_substitution, hbindings, ← List.map_reverse]
  -- a bound variable is a parameter of some declared type, so the new names keep it apart
  refine lookup_map fun b hb hvar => ?_
  obtain ⟨s, hs, hbind⟩ := List.mem_flatMap.1 (List.mem_reverse.1 hb)
  obtain ⟨raw, args, p, -, hp, hzip⟩ := (Closure.mem_bindings_iff hs).1 hbind
  have hb : ρ.Apart b.1 :=
    apart_of_mem_typeVars htype hdistinct (lookup_of_parent? hp) (List.of_mem_zip hzip).1
  exact hb.injective hv hvar

theorem carries_substitution (htarget : r.lookup target.name = some target)
    (hclauses : r.ClausesScoped) :
    ρ.Carries (Closure.substitution r target)
      (Closure.substitution (ρ.registry r) (ρ.declaration target)) where
  get? _ hv := get?_substitution htype hdistinct hv
  apart v u hu w hw := by
    obtain ⟨d, p, hd, hsup⟩ := Closure.exists_supplies_of_get? htarget hu
    exact apart_of_reachable htype hdistinct htarget hd
      (hsup.mentions hclauses (mem_declarations_of_reachable htarget hd) hw)

end

/-! ## The parameters of a proper ancestor -/

/-- A proper ancestor is another type. -/
theorem name_ne_of_ancestor (hvalid : Inheritance.validate r = .ok ())
    (htarget : r.lookup target.name = some target) (htype : TransGen (Parent r) target ρ.type) :
    target.name ≠ ρ.type.name := by
  intro hname
  have hlookup := lookup_of_reachable htarget htype.to_reflTransGen
  rw [← eq_of_name_eq htarget hlookup hname] at htype
  exact acyclic_parent hvalid target htype

section

variable (hvalid : Inheritance.validate r = .ok ()) (hclauses : r.ClausesScoped)
  (htarget : r.lookup target.name = some target) (htype : TransGen (Parent r) target ρ.type)

include hvalid hclauses htarget htype

/-- Resolution leaves none of its parameters. -/
theorem not_mem_of_resolve (hv : v ∈ ((Closure.substitution r target).resolve t).vars) :
    v ∉ ρ.type.typeVars := by
  intro hmem
  -- what is left is unbound, and in scope only the target's own parameters are
  obtain ⟨-, hleft⟩ := Substitution.mem_vars_resolve hv
  have hnone := hleft.resolve_right (Closure.acyclic_substitution hvalid hclauses htarget v)
  have htarget' :=
    Closure.eq_target_of_get?_eq_none hclauses htarget htype.to_reflTransGen hmem hnone
  exact name_ne_of_ancestor hvalid htarget htype (congrArg Declaration.name htarget').symm

theorem resolve_ref_of_ancestor (hdistinct : ∀ v ∈ ρ.type.typeVars, ρ.Apart v)
    (ht : ∀ v ∈ t.vars, ρ.Apart v) :
    (Closure.substitution (ρ.registry r) (ρ.declaration target)).resolve (ρ.ref t) =
      (Closure.substitution r target).resolve t := by
  have hlookup := lookup_of_reachable htarget htype.to_reflTransGen
  rw [(carries_substitution hlookup hdistinct htarget hclauses).resolve_ref ht]
  exact ref_of_not_mem fun v hv => not_mem_of_resolve hvalid hclauses htarget htype hv

end

end StubGen.Renaming
