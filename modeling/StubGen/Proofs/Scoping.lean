import StubGen.Proofs.Closure
import StubGen.Proofs.Coverage
import StubGen.Proofs.Inheritance.Validation
import StubGen.Proofs.Resolution

/-!
# Variables in scope

In metadata that a compiler would accept, a supertype clause mentions only the parameters of the
type it belongs to and gives an argument for each parameter of the supertype, and a method mentions
only the parameters of its type and its own. Over such a registry, if it is valid, a binding of an
ancestor's variable mentions only variables of a type nearer to the target. So the bindings have no
cycle, every ancestor's variable is bound, and resolution leaves variables of the target alone.

Main results:

* `acyclic_substitution` — the bindings of a type's ancestors have no cycle;
* `mem_typeVars_of_resolve` — what an ancestor's reference resolves to is in the target's scope;
* `no_ancestor_variable_left` — neither cycles nor ancestors' variables in an implementation.
-/

namespace StubGen

open Relation

/-- The arguments of an applied type. -/
def TypeRef.arguments : TypeRef → List TypeRef
  | parameterized _ args => args
  | _ => []

/-- The parameters of a generic method as variables. -/
def Method.typeVars (m : Method) (declaring : BinaryName) : List TypeVar :=
  m.typeParams.map fun p => ⟨p.name, .ofMember declaring m.name⟩

theorem Method.owner_of_mem_typeVars {m : Method} {n : BinaryName} {v : TypeVar}
    (h : v ∈ m.typeVars n) : v.owner = .ofMember n m.name := by
  obtain ⟨p, -, rfl⟩ := List.mem_map.1 h
  rfl

/-- The references in a method's declaration: parameters, result, exceptions and bounds. -/
def Method.references (m : Method) : List TypeRef :=
  m.params ++ m.returns :: m.throws ++ m.typeParams.flatMap (·.bounds)

namespace Registry

/-- Supertype clauses are in scope: each mentions only the parameters of its type, and gives an
argument for every parameter of a generic supertype. -/
structure ClausesScoped (r : Registry) : Prop where
  mentions : ∀ d ∈ r.declarations, ∀ t ∈ d.supertypes, ∀ v ∈ t.vars, v ∈ d.typeVars
  arity : ∀ d ∈ r.declarations, ∀ t ∈ d.supertypes, ∀ p ∈ Hierarchy.parent? r t,
    p.typeParams ≠ [] → t.arguments.length = p.typeParams.length

/-- Methods are in scope: each mentions only the parameters of its type and its own. -/
def MethodsScoped (r : Registry) : Prop :=
  ∀ d ∈ r.declarations, ∀ m ∈ d.methods, ∀ t ∈ m.references, ∀ v ∈ t.vars,
    v ∈ d.typeVars ∨ v ∈ m.typeVars d.name

end Registry

namespace Closure

variable {r : Registry} {target : Declaration}

/-! ## Bindings in scope -/

/-- An argument mentions only parameters of the type that supplies it. -/
theorem Supplies.mentions (hr : r.ClausesScoped) {d p : Declaration} (hd : d ∈ r.declarations)
    {v w : TypeVar} {u : TypeRef} (h : Supplies r d p v u) (hw : w ∈ u.vars) : w ∈ d.typeVars := by
  obtain ⟨raw, args, ht, -, hzip⟩ := h
  apply hr.mentions d hd _ ht
  rw [TypeRef.vars, TypeRef.mem_varsAll_iff]
  exact ⟨u, (List.of_mem_zip hzip).2, hw⟩

/-- Every parameter of a declared supertype gets an argument. -/
theorem exists_supplies_of_parent (hr : r.ClausesScoped) {d p : Declaration}
    (hd : d ∈ r.declarations) (hp : Hierarchy.Parent r d p) {v : TypeVar} (hv : v ∈ p.typeVars) :
    ∃ u, Supplies r d p v u := by
  obtain ⟨t, ht, hpt⟩ := hp
  have hne := Declaration.typeParams_ne_nil_of_mem_typeVars hv
  have hlen := hr.arity d hd t ht p hpt hne
  cases t with
  | parameterized raw args =>
    -- there are as many arguments as parameters, so there is one at the position of `v`
    obtain ⟨i, hi, rfl⟩ := List.mem_iff_getElem.1 hv
    have hvars : p.typeVars.length = p.typeParams.length := List.length_map _
    have hargs : i < args.length := by
      have : args.length = p.typeParams.length := hlen
      omega
    refine ⟨args[i], raw, args, ht, hpt, ?_⟩
    have hzip : i < (p.typeVars.zip args).length := by
      rw [List.length_zip]
      omega
    exact List.mem_iff_getElem.2 ⟨i, hzip, List.getElem_zip⟩
  | named n | array c | var x | wildcard k bs =>
    -- no arguments, but `p` has parameters
    exact absurd (List.length_eq_zero_iff.1 hlen.symm) hne

/-- What an ancestor's variable is bound to belongs to a type nearer to the target. -/
theorem exists_parent_of_mentions (hr : r.ClausesScoped)
    (htarget : r.lookup target.name = some target) {v w : TypeVar}
    (h : (substitution r target).Mentions v w) :
    ∃ d p, ReflTransGen (Hierarchy.Parent r) target d ∧ Hierarchy.Parent r d p ∧
      v ∈ p.typeVars ∧ w ∈ d.typeVars := by
  obtain ⟨u, hu, hw⟩ := h
  obtain ⟨d, p, hd, hsup⟩ := exists_supplies_of_get? htarget hu
  have hdecl := Hierarchy.mem_declarations_of_reachable htarget hd
  exact ⟨d, p, hd, hsup.parent, hsup.mem_typeVars, hsup.mentions hr hdecl hw⟩

/-- Along mentions, owners go down the hierarchy. -/
theorem extends_of_mentions (hr : r.ClausesScoped) (htarget : r.lookup target.name = some target)
    {v w : TypeVar} (h : TransGen (substitution r target).Mentions v w) :
    TransGen (Inheritance.Extends r) w.owner.type v.owner.type := by
  have step : ∀ v w, (substitution r target).Mentions v w →
      Inheritance.Extends r w.owner.type v.owner.type := by
    intro v w hvw
    obtain ⟨d, p, hd, hp, hv, hw⟩ := exists_parent_of_mentions hr htarget hvw
    have hdecl := Hierarchy.mem_declarations_of_reachable htarget hd
    rw [Declaration.owner_of_mem_typeVars hv, Declaration.owner_of_mem_typeVars hw]
    exact Inheritance.extends_of_parent hdecl hp
  induction h with
  | single hvw => exact .single (step _ _ hvw)
  | tail _ hvw ih => exact .head (step _ _ hvw) ih

theorem acyclic_substitution (hvalid : Inheritance.validate r = .ok ()) (hr : r.ClausesScoped)
    (htarget : r.lookup target.name = some target) : (substitution r target).Acyclic :=
  fun v hv =>
    Inheritance.acyclic_of_validate hvalid v.owner.type (extends_of_mentions hr htarget hv)

/-! ## What resolution leaves -/

/-- Of the variables in scope, only those of the target itself are unbound. -/
theorem eq_target_of_get?_eq_none (hr : r.ClausesScoped)
    (htarget : r.lookup target.name = some target) {d : Declaration}
    (hd : ReflTransGen (Hierarchy.Parent r) target d) {v : TypeVar} (hv : v ∈ d.typeVars)
    (hnone : (substitution r target).get? v = none) : d = target := by
  rcases ReflTransGen.cases_tail hd with heq | ⟨e, he, hp⟩
  · exact heq
  · have hdecl := Hierarchy.mem_declarations_of_reachable htarget he
    obtain ⟨u, hu⟩ := exists_supplies_of_parent hr hdecl hp hv
    obtain ⟨w, hw⟩ := exists_get?_of_supplies htarget he hu
    rw [hnone] at hw
    cases hw

/-- What variables in scope mention is in scope. -/
theorem exists_mem_typeVars_of_mentions (hr : r.ClausesScoped)
    (htarget : r.lookup target.name = some target) {d : Declaration}
    (hd : ReflTransGen (Hierarchy.Parent r) target d) {v w : TypeVar} (hv : v ∈ d.typeVars)
    (h : ReflTransGen (substitution r target).Mentions v w) :
    ∃ e, ReflTransGen (Hierarchy.Parent r) target e ∧ w ∈ e.typeVars := by
  rcases ReflTransGen.cases_tail h with rfl | ⟨x, -, hx⟩
  · exact ⟨d, hd, hv⟩
  · obtain ⟨e, -, he, -, -, hw⟩ := exists_parent_of_mentions hr htarget hx
    exact ⟨e, he, hw⟩

/-- A variable of an ancestor resolves to a reference over the variables of the target. -/
theorem mem_typeVars_of_resolve_var (hvalid : Inheritance.validate r = .ok ())
    (hr : r.ClausesScoped) (htarget : r.lookup target.name = some target) {d : Declaration}
    (hd : ReflTransGen (Hierarchy.Parent r) target d) {v w : TypeVar} (hv : v ∈ d.typeVars)
    (hw : w ∈ ((substitution r target).resolve (.var v)).vars) : w ∈ target.typeVars := by
  obtain ⟨⟨x, hx, hreach⟩, hleft⟩ := Substitution.mem_vars_resolve hw
  obtain rfl := List.mem_singleton.1 hx
  have hnone := hleft.resolve_right (acyclic_substitution hvalid hr htarget w)
  obtain ⟨e, he, hwe⟩ := exists_mem_typeVars_of_mentions hr htarget hd hv hreach
  obtain rfl := eq_target_of_get?_eq_none hr htarget he hwe hnone
  exact hwe

/-- The variables of a generic method are not bound. -/
theorem get?_method_variable (htarget : r.lookup target.name = some target) {m : Method}
    {n : BinaryName} {v : TypeVar} (hv : v ∈ m.typeVars n) :
    (substitution r target).get? v = none := by
  by_contra hbound
  obtain ⟨u, hu⟩ := Option.ne_none_iff_exists'.1 hbound
  obtain ⟨d, p, -, hsup⟩ := exists_supplies_of_get? htarget hu
  have howner := Declaration.owner_of_mem_typeVars hsup.mem_typeVars
  obtain ⟨q, -, rfl⟩ := List.mem_map.1 hv
  cases howner

/-- A reference over the variables of an ancestor and of one of its methods resolves to one over
the variables of the target and of the method. -/
theorem mem_typeVars_of_resolve (hvalid : Inheritance.validate r = .ok ())
    (hr : r.ClausesScoped) (htarget : r.lookup target.name = some target) {d : Declaration}
    (hd : ReflTransGen (Hierarchy.Parent r) target d) {m : Method} {n : BinaryName} {t : TypeRef}
    (ht : ∀ v ∈ t.vars, v ∈ d.typeVars ∨ v ∈ m.typeVars n) {w : TypeVar}
    (hw : w ∈ ((substitution r target).resolve t).vars) :
    w ∈ target.typeVars ∨ w ∈ m.typeVars n := by
  rw [Substitution.resolve_eq_bind, TypeRef.mem_vars_bind] at hw
  obtain ⟨v, hv, hw⟩ := hw
  rcases ht v hv with hv | hv
  · exact .inl (mem_typeVars_of_resolve_var hvalid hr htarget hd hv hw)
  · rw [Substitution.resolve_var_of_none (get?_method_variable htarget hv)] at hw
    obtain rfl := List.mem_singleton.1 hw
    exact .inr hv

end Closure

/-! ## Implementations in scope -/

namespace Members

variable {r : Registry} {target : Declaration}

theorem references_offered (d : Declaration) (m : Method) :
    (offered d m).method.references = m.references := by
  unfold offered
  split <;> rfl

theorem typeVars_offered (d : Declaration) (m : Method) :
    (offered d m).method.typeVars (offered d m).declaring = m.typeVars d.name := by
  unfold offered
  split <;> rfl

/-- A visible method belongs to the target or to something it inherits from. -/
theorem Visible.reachable {d : Declaration} {m : Method} (h : Visible r target d m) :
    ReflTransGen (Hierarchy.Parent r) target d := by
  rcases h.2 with ⟨hd, -⟩ | ⟨hd, -⟩
  · exact hd
  · exact ReflTransGen.mono (fun _ _ => Hierarchy.parent_of_superclass) _ _ hd

theorem visible_of_mem_resolveMethods (htarget : r.lookup target.name = some target)
    {s : Substitution} {c : Candidate} (hc : c ∈ resolveMethods r s target) :
    ∃ d m, Visible r target d m ∧ c = offered d m := by
  rw [resolveMethods_eq_kept] at hc
  exact (mem_offers_iff htarget).1 (Collector.mem_of_mem_kept hc)

/-- Over a valid registry whose metadata is in scope, resolution never comes back to a variable it
is expanding, and every variable in the signature of an implemented method belongs to the target or
to the method. -/
theorem no_ancestor_variable_left (hvalid : Inheritance.validate r = .ok ())
    (hclauses : r.ClausesScoped) (hmethods : r.MethodsScoped) {n : BinaryName}
    (htarget : r.lookup n = some target) :
    let s := Closure.substitution r target
    (s.Acyclic ∧
      (∀ t expanding u, s.Meets t expanding u → ∀ v ∈ u.vars, v ∉ expanding) ∧
      ∀ v u, s.get? v = some u → s.resolve (.var v) = s.resolve u) ∧
    ∀ c ∈ resolveMethods r s target, ∀ t ∈ c.method.references, ∀ v ∈ (s.resolve t).vars,
      v ∈ target.typeVars ∨ v ∈ c.method.typeVars c.declaring := by
  obtain rfl := Registry.name_of_lookup htarget
  intro s
  have hacyclic : s.Acyclic := Closure.acyclic_substitution hvalid hclauses htarget
  refine ⟨⟨hacyclic, ?_, ?_⟩, ?_⟩
  · intro t expanding u hu v hv
    exact hacyclic.not_mem_expanding hu hv
  · intro v u hu
    exact hacyclic.resolve_var hu
  · -- the method is a visible declaration's, and that is where its references are in scope
    intro c hc t ht v hv
    obtain ⟨d, m, hvis, rfl⟩ := visible_of_mem_resolveMethods htarget hc
    rw [references_offered] at ht
    rw [typeVars_offered]
    have hd := Hierarchy.mem_declarations_of_reachable htarget hvis.reachable
    exact Closure.mem_typeVars_of_resolve hvalid hclauses htarget hvis.reachable
      (hmethods d hd m hvis.1 t ht) hv

end Members

/-! ## A generic diamond -/

namespace Diamond

/-- `Base<E>` with a method `<X> put(E, X)`. -/
def base : Declaration :=
  { Declaration.interface ⟨"Base"⟩ with
    typeParams := [{ name := "E" }]
    methods := [{
      name := "put"
      typeParams := [{ name := "X" }]
      params := [.var ⟨"E", .ofType ⟨"Base"⟩⟩, .var ⟨"X", .ofMember ⟨"Base"⟩ "put"⟩] }] }

/-- `Left<L>`, which extends `Base<L>`. -/
def left : Declaration :=
  { Declaration.interface ⟨"Left"⟩ with
    typeParams := [{ name := "L" }]
    interfaces := [.parameterized ⟨"Base"⟩ [.var ⟨"L", .ofType ⟨"Left"⟩⟩]] }

/-- The reference `List<V>` in the scope of `Leaf`. -/
def listOfV : TypeRef := .parameterized ⟨"List"⟩ [.var ⟨"V", .ofType ⟨"Leaf"⟩⟩]

/-- `Leaf<V>`, which extends `Left<List<V>>` and, once more, `Base<List<V>>`. -/
def leaf : Declaration :=
  { Declaration.interface ⟨"Leaf"⟩ with
    typeParams := [{ name := "V" }]
    interfaces := [.parameterized ⟨"Left"⟩ [listOfV], .parameterized ⟨"Base"⟩ [listOfV]] }

/-- The three types. -/
def registry : Registry := ⟨[base, left, leaf]⟩

theorem valid : Inheritance.validate registry = .ok () :=
  Inheritance.validate_eq_ok_of_rank (by decide) registry.names.reverse.idxOf (by decide)

theorem clausesScoped : registry.ClausesScoped := ⟨by decide, by decide⟩

theorem methodsScoped : registry.MethodsScoped := by
  unfold Registry.MethodsScoped
  decide

theorem no_ancestor_variable_left_in_leaf :
    (Inheritance.validate registry = .ok () ∧ registry.ClausesScoped ∧ registry.MethodsScoped ∧
      registry.lookup ⟨"Leaf"⟩ = some leaf) ∧
    let s := Closure.substitution registry leaf
    (s.Acyclic ∧
      (∀ t expanding u, s.Meets t expanding u → ∀ v ∈ u.vars, v ∉ expanding) ∧
      ∀ v u, s.get? v = some u → s.resolve (.var v) = s.resolve u) ∧
    ∀ c ∈ Members.resolveMethods registry s leaf, ∀ t ∈ c.method.references,
      ∀ v ∈ (s.resolve t).vars, v ∈ leaf.typeVars ∨ v ∈ c.method.typeVars c.declaring := by
  have hleaf : registry.lookup ⟨"Leaf"⟩ = some leaf := rfl
  exact ⟨⟨valid, clausesScoped, methodsScoped, hleaf⟩,
    Members.no_ancestor_variable_left valid clausesScoped methodsScoped hleaf⟩

end Diamond

end StubGen
