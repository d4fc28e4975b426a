import StubGen.Generator
import StubGen.Proofs.Render
import StubGen.Proofs.Scoping

/-!
# Identifiers of variables

Two variables of one name are different if their owners are, but source text writes the name alone.
In the signature of an implemented method only two owners are left, the target and the method
itself. So variables are told apart in the text unless the method has a parameter that is named like
a parameter of the target; then the method's parameter captures the target's.

Main results:

* `mem_typeVars_of_mem_mentions` — who owns the variables of an implemented method;
* `identifiers_distinct_iff` — when different variables are written as different identifiers.
-/

namespace StubGen.Members

variable {r : Registry} {target : Declaration}

/-- The variables that occur in the signature of a candidate after resolution. -/
def mentions (s : Substitution) (c : Candidate) : List TypeVar :=
  TypeRef.varsAll (c.method.references.map s.resolve)

theorem mem_mentions {s : Substitution} {c : Candidate} {v : TypeVar} :
    v ∈ mentions s c ↔ ∃ t ∈ c.method.references, v ∈ (s.resolve t).vars := by
  simp only [mentions, TypeRef.mem_varsAll_iff, List.mem_map, exists_exists_and_eq_and]

/-- The variables of an implemented method belong to the target or to the method. -/
theorem mem_typeVars_of_mem_mentions (hvalid : Inheritance.validate r = .ok ())
    (hclauses : r.ClausesScoped) (hmethods : r.MethodsScoped)
    (htarget : r.lookup target.name = some target) {c : Candidate}
    (hc : c ∈ resolveMethods r (Closure.substitution r target) target) {v : TypeVar}
    (hv : v ∈ mentions (Closure.substitution r target) c) :
    v ∈ target.typeVars ∨ v ∈ c.method.typeVars c.declaring := by
  obtain ⟨d, m, hvis, rfl⟩ := visible_of_mem_resolveMethods htarget hc
  obtain ⟨t, ht, hv⟩ := mem_mentions.1 hv
  rw [references_offered] at ht
  rw [typeVars_offered]
  have hd := Hierarchy.mem_declarations_of_reachable htarget hvis.reachable
  exact Closure.mem_typeVars_of_resolve hvalid hclauses htarget hvis.reachable
    (hmethods d hd m hvis.1 t ht) hv

end StubGen.Members

namespace StubGen

/-- A variable of a type is never one of a method, whatever the names are. -/
theorem Declaration.ne_of_mem_typeVars {d : Declaration} {m : Method} {n : BinaryName}
    {v w : TypeVar} (hv : v ∈ d.typeVars) (hw : w ∈ m.typeVars n) : v ≠ w := by
  rintro rfl
  have howner := (owner_of_mem_typeVars hv).symm.trans (Method.owner_of_mem_typeVars hw)
  cases howner

theorem TypeVar.eq_of_name_eq {v w : TypeVar} (howner : v.owner = w.owner)
    (hname : v.name = w.name) : v = w := by
  cases v
  cases w
  simp_all

namespace Scope

/-- A variable is written as its name; its owner does not show. -/
theorem renderResolved_var_eq_iff (scope : Scope) {v w : TypeVar} :
    scope.renderResolved (.var v) = scope.renderResolved (.var w) ↔ v.name = w.name := by
  rw [renderResolved, renderResolved, Except.ok.injEq]

end Scope

namespace Members

/-- Over a valid registry whose metadata is in scope, the variables of an implemented method are
written as different identifiers exactly if no parameter of the target and no parameter of the
method that occur in it have one name. -/
theorem identifiers_distinct_iff (g : Generator)
    (hvalid : Inheritance.validate g.registry = .ok ()) (hclauses : g.registry.ClausesScoped)
    (hmethods : g.registry.MethodsScoped) {n : BinaryName} {target : Declaration}
    (htarget : g.registry.lookup n = some target) {c : Candidate}
    (hc : c ∈ resolveMethods g.registry (g.substitution target) target) :
    let scope := (g.stub target).scope
    let written := mentions (g.substitution target) c
    (∀ v ∈ written, ∀ w ∈ written, v ≠ w →
      scope.renderResolved (.var v) ≠ scope.renderResolved (.var w)) ↔
    ∀ v ∈ written, v ∈ target.typeVars → ∀ w ∈ written, w ∈ c.method.typeVars c.declaring →
      v.name ≠ w.name := by
  obtain rfl := Registry.name_of_lookup htarget
  intro scope written
  -- a variable is written by its name, so the question is when different variables have one name
  simp only [ne_eq, scope.renderResolved_var_eq_iff]
  constructor
  · intro hdistinct v hv hvt w hw hwm
    exact hdistinct v hv w hw (Declaration.ne_of_mem_typeVars hvt hwm)
  · intro hfree v hv w hw hne hname
    -- no owner but the target and the method is left, and each of them names its variables once
    have howner : ∀ x ∈ written, x ∈ target.typeVars ∨ x ∈ c.method.typeVars c.declaring :=
      fun x hx => mem_typeVars_of_mem_mentions hvalid hclauses hmethods htarget hc hx
    rcases howner v hv with hvt | hvm <;> rcases howner w hw with hwt | hwm
    · -- both of the target
      refine hne (TypeVar.eq_of_name_eq ?_ hname)
      rw [Declaration.owner_of_mem_typeVars hvt, Declaration.owner_of_mem_typeVars hwt]
    · exact hfree v hv hvt w hw hwm hname
    · exact hfree w hw hwt v hv hvm hname.symm
    · -- both of the method
      refine hne (TypeVar.eq_of_name_eq ?_ hname)
      rw [Method.owner_of_mem_typeVars hvm, Method.owner_of_mem_typeVars hwm]

end Members

namespace Diamond

/-- The generator over the diamond, with the settings that hold unless others are given. -/
def generator : Generator := ⟨registry, {}⟩

/-- The method `put` as the implementation of `Leaf` gets it. -/
def put : Candidate := Members.offered base (base.methods.head (by decide))

theorem identifiers_distinct_iff_in_put :
    (Inheritance.validate generator.registry = .ok () ∧ generator.registry.ClausesScoped ∧
      generator.registry.MethodsScoped ∧ generator.registry.lookup ⟨"Leaf"⟩ = some leaf ∧
      put ∈ Members.resolveMethods generator.registry (generator.substitution leaf) leaf) ∧
    let scope := (generator.stub leaf).scope
    let written := Members.mentions (generator.substitution leaf) put
    ((∀ v ∈ written, ∀ w ∈ written, v ≠ w →
      scope.renderResolved (.var v) ≠ scope.renderResolved (.var w)) ↔
    ∀ v ∈ written, v ∈ leaf.typeVars → ∀ w ∈ written, w ∈ put.method.typeVars put.declaring →
      v.name ≠ w.name) := by
  have hleaf : generator.registry.lookup ⟨"Leaf"⟩ = some leaf := rfl
  have hput :
      put ∈ Members.resolveMethods generator.registry (generator.substitution leaf) leaf := by
    have hall : Members.resolveMethods generator.registry (generator.substitution leaf) leaf =
      [put] := by cbv
    rw [hall]
    exact List.mem_singleton.2 rfl
  exact ⟨⟨valid, clausesScoped, methodsScoped, hleaf, hput⟩,
    Members.identifiers_distinct_iff generator valid clausesScoped methodsScoped hleaf hput⟩

end Diamond

/-! ## A captured variable -/

namespace Capture

/-- `Base<E>` with a method `<T> put(E, T)`. -/
def base : Declaration :=
  { Declaration.interface ⟨"Base"⟩ with
    typeParams := [{ name := "E" }]
    methods := [{
      name := "put"
      modifiers := .ofList [.publicAccess, .abstract]
      typeParams := [{ name := "T" }]
      params := [.var ⟨"E", .ofType ⟨"Base"⟩⟩, .var ⟨"T", .ofMember ⟨"Base"⟩ "put"⟩] }] }

/-- `Leaf<T>`, which extends `Base<T>`. -/
def leaf : Declaration :=
  { Declaration.interface ⟨"Leaf"⟩ with
    typeParams := [{ name := "T" }]
    interfaces := [.parameterized ⟨"Base"⟩ [.var ⟨"T", .ofType ⟨"Leaf"⟩⟩]] }

/-- The generator over the two types. -/
def generator : Generator := ⟨⟨[base, leaf]⟩, {}⟩

/-- The method `put` as the implementation of `Leaf` gets it. -/
def put : Candidate := Members.offered base (base.methods.head (by decide))

theorem valid : Inheritance.validate generator.registry = .ok () :=
  Inheritance.validate_eq_ok_of_rank (by decide) generator.registry.names.reverse.idxOf (by decide)

theorem method_put :
    (generator.stub leaf).method put =
      .ok "\n    @Override\n    public <T> void put(T arg0, T arg1) \x7b\n    \x7d\n" := by
  -- the parameter of `Base` is bound to that of `Leaf`, and the one of the method to nothing
  have hvoid : (generator.stub leaf).scope.render .void = .ok "void" :=
    Scope.render_void (by decide)
  have hfirst : (generator.stub leaf).scope.render (.var ⟨"E", .ofType ⟨"Base"⟩⟩) = .ok "T" := by
    have hresolve : (generator.stub leaf).scope.substitution.resolve
        (.var ⟨"E", .ofType ⟨"Base"⟩⟩) = .var ⟨"T", .ofType ⟨"Leaf"⟩⟩ := by cbv
    exact Scope.render_of_resolve hresolve
  have hsecond : (generator.stub leaf).scope.render (.var ⟨"T", .ofMember ⟨"Base"⟩ "put"⟩) =
      .ok "T" := by
    have hresolve : (generator.stub leaf).scope.substitution.resolve
        (.var ⟨"T", .ofMember ⟨"Base"⟩ "put"⟩) = .var ⟨"T", .ofMember ⟨"Base"⟩ "put"⟩ := by cbv
    exact Scope.render_of_resolve hresolve
  -- both are written as `T`
  have hparameters : (generator.stub leaf).parameterTypes false put.method.params =
      .ok ["T", "T"] := by
    show (generator.stub leaf).parameterTypes false
      [.var ⟨"E", .ofType ⟨"Base"⟩⟩, .var ⟨"T", .ofMember ⟨"Base"⟩ "put"⟩] = _
    simp only [Stub.parameterTypes, hfirst, hsecond]
    rfl
  have hdefault : Stub.defaultValue .void = none := by decide
  have hreturns : put.method.returns = .void := rfl
  have hvarargs : put.method.varargs = false := rfl
  simp only [Stub.method, hreturns, hvarargs, hdefault, hvoid, Stub.parameters, hparameters]
  rfl

/-- The parameter of `Leaf` and that of `put` are different variables, and `put` is written with one
identifier for both. -/
theorem put_captures_leaf_variable :
    Inheritance.validate generator.registry = .ok () ∧ generator.registry.ClausesScoped ∧
      generator.registry.MethodsScoped ∧
      (∀ d ∈ generator.registry.declarations, (d.typeParams.map (·.name)).Nodup ∧
        ∀ m ∈ d.methods, (m.typeParams.map (·.name)).Nodup) ∧
      generator.registry.lookup ⟨"Leaf"⟩ = some leaf ∧
      put ∈ Members.resolveMethods generator.registry (generator.substitution leaf) leaf ∧
      (∃ v ∈ Members.mentions (generator.substitution leaf) put,
        ∃ w ∈ Members.mentions (generator.substitution leaf) put, v ≠ w ∧
          (generator.stub leaf).scope.renderResolved (.var v) =
            (generator.stub leaf).scope.renderResolved (.var w)) ∧
      (generator.stub leaf).method put =
        .ok "\n    @Override\n    public <T> void put(T arg0, T arg1) \x7b\n    \x7d\n" := by
  have hput : Members.resolveMethods generator.registry (generator.substitution leaf) leaf =
      [put] := by cbv
  have hmentions : Members.mentions (generator.substitution leaf) put =
      [⟨"T", .ofType ⟨"Leaf"⟩⟩, ⟨"T", .ofMember ⟨"Base"⟩ "put"⟩] := by cbv
  refine ⟨valid, ⟨by decide, by decide⟩, ?_, by decide, rfl, ?_, ?_, method_put⟩
  · unfold Registry.MethodsScoped
    decide
  · rw [hput]
    exact List.mem_singleton.2 rfl
  · rw [hmentions]
    exact ⟨_, List.mem_cons_self, _, List.mem_cons_of_mem _ List.mem_cons_self, by decide, rfl⟩

end Capture

end StubGen
