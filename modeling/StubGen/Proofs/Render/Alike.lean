import StubGen.Proofs.Except
import StubGen.Proofs.Render
import StubGen.Proofs.Scoping

/-!
# Scopes that write alike

What is written of an implementation is put together from written references. So when references
are changed throughout, and a second scope writes every changed reference as the first one writes
the original, the pieces of the implementation are the same, or the same of them cannot be written.

Main results:

* `Scope.renderResolved_congr` — only the names in a resolved reference matter;
* `Scope.renderName_congr` — only what encloses a type matters for its name;
* `Scope.Alike.pieces` — piece by piece the same is written.
-/

namespace StubGen

/-! ## References of declarations -/

/-- The references in a constructor's declaration: parameters, exceptions and bounds. -/
def Constructor.references (c : Constructor) : List TypeRef :=
  c.params ++ c.throws ++ c.typeParams.flatMap (·.bounds)

/-- The references in a type's declaration outside its clauses and methods. -/
def Declaration.ownReferences (d : Declaration) : List TypeRef :=
  d.typeParams.flatMap (·.bounds) ++ d.constructors.flatMap Constructor.references

/-- The forwarded constructors are the target's own, or the implicit one, which refers to
nothing. -/
theorem Members.mem_ownReferences_of_mem_resolveConstructors {target : Declaration}
    {fs : List Forwarding} (hfs : resolveConstructors target = .ok fs) {f : Forwarding}
    (hf : f ∈ fs) {t : TypeRef} (ht : t ∈ f.constructor.references) :
    t ∈ target.ownReferences := by
  have hdeclared : ∀ c ∈ target.effectiveConstructors, t ∈ c.references →
      t ∈ target.ownReferences := by
    intro c hc hct
    rw [Declaration.effectiveConstructors] at hc
    split at hc
    · obtain rfl := List.mem_singleton.1 hc
      cases hct
    · exact List.mem_append_right _ (List.mem_flatMap.2 ⟨c, hc, hct⟩)
  rw [resolveConstructors] at hfs
  split at hfs
  · cases hfs
    obtain rfl := List.mem_singleton.1 hf
    cases ht
  · split at hfs
    · cases hfs
    · cases hfs
      obtain ⟨c, hc, rfl⟩ := List.mem_map.1 hf
      exact hdeclared c (List.mem_filter.1 hc).1 ht

/-! ## Changed references -/

/-- A generic parameter with the references in its bounds changed. -/
def TypeParam.mapRefs (f : TypeRef → TypeRef) (p : TypeParam) : TypeParam :=
  { p with bounds := p.bounds.map f }

def Constructor.mapRefs (f : TypeRef → TypeRef) (c : Constructor) : Constructor :=
  { c with
    typeParams := c.typeParams.map (·.mapRefs f)
    params := c.params.map f
    throws := c.throws.map f }

def Method.mapRefs (f : TypeRef → TypeRef) (m : Method) : Method :=
  { m with
    typeParams := m.typeParams.map (·.mapRefs f)
    params := m.params.map f
    returns := f m.returns
    throws := m.throws.map f }

/-- The members of an implementation with all references changed. -/
def Members.mapRefs (f : TypeRef → TypeRef) (ms : Members) : Members where
  constructors := ms.constructors.map fun c => { c with constructor := c.constructor.mapRefs f }
  methods := ms.methods.map fun c => { c with method := c.method.mapRefs f }

theorem TypeParam.mapRefs_id (p : TypeParam) : p.mapRefs id = p := by
  rw [mapRefs, List.map_id]

theorem map_mapRefs_id (ps : List TypeParam) : ps.map (·.mapRefs id) = ps := by
  simp only [TypeParam.mapRefs_id, List.map_id']

theorem Members.mapRefs_id (ms : Members) : ms.mapRefs id = ms := by
  simp only [mapRefs, Constructor.mapRefs, Method.mapRefs, map_mapRefs_id, List.map_id, id,
    List.map_id']

/-! ## Names and resolved references -/

namespace Scope

variable {scope scope' : Scope}

/-- The name of a type is written after what is private among the type and all that encloses it. So
two registries that agree on this write the same name, or the same fault. -/
theorem renderName_congr {P : BinaryName → Prop}
    (hclosed : ∀ m e, P m → m.enclosing? = some e → P e)
    (hprivate : ∀ m, P m → (scope'.registry.lookup m).map (·.modifiers.isPrivate) =
      (scope.registry.lookup m).map (·.modifiers.isPrivate)) (n : BinaryName) (hn : P n) :
    scope'.renderName n = scope.renderName n := by
  have hp := hprivate n hn
  cases hd : scope.registry.lookup n with
  | none =>
    rw [hd, Option.map_none, Option.map_eq_none_iff] at hp
    rw [renderName_of_undeclared hp, renderName_of_undeclared hd]
  | some d =>
    rw [hd, Option.map_some, Option.map_eq_some_iff] at hp
    obtain ⟨d', hd', hsame⟩ := hp
    cases hm : n.enclosing? with
    | none => rw [renderName_of_topLevel hm, renderName_of_topLevel hm]
    | some m =>
      -- a private type ends the way outwards, any other one goes on to what encloses it
      cases hflag : d.modifiers.isPrivate with
      | true =>
        rw [renderName_of_isPrivate hd' hm (hsame.trans hflag), renderName_of_isPrivate hd hm hflag]
      | false =>
        rw [renderName_of_not_isPrivate hd' hm (hsame.trans hflag),
          renderName_of_not_isPrivate hd hm hflag,
          renderName_congr hclosed hprivate m (hclosed n m hn hm)]
termination_by n.chars.length
decreasing_by exact BinaryName.length_enclosing?_lt hm

mutual

theorem renderResolved_congr : ∀ {t : TypeRef},
    (∀ n ∈ t.names, scope'.renderName n = scope.renderName n) →
      scope'.renderResolved t = scope.renderResolved t
  | .named n, h => by rw [renderResolved, renderResolved, h n (List.mem_singleton_self n)]
  | .array c, h => by
    have hc : ∀ n ∈ c.names, scope'.renderName n = scope.renderName n := h
    rw [renderResolved, renderResolved, renderResolved_congr hc]
  | .var _, _ => by rw [renderResolved, renderResolved]
  | .wildcard _ bs, h => by
    have hbs : ∀ n ∈ TypeRef.namesAll bs, scope'.renderName n = scope.renderName n := h
    rw [renderResolved, renderResolved, renderAll_congr hbs]
  | .parameterized raw as, h => by
    have has : ∀ n ∈ TypeRef.namesAll as, scope'.renderName n = scope.renderName n :=
      fun n hn => h n (List.mem_cons_of_mem _ hn)
    rw [renderResolved, renderResolved, renderAll_congr has, h raw List.mem_cons_self]

theorem renderAll_congr : ∀ {ts : List TypeRef},
    (∀ n ∈ TypeRef.namesAll ts, scope'.renderName n = scope.renderName n) →
      scope'.renderAll ts = scope.renderAll ts
  | [], _ => by rw [renderAll, renderAll]
  | t :: ts, h => by
    have ht : ∀ n ∈ t.names, scope'.renderName n = scope.renderName n :=
      fun n hn => h n (List.mem_append_left _ hn)
    have hts : ∀ n ∈ TypeRef.namesAll ts, scope'.renderName n = scope.renderName n :=
      fun n hn => h n (List.mem_append_right _ hn)
    rw [renderAll, renderAll, renderResolved_congr ht, renderAll_congr hts]

end

/-! ## References -/

/-- Every reference with `P` resolves in the second scope, after the change `f`, as it does in the
first, to names that both write alike; and `f` keeps what decides the value that a method returns. -/
structure Alike (f : TypeRef → TypeRef) (P : TypeRef → Prop) (scope scope' : Scope) : Prop where
  resolve : ∀ t, P t → scope'.substitution.resolve (f t) = scope.substitution.resolve t
  renderName : ∀ t, P t → ∀ n ∈ (scope.substitution.resolve t).names,
    scope'.renderName n = scope.renderName n
  isObject : ∀ t, (f t).isObject = t.isObject
  defaultValue : ∀ t, Stub.defaultValue (f t) = Stub.defaultValue t

namespace Alike

variable {f : TypeRef → TypeRef} {P : TypeRef → Prop} {t : TypeRef} {ts : List TypeRef}
  {ps : List TypeParam}

theorem render (h : Alike f P scope scope') (ht : P t) :
    scope'.render (f t) = scope.render t := by
  rw [Scope.render, Scope.render, h.resolve t ht]
  exact renderResolved_congr (h.renderName t ht)

theorem renderVariadic (h : Alike f P scope scope') (ht : P t) :
    scope'.renderVariadic (f t) = scope.renderVariadic t := by
  have hnames := h.renderName t ht
  rw [Scope.renderVariadic, Scope.renderVariadic, h.resolve t ht]
  generalize scope.substitution.resolve t = u at hnames ⊢
  cases u with
  | array c =>
    -- the names in an array are those in its component
    have hc : ∀ n ∈ c.names, scope'.renderName n = scope.renderName n := hnames
    show (do return (← scope'.renderResolved c) ++ "...") = _
    rw [renderResolved_congr hc]
  | named n | var v | wildcard k bs | parameterized raw as => exact renderResolved_congr hnames

theorem renderList (h : Alike f P scope scope') (hts : ∀ t ∈ ts, P t) (separator : String) :
    scope'.renderList (ts.map f) separator = scope.renderList ts separator := by
  rw [Scope.renderList, Scope.renderList, Except.mapM_map_congr fun t ht => h.render (hts t ht)]

theorem hasExplicitBounds (h : Alike f P scope scope') (p : TypeParam) :
    (p.mapRefs f).hasExplicitBounds = p.hasExplicitBounds := by
  obtain ⟨name, bounds⟩ := p
  cases bounds with
  | nil => rfl
  | cons b bs =>
    cases bs with
    | nil => exact congrArg (!·) (h.isObject b)
    | cons => rfl

theorem renderTypeParams (h : Alike f P scope scope') (hps : ∀ t ∈ ps.flatMap (·.bounds), P t) :
    scope'.renderTypeParams (ps.map (·.mapRefs f)) = scope.renderTypeParams ps := by
  have hparam : ∀ p ∈ ps, scope'.renderTypeParam (p.mapRefs f) = scope.renderTypeParam p := by
    intro p hp
    have hbounds : ∀ t ∈ p.bounds, P t := fun t ht => hps t (List.mem_flatMap.2 ⟨p, hp, ht⟩)
    rw [Scope.renderTypeParam, Scope.renderTypeParam, h.hasExplicitBounds]
    split
    · show (do return p.name ++ " extends " ++ (← scope'.renderList (p.bounds.map f) " & ")) = _
      rw [h.renderList hbounds]
    · rfl
  rw [Scope.renderTypeParams, Scope.renderTypeParams, List.isEmpty_map, Except.mapM_map_congr hparam]

/-! ## Pieces -/

variable {stub stub' : Stub}

theorem typeParams (h : Alike f P stub.scope stub'.scope)
    (hps : ∀ t ∈ ps.flatMap (·.bounds), P t) :
    stub'.typeParams (ps.map (·.mapRefs f)) = stub.typeParams ps := by
  rw [Stub.typeParams, Stub.typeParams, h.renderTypeParams hps]

/-- The types of parameters are written alike, the variadic one included. -/
theorem parameterTypes (h : Alike f P stub.scope stub'.scope) (varargs : Bool)
    (hts : ∀ t ∈ ts, P t) :
    stub'.parameterTypes varargs (ts.map f) = stub.parameterTypes varargs ts := by
  induction ts with
  | nil => rfl
  | cons t ts ih =>
    have ht := hts t List.mem_cons_self
    -- the last parameter is the only one that may be variadic
    cases ts with
    | nil =>
      show (do return [← if varargs then stub'.scope.renderVariadic (f t)
        else stub'.scope.render (f t)]) = _
      rw [h.renderVariadic ht, h.render ht]
      rfl
    | cons u ts =>
      have hrest := ih fun x hx => hts x (List.mem_cons_of_mem _ hx)
      show (do return (← stub'.scope.render (f t)) ::
        (← stub'.parameterTypes varargs ((u :: ts).map f))) = _
      rw [h.render ht, hrest]
      rfl

theorem parameters (h : Alike f P stub.scope stub'.scope) (hts : ∀ t ∈ ts, P t) (varargs : Bool) :
    stub'.parameters (ts.map f) varargs = stub.parameters ts varargs := by
  rw [Stub.parameters, Stub.parameters, h.parameterTypes varargs hts]

theorem throwsClause (h : Alike f P stub.scope stub'.scope) (hts : ∀ t ∈ ts, P t) :
    stub'.throwsClause (ts.map f) = stub.throwsClause ts := by
  rw [Stub.throwsClause, Stub.throwsClause, List.isEmpty_map, h.renderList hts]

/-- A constructor is written from its type parameters, its parameters and what it throws, all of
which are written alike. -/
theorem constructor (h : Alike f P stub.scope stub'.scope) (hname : stub'.name = stub.name)
    {c : Forwarding} (hc : ∀ t ∈ c.constructor.references, P t) :
    stub'.constructor { c with constructor := c.constructor.mapRefs f } = stub.constructor c := by
  have htypeParams : stub'.typeParams (c.constructor.mapRefs f).typeParams =
      stub.typeParams c.constructor.typeParams :=
    h.typeParams fun t ht => hc t (List.mem_append_right _ ht)
  have hparameters :
      stub'.parameters (c.constructor.mapRefs f).params c.constructor.varargs =
        stub.parameters c.constructor.params c.constructor.varargs :=
    h.parameters (fun t ht => hc t (List.mem_append_left _ (List.mem_append_left _ ht))) _
  have hthrows : stub'.throwsClause (c.constructor.mapRefs f).throws =
      stub.throwsClause c.constructor.throws :=
    h.throwsClause fun t ht => hc t (List.mem_append_left _ (List.mem_append_right _ ht))
  have harity : (c.constructor.mapRefs f).params.length = c.constructor.params.length :=
    List.length_map _
  have hvarargs : (c.constructor.mapRefs f).varargs = c.constructor.varargs := rfl
  rw [Stub.constructor, Stub.constructor, htypeParams, hvarargs, hparameters, hthrows, harity,
    hname]
  rfl

/-- So is a method. What it returns is decided by its return type, as far as `f` leaves it alone. -/
theorem method (h : Alike f P stub.scope stub'.scope) {c : Candidate}
    (hc : ∀ t ∈ c.method.references, P t) :
    stub'.method { c with method := c.method.mapRefs f } = stub.method c := by
  have htypeParams : stub'.typeParams (c.method.mapRefs f).typeParams =
      stub.typeParams c.method.typeParams :=
    h.typeParams fun t ht => hc t (List.mem_append_right _ ht)
  have hreturns : stub'.scope.render (c.method.mapRefs f).returns =
      stub.scope.render c.method.returns :=
    h.render (hc _ (List.mem_append_left _ (List.mem_append_right _ List.mem_cons_self)))
  have hparameters : stub'.parameters (c.method.mapRefs f).params c.method.varargs =
      stub.parameters c.method.params c.method.varargs :=
    h.parameters (fun t ht => hc t (List.mem_append_left _ (List.mem_append_left _ ht))) _
  have hthrows : stub'.throwsClause (c.method.mapRefs f).throws =
      stub.throwsClause c.method.throws :=
    h.throwsClause fun t ht =>
      hc t (List.mem_append_left _ (List.mem_append_right _ (List.mem_cons_of_mem _ ht)))
  have hdefault : Stub.defaultValue (c.method.mapRefs f).returns =
      Stub.defaultValue c.method.returns := h.defaultValue _
  have hvarargs : (c.method.mapRefs f).varargs = c.method.varargs := rfl
  rw [Stub.method, Stub.method, htypeParams, hreturns, hvarargs, hparameters, hthrows, hdefault]
  rfl

theorem constructors (h : Alike f P stub.scope stub'.scope) (hname : stub'.name = stub.name)
    (hinterface : stub'.target.isInterface = stub.target.isInterface) {ms : Members}
    (hms : ∀ c ∈ ms.constructors, ∀ t ∈ c.constructor.references, P t) :
    (stub'.writtenConstructors (ms.mapRefs f)).map stub'.constructor =
      (stub.writtenConstructors ms).map stub.constructor := by
  -- whether a constructor is written does not depend on its references
  have hwritten : stub'.writtenConstructors (ms.mapRefs f) =
      (stub.writtenConstructors ms).map fun c =>
        { c with constructor := c.constructor.mapRefs f } := by
    rw [Stub.writtenConstructors, Stub.writtenConstructors, hinterface, apply_ite (List.map _),
      Members.mapRefs, List.filter_map]
    rfl
  rw [hwritten, List.map_map]
  refine List.map_congr_left fun c hc => h.constructor hname (hms c ?_)
  rw [Stub.writtenConstructors] at hc
  split at hc
  · cases hc
  · exact (List.mem_filter.1 hc).1

theorem methods (h : Alike f P stub.scope stub'.scope) {ms : Members}
    (hms : ∀ c ∈ ms.methods, ∀ t ∈ c.method.references, P t) :
    (ms.mapRefs f).methods.map stub'.method = ms.methods.map stub.method := by
  rw [Members.mapRefs, List.map_map]
  exact List.map_congr_left fun c hc => h.method (hms c hc)

theorem header (h : Alike f P stub.scope stub'.scope) (hname : stub'.name = stub.name)
    (hpackage : stub'.target.package = stub.target.package)
    (hinterface : stub'.target.isInterface = stub.target.isInterface)
    (hparams : stub'.target.typeParams = stub.target.typeParams.map (·.mapRefs f))
    (hsupertype : stub'.scope.renderName stub'.target.name =
      stub.scope.renderName stub.target.name)
    (hbounds : ∀ t ∈ stub.target.typeParams.flatMap (·.bounds), P t) :
    stub'.header = stub.header := by
  have hargs : Scope.renderTypeArgs (stub.target.typeParams.map (·.mapRefs f)) =
      Scope.renderTypeArgs stub.target.typeParams := by
    rw [Scope.renderTypeArgs, Scope.renderTypeArgs, List.isEmpty_map, List.map_map]
    rfl
  rw [Stub.header, Stub.header, hparams, hargs, h.renderTypeParams hbounds, hname, hpackage,
    hinterface, hsupertype]

/-- The pieces of changed members are the same, one by one. -/
theorem pieces (stub stub' : Stub) (h : Alike f P stub.scope stub'.scope)
    (hsuffix : stub'.suffix = stub.suffix) (hname : stub'.target.name = stub.target.name)
    (hkind : stub'.target.kind = stub.target.kind)
    (hparams : stub'.target.typeParams = stub.target.typeParams.map (·.mapRefs f))
    (hsupertype : stub'.scope.renderName stub.target.name =
      stub.scope.renderName stub.target.name)
    (hbounds : ∀ t ∈ stub.target.typeParams.flatMap (·.bounds), P t) (ms : Members)
    (hconstructors : ∀ c ∈ ms.constructors, ∀ t ∈ c.constructor.references, P t)
    (hmethods : ∀ c ∈ ms.methods, ∀ t ∈ c.method.references, P t) :
    stub'.pieces (ms.mapRefs f) = stub.pieces ms := by
  have hstub : stub'.name = stub.name := by rw [Stub.name, Stub.name, hname, hsuffix]
  have hpackage : stub'.target.package = stub.target.package := congrArg BinaryName.package hname
  have hinterface : stub'.target.isInterface = stub.target.isInterface :=
    congrArg TypeKind.isInterface hkind
  have hqualified : stub'.scope.renderName stub'.target.name =
      stub.scope.renderName stub.target.name := by rw [hname, hsupertype]
  rw [Stub.pieces, Stub.pieces, h.header hstub hpackage hinterface hparams hqualified hbounds,
    h.constructors hstub hinterface hconstructors, h.methods hmethods]

end Alike

end Scope

end StubGen
