import StubGen.Proofs.Scoping

/-!
# Resolution comes to a fixed point

Resolving goes into the parts of a reference and, at a bound variable that is not under expansion,
into what the variable is bound to. A binding may be larger than the variable it replaces, but every
expansion leaves one key fewer to expand, and between two expansions references only get smaller. So
resolution ends under any bindings. What it leaves is unbound or on a cycle of bindings. Without
cycles it leaves nothing to resolve, and the variables under expansion have no say in it.

Main results:

* `wellFounded_calls` — resolution ends, whatever the bindings are;
* `Acyclic.resolveUnder_of_meets` — without cycles the variables under expansion do not matter;
* `Acyclic.resolve_resolve` — without cycles resolving once more changes nothing;
* `resolve_fixed_point` — all of this together.
-/

namespace StubGen.Substitution

open Relation

variable {s : Substitution}

/-! ## Resolution ends -/

/-- Resolving the first reference, with the given variables under expansion, resolves the second on
the way. -/
inductive Calls (s : Substitution) : List TypeVar × TypeRef → List TypeVar × TypeRef → Prop
  | array {expanding : List TypeVar} {c : TypeRef} : Calls s (expanding, .array c) (expanding, c)
  | bound {expanding : List TypeVar} {k : BoundKind} {bs : List TypeRef} {b : TypeRef}
      (hb : b ∈ bs) : Calls s (expanding, .wildcard k bs) (expanding, b)
  | argument {expanding : List TypeVar} {raw : BinaryName} {as : List TypeRef} {a : TypeRef}
      (ha : a ∈ as) : Calls s (expanding, .parameterized raw as) (expanding, a)
  | expand {expanding : List TypeVar} {v : TypeVar} {u : TypeRef} (hfree : v ∉ expanding)
      (hbound : s.get? v = some u) : Calls s (expanding, .var v) (v :: expanding, u)

/-- What decreases: the keys that are left to expand, and then the reference at hand. -/
noncomputable def measure (s : Substitution) (call : List TypeVar × TypeRef) : Nat × Nat :=
  ((unseen s.keys call.1).length, sizeOf call.2)

theorem measure_of_calls {call call' : List TypeVar × TypeRef} (h : s.Calls call call') :
    Prod.Lex (· < ·) (· < ·) (s.measure call') (s.measure call) := by
  cases h with
  | array =>
    -- into a part of the reference, the keys left are the same
    refine .right _ ?_
    simp only [TypeRef.array.sizeOf_spec]
    omega
  | bound hb =>
    refine .right _ ?_
    have hlt := List.sizeOf_lt_of_mem hb
    simp only [TypeRef.wildcard.sizeOf_spec]
    omega
  | argument ha =>
    refine .right _ ?_
    have hlt := List.sizeOf_lt_of_mem ha
    simp only [TypeRef.parameterized.sizeOf_spec]
    omega
  | expand hfree hbound =>
    -- the binding may be of any size, but its variable is one key fewer to expand
    exact .left _ _ (length_unseen_cons_lt (mem_keys_of_get? hbound) hfree)

theorem wellFounded_calls (s : Substitution) : WellFounded fun call' call => s.Calls call call' := by
  have hlex : WellFounded (Prod.Lex (· < · : Nat → Nat → Prop) (· < · : Nat → Nat → Prop)) :=
    WellFounded.prod_lex Nat.lt_wfRel.wf Nat.lt_wfRel.wf
  exact Subrelation.wf (fun h => measure_of_calls h) (InvImage.wf s.measure hlex)

/-! ## Part by part -/

theorem resolveUnder_array (expanding : List TypeVar) (c : TypeRef) :
    s.resolveUnder expanding (.array c) = .array (s.resolveUnder expanding c) := by
  rw [resolveUnder_eq_bind, TypeRef.bind, ← resolveUnder_eq_bind]

theorem bindAll_resolveUnder (expanding : List TypeVar) (ts : List TypeRef) :
    TypeRef.bindAll (fun v => s.resolveUnder expanding (.var v)) ts =
      ts.map (s.resolveUnder expanding) := by
  rw [TypeRef.bindAll_eq_map]
  exact List.map_congr_left fun t _ => (resolveUnder_eq_bind expanding t).symm

theorem resolveUnder_wildcard (expanding : List TypeVar) (k : BoundKind) (bs : List TypeRef) :
    s.resolveUnder expanding (.wildcard k bs) =
      .wildcard k (bs.map (s.resolveUnder expanding)) := by
  rw [resolveUnder_eq_bind, TypeRef.bind, bindAll_resolveUnder]

theorem resolveUnder_parameterized (expanding : List TypeVar) (raw : BinaryName)
    (as : List TypeRef) :
    s.resolveUnder expanding (.parameterized raw as) =
      .parameterized raw (as.map (s.resolveUnder expanding)) := by
  rw [resolveUnder_eq_bind, TypeRef.bind, bindAll_resolveUnder]

theorem resolveUnder_of_bound {expanding : List TypeVar} {v : TypeVar} {u : TypeRef}
    (hfree : v ∉ expanding) (hbound : s.get? v = some u) :
    s.resolveUnder expanding (.var v) = s.resolveUnder (v :: expanding) u := by
  rw [resolveUnder_var, if_neg hfree, hbound]

/-! ## Bindings without cycles -/

/-- A reference without bound variables is resolved already. -/
theorem resolve_of_unbound {t : TypeRef} (ht : ∀ v ∈ t.vars, s.get? v = none) :
    s.resolve t = t := by
  have hvars : s.resolve t = t.bind .var := by
    rw [resolve_eq_bind]
    exact TypeRef.bind_congr fun v hv => resolve_var_of_none (ht v hv)
  rw [hvars, TypeRef.bind_var]

namespace Acyclic

theorem get?_of_resolve (hs : s.Acyclic) {t : TypeRef} {w : TypeVar}
    (hw : w ∈ (s.resolve t).vars) : s.get? w = none :=
  (mem_vars_resolve hw).2.resolve_right (hs w)

theorem resolveUnder_of_meets (hs : s.Acyclic) {t u : TypeRef} {expanding : List TypeVar}
    (hu : s.Meets t expanding u) : s.resolveUnder expanding u = s.resolve u := by
  rw [resolveUnder_eq_bind, resolve_eq_bind]
  apply TypeRef.bind_congr
  intro v hv
  exact hs.resolveUnder_var fun x hx => transGen_of_meets hu hx hv

theorem resolve_resolve (hs : s.Acyclic) (t : TypeRef) :
    s.resolve (s.resolve t) = s.resolve t :=
  resolve_of_unbound fun _ hv => hs.get?_of_resolve hv

end Acyclic

/-- Resolution ends under any bindings; a variable that it leaves is unbound or mentions itself, at
once or through other bindings; and it goes into arrays, wildcards and arguments at any depth of
expansion, and into what a variable is bound to unless the variable is under expansion. Without
cycles of bindings no bound variable is left, a bound variable resolves as its binding does, the
variables under expansion do not matter wherever resolution gets to, and resolving once more changes
nothing. -/
theorem resolve_fixed_point (s : Substitution) :
    (WellFounded fun call' call => s.Calls call call') ∧
    (∀ t, ∀ w ∈ (s.resolve t).vars, s.get? w = none ∨ TransGen s.Mentions w w) ∧
    (∀ expanding c, s.resolveUnder expanding (.array c) = .array (s.resolveUnder expanding c)) ∧
    (∀ expanding k bs, s.resolveUnder expanding (.wildcard k bs) =
      .wildcard k (bs.map (s.resolveUnder expanding))) ∧
    (∀ expanding raw as, s.resolveUnder expanding (.parameterized raw as) =
      .parameterized raw (as.map (s.resolveUnder expanding))) ∧
    (∀ expanding v u, v ∉ expanding → s.get? v = some u →
      s.resolveUnder expanding (.var v) = s.resolveUnder (v :: expanding) u) ∧
    (s.Acyclic →
      (∀ t, ∀ w ∈ (s.resolve t).vars, s.get? w = none) ∧
      (∀ v u, s.get? v = some u → s.resolve (.var v) = s.resolve u) ∧
      (∀ t expanding u, s.Meets t expanding u → s.resolveUnder expanding u = s.resolve u) ∧
      ∀ t, s.resolve (s.resolve t) = s.resolve t) := by
  refine ⟨wellFounded_calls s, fun t w hw => (mem_vars_resolve hw).2, resolveUnder_array,
    resolveUnder_wildcard, resolveUnder_parameterized, ?_, fun hs => ⟨?_, ?_, ?_, ?_⟩⟩
  · exact fun expanding v u hfree hbound => resolveUnder_of_bound hfree hbound
  · exact fun t w hw => hs.get?_of_resolve hw
  · exact fun v u hu => hs.resolve_var hu
  · exact fun t expanding u hu => hs.resolveUnder_of_meets hu
  · exact hs.resolve_resolve

/-- A variable bound to an array over another one, which is bound to the first. -/
def entangled : Substitution :=
  ⟨[(⟨"A", .ofType ⟨"One"⟩⟩, .array (.var ⟨"B", .ofType ⟨"Two"⟩⟩)),
    (⟨"B", .ofType ⟨"Two"⟩⟩, .var ⟨"A", .ofType ⟨"One"⟩⟩)]⟩

example : entangled.resolve (.var ⟨"A", .ofType ⟨"One"⟩⟩) =
    .array (.var ⟨"A", .ofType ⟨"One"⟩⟩) := by
  cbv

end StubGen.Substitution

namespace StubGen.Diamond

open Relation

theorem resolve_fixed_point_in_leaf :
    let s := Closure.substitution registry leaf
    s.Acyclic ∧
      (∀ t, ∀ w ∈ (s.resolve t).vars, s.get? w = none) ∧
      (∀ v u, s.get? v = some u → s.resolve (.var v) = s.resolve u) ∧
      (∀ t expanding u, s.Meets t expanding u → s.resolveUnder expanding u = s.resolve u) ∧
      ∀ t, s.resolve (s.resolve t) = s.resolve t := by
  intro s
  have hleaf : registry.lookup leaf.name = some leaf := rfl
  have hacyclic : s.Acyclic := Closure.acyclic_substitution valid clausesScoped hleaf
  obtain ⟨-, -, -, -, -, -, hresolve⟩ := Substitution.resolve_fixed_point s
  exact ⟨hacyclic, hresolve hacyclic⟩

end StubGen.Diamond
