import StubGen.Proofs.TypeRef
import StubGen.Substitution
import Mathlib.Logic.Relation

/-!
# Resolution along bindings

A binding leads from its variable to the variables of what it is bound to. Resolving a reference
follows these links; the variables it leaves are unbound or lie on a cycle of links. If there is no
cycle, the check for variables under expansion never applies, and resolving a variable is the same
as resolving what it is bound to.

Main results:

* `mem_vars_resolve` — where the variables of a resolved reference come from;
* `Acyclic.not_mem_expanding` — without cycles no variable is met under its own expansion;
* `Acyclic.resolve_var` — without cycles a bound variable resolves as its binding does.
-/

namespace StubGen.Substitution

open Relation

variable {s : Substitution}

/-- `w` occurs in what `v` is bound to. -/
def Mentions (s : Substitution) (v w : TypeVar) : Prop := ∃ u, s.get? v = some u ∧ w ∈ u.vars

/-- No variable is mentioned by its own binding, directly or through others. -/
def Acyclic (s : Substitution) : Prop := ∀ v, ¬ TransGen s.Mentions v v

/-- The references that resolving `t` comes to, each with the variables under expansion there. -/
inductive Meets (s : Substitution) (t : TypeRef) : List TypeVar → TypeRef → Prop
  | start : Meets s t [] t
  | expand {expanding : List TypeVar} {u w : TypeRef} {v : TypeVar} (hu : Meets s t expanding u)
      (hv : v ∈ u.vars) (hfree : v ∉ expanding) (hbound : s.get? v = some w) :
      Meets s t (v :: expanding) w

/-! ## One variable at a time -/

theorem resolveUnder_var (expanding : List TypeVar) (v : TypeVar) :
    s.resolveUnder expanding (.var v) =
      if v ∈ expanding then .var v
      else
        match s.get? v with
        | none => .var v
        | some u => s.resolveUnder (v :: expanding) u := by
  rw [resolveUnder, TypeRef.bind]
  split
  · rfl
  · split <;> rename_i h <;> rw [h]

theorem resolveUnder_eq_bind (expanding : List TypeVar) (t : TypeRef) :
    s.resolveUnder expanding t = t.bind fun v => s.resolveUnder expanding (.var v) := by
  rw [resolveUnder]
  apply TypeRef.bind_congr
  intro v _
  rw [resolveUnder, TypeRef.bind]

theorem resolve_eq_bind (t : TypeRef) : s.resolve t = t.bind fun v => s.resolve (.var v) :=
  resolveUnder_eq_bind [] t

theorem resolve_var_of_none {v : TypeVar} (h : s.get? v = none) : s.resolve (.var v) = .var v := by
  rw [resolve, resolveUnder_var, if_neg List.not_mem_nil, h]

/-! ## The variables that are left -/

/-- A variable left by resolution is reached from the reference. It is unbound, or was under
expansion from the start, or mentions itself. -/
theorem mem_vars_resolveUnder {expanding : List TypeVar} {t : TypeRef} {w : TypeVar}
    (hw : w ∈ (s.resolveUnder expanding t).vars) :
    (∃ v ∈ t.vars, ReflTransGen s.Mentions v w) ∧
      (s.get? w = none ∨ w ∈ expanding ∨ TransGen s.Mentions w w) := by
  induction expanding, t using resolveUnder.induct s with
  | case1 expanding t ih =>
    rw [resolveUnder_eq_bind, TypeRef.mem_vars_bind] at hw
    obtain ⟨v, hv, hw⟩ := hw
    rw [resolveUnder_var] at hw
    split at hw
    · -- the variable was under expansion, and stays
      rename_i hexp
      obtain rfl := List.mem_singleton.1 hw
      exact ⟨⟨w, hv, .refl⟩, .inr (.inl hexp)⟩
    rename_i hexp
    split at hw
    · -- it is unbound, and stays
      rename_i hnone
      obtain rfl := List.mem_singleton.1 hw
      exact ⟨⟨w, hv, .refl⟩, .inl hnone⟩
    · -- it is bound, and `w` is left of what it is bound to
      rename_i u hu
      obtain ⟨⟨x, hx, hreach⟩, hleft⟩ := ih v hexp u hu hw
      refine ⟨⟨v, hv, .head ⟨u, hu, hx⟩ hreach⟩, ?_⟩
      rcases hleft with hnone | hmem | hcycle
      · exact .inl hnone
      · rcases List.mem_cons.1 hmem with rfl | hmem
        · -- back at the variable that was just expanded
          exact .inr (.inr (.head' ⟨u, hu, hx⟩ hreach))
        · exact .inr (.inl hmem)
      · exact .inr (.inr hcycle)

theorem mem_vars_resolve {t : TypeRef} {w : TypeVar} (hw : w ∈ (s.resolve t).vars) :
    (∃ v ∈ t.vars, ReflTransGen s.Mentions v w) ∧
      (s.get? w = none ∨ TransGen s.Mentions w w) := by
  obtain ⟨hreach, hleft⟩ := mem_vars_resolveUnder hw
  simpa using And.intro hreach hleft

/-- A name in a resolved reference stands in the reference or in what some variable is bound to. -/
theorem mem_names_resolveUnder {expanding : List TypeVar} {t : TypeRef} {n : BinaryName}
    (hn : n ∈ (s.resolveUnder expanding t).names) :
    n ∈ t.names ∨ ∃ v u, s.get? v = some u ∧ n ∈ u.names := by
  induction expanding, t using resolveUnder.induct s with
  | case1 expanding t ih =>
    rw [resolveUnder_eq_bind, TypeRef.mem_names_bind] at hn
    rcases hn with hn | ⟨v, hv, hn⟩
    · exact .inl hn
    -- an unbound variable, or one under expansion, stays and has no names
    rw [resolveUnder_var] at hn
    split at hn
    · cases hn
    rename_i hexp
    split at hn
    · cases hn
    · -- the name comes with what the variable is bound to, or with a later binding
      rename_i u hu
      rcases ih v hexp u hu hn with hnu | hbinding
      · exact .inr ⟨v, u, hu, hnu⟩
      · exact .inr hbinding

/-! ## Bindings without cycles -/

namespace Acyclic

/-- The variable at hand is mentioned, directly or through others, by all under expansion. -/
theorem transGen_of_meets {t u : TypeRef} {expanding : List TypeVar}
    (hu : s.Meets t expanding u) {x v : TypeVar} (hx : x ∈ expanding) (hv : v ∈ u.vars) :
    TransGen s.Mentions x v := by
  induction hu generalizing v with
  | start => cases hx
  | @expand expanding u w y hu hy hfree hbound ih =>
    rcases List.mem_cons.1 hx with rfl | hx
    · exact .single ⟨w, hbound, hv⟩
    · exact (ih hx hy).tail ⟨w, hbound, hv⟩

theorem not_mem_expanding (hs : s.Acyclic) {t u : TypeRef} {expanding : List TypeVar}
    (hu : s.Meets t expanding u) {v : TypeVar} (hv : v ∈ u.vars) : v ∉ expanding :=
  fun hmem => hs v (transGen_of_meets hu hmem hv)

/-- Without cycles, what holds of a variable may be derived from what holds of the variables that
its binding mentions. -/
theorem induction (hs : s.Acyclic) {motive : TypeVar → Prop}
    (step : ∀ v, (∀ w, s.Mentions v w → motive w) → motive v) (v : TypeVar) : motive v := by
  -- the variables on the way to `v` are bound and differ from `v`, so they run out
  suffices h : ∀ k expanding v, (unseen s.keys expanding).length = k →
      (∀ x ∈ expanding, TransGen s.Mentions x v) → motive v by
    exact h _ [] v rfl (by simp)
  intro k
  induction k using Nat.strongRecOn with
  | ind k ih =>
    intro expanding v hk hexp
    -- whatever is on the way to `v` is on the way to what it mentions, and so is `v`
    refine step v fun w hw => ?_
    have hfree : v ∉ expanding := fun hv => hs v (hexp v hv)
    obtain ⟨u, hu, -⟩ := id hw
    refine ih _ ?_ (v :: expanding) w rfl fun x hx => ?_
    · rw [← hk]
      exact length_unseen_cons_lt (mem_keys_of_get? hu) hfree
    · rcases List.mem_cons.1 hx with rfl | hx
      · exact .single hw
      · exact (hexp x hx).tail hw

/-- What is under expansion does not matter to a variable that all of it mentions. -/
theorem resolveUnder_var (hs : s.Acyclic) {expanding : List TypeVar} {v : TypeVar}
    (hexp : ∀ x ∈ expanding, TransGen s.Mentions x v) :
    s.resolveUnder expanding (.var v) = s.resolve (.var v) := by
  induction v using hs.induction generalizing expanding with
  | step v ih =>
    have hfree : v ∉ expanding := fun hv => hs v (hexp v hv)
    rw [resolve, Substitution.resolveUnder_var, Substitution.resolveUnder_var, if_neg hfree,
      if_neg List.not_mem_nil]
    split
    · rfl
    · -- the variables that the binding mentions come after `v`, so it matters to none of them
      rename_i u hu
      rw [resolveUnder_eq_bind, resolveUnder_eq_bind [v]]
      apply TypeRef.bind_congr
      intro w hw
      have hvw : s.Mentions v w := ⟨u, hu, hw⟩
      rw [ih w hvw, ih w hvw]
      · intro x hx
        exact List.mem_singleton.1 hx ▸ .single hvw
      · intro x hx
        rcases List.mem_cons.1 hx with rfl | hx
        · exact .single hvw
        · exact (hexp x hx).tail hvw

theorem resolve_var (hs : s.Acyclic) {v : TypeVar} {u : TypeRef} (hu : s.get? v = some u) :
    s.resolve (.var v) = s.resolve u := by
  rw [resolve, Substitution.resolveUnder_var, if_neg List.not_mem_nil, hu]
  show s.resolveUnder [v] u = s.resolve u
  rw [resolveUnder_eq_bind, resolve_eq_bind]
  apply TypeRef.bind_congr
  intro w hw
  refine hs.resolveUnder_var fun x hx => ?_
  exact List.mem_singleton.1 hx ▸ .single ⟨u, hu, hw⟩

end Acyclic

end StubGen.Substitution
