import StubGen.Proofs.Hierarchy.Traversal
import StubGen.Proofs.Scoping

/-!
# The last clause decides

On the walk from a type, every clause that applies a declared generic type binds the parameters of
that type, as far as it has arguments for them. The bindings are made as the clauses come, whether or
not the type has been entered before, and a later one takes the place of an earlier one. So what a
parameter is bound to in the end can be read off the clauses in the order of the walk.

Main results:

* `getElem?_bindings` — the bindings of a step are the arguments of its clause, by position;
* `lookup_bindings_iff` — the last supply in a list of steps is what is found;
* `substitution_last_wins` — which parameters are bound, and to what.
-/

namespace StubGen

/-- A lookup from behind finds the last entry of a key. -/
theorem lookup_reverse_eq_some_iff {α β : Type} [DecidableEq α] {l : List (α × β)} {a : α} {b : β} :
    l.reverse.lookup a = some b ↔
      ∃ i : Nat, l[i]? = some (a, b) ∧ ∀ (j : Nat) (c : β), l[j]? = some (a, c) → j ≤ i := by
  rw [List.lookup_eq_some_iff]
  constructor
  · -- the entries before this one in the reversed list are those behind it
    rintro ⟨as, bs, heq, hfree⟩
    have hl : l = bs.reverse ++ (a, b) :: as.reverse := by
      rw [← List.reverse_reverse l, heq]
      simp
    subst hl
    refine ⟨bs.length, by simp, fun j c hj => ?_⟩
    by_contra hlt
    -- an entry further on is one that the lookup comes to first
    have hj' : as.reverse[j - bs.length - 1]? = some (a, c) := by
      obtain ⟨k, rfl⟩ : ∃ k, j = bs.reverse.length + (k + 1) := by
        rw [List.length_reverse]
        exact ⟨j - bs.length - 1, by omega⟩
      rw [List.getElem?_append_right (by omega), Nat.add_sub_cancel_left,
        List.getElem?_cons_succ] at hj
      rwa [List.length_reverse, Nat.add_sub_cancel_left, Nat.add_sub_cancel]
    have hmem := hfree _ (List.mem_reverse.1 (List.mem_of_getElem? hj'))
    simp at hmem
  · -- in the reversed list no entry of the key comes before the last one
    rintro ⟨i, hi, hmax⟩
    obtain ⟨hlt, hget⟩ := List.getElem?_eq_some_iff.1 hi
    have hl : l = l.take i ++ (a, b) :: l.drop (i + 1) := by
      rw [← hget, ← List.drop_eq_getElem_cons hlt, List.take_append_drop]
    refine ⟨(l.drop (i + 1)).reverse, (l.take i).reverse, ?_, fun p hp => ?_⟩
    · conv_lhs => rw [hl]
      simp
    · obtain ⟨j, hj⟩ := List.mem_iff_getElem?.1 (List.mem_reverse.1 hp)
      rw [List.getElem?_drop] at hj
      rw [bne_iff_ne]
      rintro rfl
      have hle := hmax (i + 1 + j) p.2 hj
      omega

namespace Closure

open Relation Hierarchy

variable {r : Registry} {target : Declaration} {v : TypeVar} {u : TypeRef} {t : TypeRef}

/-! ## Supplies -/

/-- The clause `t` applies a declared type, and `u` is its argument for the parameter `v` at
position `i`. -/
def SuppliesAt (r : Registry) (t : TypeRef) (i : Nat) (v : TypeVar) (u : TypeRef) : Prop :=
  ∃ raw args p q, t = .parameterized raw args ∧ r.lookup raw = some p ∧
    p.typeParams[i]? = some q ∧ v = ⟨q.name, .ofType raw⟩ ∧ args[i]? = some u

/-- Of the arguments of `t` for parameters called `v`, the last is `u`. -/
def SuppliesLast (r : Registry) (t : TypeRef) (v : TypeVar) (u : TypeRef) : Prop :=
  ∃ i, SuppliesAt r t i v u ∧ ∀ j w, SuppliesAt r t j v w → j ≤ i

/-- Of the clauses of the steps, the last with an argument for `v` supplies `u`. -/
def SuppliedLast (r : Registry) (steps : List Step) (v : TypeVar) (u : TypeRef) : Prop :=
  ∃ before s after, steps = before ++ s :: after ∧ SuppliesLast r s.supertype v u ∧
    ∀ s' ∈ after, ∀ i w, ¬ SuppliesAt r s'.supertype i v w

theorem suppliesAt_iff_of_lookup {raw : BinaryName} {args : List TypeRef} {p : Declaration}
    (hraw : r.lookup raw = some p) {i : Nat} :
    SuppliesAt r (.parameterized raw args) i v u ↔
      p.typeVars[i]? = some v ∧ args[i]? = some u := by
  have hvar : p.typeVars[i]? = some v ↔
      ∃ q, p.typeParams[i]? = some q ∧ v = ⟨q.name, .ofType raw⟩ := by
    rw [Declaration.typeVars, List.getElem?_map, Option.map_eq_some_iff, Registry.name_of_lookup hraw]
    simp only [eq_comm]
  rw [hvar]
  constructor
  · rintro ⟨_, _, p', q, heq, hp', hq, hv, hu⟩
    cases heq
    obtain rfl := Option.some.inj (hraw.symm.trans hp')
    exact ⟨⟨q, hq, hv⟩, hu⟩
  · rintro ⟨⟨q, hq, hv⟩, hu⟩
    exact ⟨raw, args, p, q, rfl, hraw, hq, hv, hu⟩

/-- The position of a binding is that of its argument in the clause. -/
theorem getElem?_bindings {s : Step} (hs : s.parent? = parent? r s.supertype) {i : Nat} :
    (bindings s)[i]? = some (v, u) ↔ SuppliesAt r s.supertype i v u := by
  obtain ⟨d, supertype, parent?, enters⟩ := s
  cases supertype with
  | parameterized raw args =>
    replace hs : parent? = r.lookup raw := hs
    subst hs
    cases hraw : r.lookup raw with
    | none =>
      -- nothing is known of the parameters of a type that is not declared
      have hnone : ¬ SuppliesAt r (.parameterized raw args) i v u := by
        rintro ⟨_, _, p, _, heq, hp, -⟩
        cases heq
        rw [hraw] at hp
        cases hp
      simpa [bindings] using hnone
    | some p =>
      show (p.typeVars.zip args)[i]? = some (v, u) ↔ _
      rw [List.getElem?_zip_eq_some, suppliesAt_iff_of_lookup hraw]
  | named n | array c | var x | wildcard k bs =>
    -- a clause without arguments supplies nothing
    constructor
    · intro h
      cases parent? <;> cases h
    · rintro ⟨_, _, _, _, heq, -⟩
      cases heq

theorem lookup_bindings_step {s : Step} (hs : s.parent? = parent? r s.supertype) :
    (bindings s).reverse.lookup v = some u ↔ SuppliesLast r s.supertype v u := by
  rw [lookup_reverse_eq_some_iff]
  simp only [getElem?_bindings hs]
  rfl

theorem lookup_bindings_step_eq_none {s : Step} (hs : s.parent? = parent? r s.supertype) :
    (bindings s).reverse.lookup v = none ↔ ∀ i w, ¬ SuppliesAt r s.supertype i v w := by
  simp only [← getElem?_bindings hs, List.lookup_eq_none_iff, List.mem_reverse]
  constructor
  · intro h i w hi
    have := h _ (List.mem_of_getElem? hi)
    simp at this
  · rintro h ⟨x, w⟩ hmem
    obtain ⟨i, hi⟩ := List.mem_iff_getElem?.1 hmem
    rw [bne_iff_ne]
    rintro rfl
    exact h i w hi

/-! ## One step after the other -/

/-- The last clause of a walk supplies the last argument, or supplies none and leaves it to those
before. -/
theorem suppliedLast_concat {steps : List Step} {s : Step} :
    SuppliedLast r (steps ++ [s]) v u ↔
      SuppliesLast r s.supertype v u ∨
        (∀ i w, ¬ SuppliesAt r s.supertype i v w) ∧ SuppliedLast r steps v u := by
  constructor
  · rintro ⟨before, s', after, heq, hlast, hafter⟩
    -- the clause that supplied it is the last one, or one before it
    rcases List.eq_nil_or_concat after with rfl | ⟨rest, x, rfl⟩
    · obtain rfl := (List.append_inj' heq rfl).2 |> List.singleton_inj.1
      exact .inl hlast
    · rw [List.concat_eq_append, ← List.cons_append, ← List.append_assoc] at heq
      obtain ⟨rfl, hx⟩ := List.append_inj' heq rfl
      obtain rfl := List.singleton_inj.1 hx
      refine .inr ⟨hafter s (by simp), before, s', rest, rfl, hlast, fun x hx => ?_⟩
      exact hafter x (by simp [hx])
  · rintro (hlast | ⟨hnone, before, s', after, rfl, hlast, hafter⟩)
    · exact ⟨steps, s, [], rfl, hlast, by simp⟩
    · refine ⟨before, s', after ++ [s], by simp, hlast, fun x hx => ?_⟩
      rcases List.mem_append.1 hx with hx | hx
      · exact hafter x hx
      · exact List.mem_singleton.1 hx ▸ hnone

theorem lookup_bindings_iff {steps : List Step}
    (hsteps : ∀ s ∈ steps, s.parent? = parent? r s.supertype) :
    (steps.flatMap bindings).reverse.lookup v = some u ↔ SuppliedLast r steps v u := by
  -- the last step decides first, so the induction takes steps off the end
  induction steps using List.reverseRecOn with
  | nil =>
    have hnil : ¬ SuppliedLast r [] v u := by
      rintro ⟨before, s, after, heq, -⟩
      simp at heq
    simpa using hnil
  | append_singleton steps s ih =>
    have hs := hsteps s (by simp)
    rw [List.flatMap_append, List.flatMap_singleton, List.reverse_append, List.lookup_append,
      Option.or_eq_some_iff, lookup_bindings_step hs, lookup_bindings_step_eq_none hs,
      ih fun s h => hsteps s (List.mem_append_left _ h), suppliedLast_concat]

/-! ## The bindings of a type's ancestors -/

theorem get?_substitution_iff :
    (substitution r target).get? v = some u ↔
      SuppliedLast r (steps r Declaration.supertypes target) v u := by
  rw [get?_substitution]
  exact lookup_bindings_iff fun _ hs => parent?_of_mem_steps hs

/-- A clause on the walk that supplies something leaves its parameter bound. -/
theorem exists_get?_of_suppliesAt {s : Step}
    (hs : s ∈ steps r Declaration.supertypes target) {i : Nat}
    (h : SuppliesAt r s.supertype i v u) : ∃ w, (substitution r target).get? v = some w := by
  have hbound : (bindings s)[i]? = some (v, u) :=
    (getElem?_bindings (parent?_of_mem_steps hs)).2 h
  exact exists_get?_of_mem_bindings hs (List.mem_of_getElem? hbound)

/-- The walk from a declared type goes depth first, the superclass ahead of the interfaces; it
follows the clauses of every type that the target inherits from, and of the target, once. A variable
is bound exactly if some of these clauses supplies an argument for it, and then to the argument that
the last of them supplies, at the last position if one clause supplies several. Nothing else is bound:
no variable of a member, and none of a type that is not declared. -/
theorem substitution_last_wins {n : BinaryName} (htarget : r.lookup n = some target) :
    let walk := steps r Declaration.supertypes target
    Traverses r Declaration.supertypes [target.name] (clauses Declaration.supertypes target) walk ∧
    (∀ s ∈ walk, ReflTransGen (Parent r) target s.type) ∧
    (∀ d, ReflTransGen (Parent r) target d →
      (walk.filter fun s => s.type = d).map (·.supertype) =
        d.effectiveSuperclass.toList ++ d.interfaces) ∧
    (∀ v u, (substitution r target).get? v = some u ↔ SuppliedLast r walk v u) ∧
    (∀ v, (∃ u, (substitution r target).get? v = some u) ↔
      ∃ d, ReflTransGen (Parent r) target d ∧ ∃ t ∈ d.supertypes, ∃ i u, SuppliesAt r t i v u) ∧
    ∀ v u, (substitution r target).get? v = some u →
      v.owner.isMemberScoped = false ∧ ∃ p, r.lookup v.owner.type = some p := by
  obtain rfl := Registry.name_of_lookup htarget
  intro walk
  have hreachable : ∀ s ∈ walk, ReflTransGen (Parent r) target s.type := fun s hs =>
    (mem_visited_iff htarget).1 (source_of_mem_steps hs).1
  refine ⟨traverses_steps _ _ _, hreachable, ?_, fun v u => get?_substitution_iff, ?_, ?_⟩
  · exact fun d hd => supertypes_steps ((mem_visited_iff htarget).2 hd)
  · -- a binding comes from a clause on the walk, and every clause is one
    intro v
    constructor
    · rintro ⟨u, hu⟩
      obtain ⟨before, s, after, heq, ⟨i, hi, -⟩, -⟩ := get?_substitution_iff.1 hu
      have hs : s ∈ walk := by
        rw [show walk = before ++ s :: after from heq]
        exact List.mem_append_right _ List.mem_cons_self
      exact ⟨s.type, hreachable s hs, s.supertype, (source_of_mem_steps hs).2, i, u, hi⟩
    · rintro ⟨d, hd, t, ht, i, u, hi⟩
      obtain ⟨s, hs, rfl, rfl⟩ := exists_step ((mem_visited_iff htarget).2 hd) ht
      exact exists_get?_of_suppliesAt hs hi
  · -- only parameters of declared types are bound to arguments
    intro v u hu
    obtain ⟨-, s, -, -, ⟨i, ⟨raw, args, p, q, -, hp, -, rfl, -⟩, -⟩, -⟩ :=
      get?_substitution_iff.1 hu
    exact ⟨rfl, p, hp⟩

end Closure

/-! ## Types that inherit from each other -/

namespace Mutual

open Closure Relation Hierarchy

/-- `Node<T>`, which extends `Node<Integer>`, itself applied, and then `Edge<T>`. -/
def node : Declaration :=
  { Declaration.interface ⟨"Node"⟩ with
    typeParams := [{ name := "T" }]
    interfaces := [.parameterized ⟨"Node"⟩ [.named ⟨"java.lang.Integer"⟩],
      .parameterized ⟨"Edge"⟩ [.var ⟨"T", .ofType ⟨"Node"⟩⟩]] }

/-- `Edge<U>`, which extends `Node<String>`. -/
def edge : Declaration :=
  { Declaration.interface ⟨"Edge"⟩ with
    typeParams := [{ name := "U" }]
    interfaces := [.parameterized ⟨"Node"⟩ [.named ⟨"java.lang.String"⟩]] }

/-- The two types. -/
def registry : Registry := ⟨[node, edge]⟩

theorem substitution_last_wins_in_node :
    registry.lookup ⟨"Node"⟩ = some node ∧
    let walk := steps registry Declaration.supertypes node
    Traverses registry Declaration.supertypes [node.name] (clauses Declaration.supertypes node)
      walk ∧
    (∀ s ∈ walk, ReflTransGen (Parent registry) node s.type) ∧
    (∀ d, ReflTransGen (Parent registry) node d →
      (walk.filter fun s => s.type = d).map (·.supertype) =
        d.effectiveSuperclass.toList ++ d.interfaces) ∧
    (∀ v u, (substitution registry node).get? v = some u ↔ SuppliedLast registry walk v u) ∧
    (∀ v, (∃ u, (substitution registry node).get? v = some u) ↔
      ∃ d, ReflTransGen (Parent registry) node d ∧
        ∃ t ∈ d.supertypes, ∃ i u, SuppliesAt registry t i v u) ∧
    ∀ v u, (substitution registry node).get? v = some u →
      v.owner.isMemberScoped = false ∧ ∃ p, registry.lookup v.owner.type = some p := by
  have hnode : registry.lookup ⟨"Node"⟩ = some node := rfl
  exact ⟨hnode, substitution_last_wins hnode⟩

/-- The clause of `Edge` leads back to `Node`, which was entered first, and comes last. -/
example : (substitution registry node).get? ⟨"T", .ofType ⟨"Node"⟩⟩ =
    some (.named ⟨"java.lang.String"⟩) := by
  cbv

end Mutual

end StubGen
