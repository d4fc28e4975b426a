import StubGen.Proofs.Preorder

/-!
# The chain of superclasses

A type names at most one superclass, so the walk along the superclasses is a line. It goes up level
by level and ends where a superclass is not declared, or where the line comes back to a class that
it has passed. The walk over all supertypes follows the same clauses first: it goes up the whole
line before it turns to any interface.

Main results:

* `superclassAt?_of_getElem?_chain` — the chain lists the superclasses level by level;
* `mem_chain_iff` — a class on some level is on the chain, also where the line loops;
* `chain_prefix_preorder` — the walk over all supertypes starts with the chain.
-/

namespace StubGen.Hierarchy

open Relation

/-- The clause that names the superclass of a type, if there is one. -/
abbrev superclassClause (d : Declaration) : List TypeRef := d.effectiveSuperclass.toList

/-- The declared superclass of a type. -/
def superclass? (r : Registry) (d : Declaration) : Option Declaration :=
  d.effectiveSuperclass.bind (parent? r)

/-- The class that stands a number of levels above a type. -/
def superclassAt? (r : Registry) : Nat → Declaration → Option Declaration
  | 0, d => some d
  | k + 1, d => (superclass? r d).bind (superclassAt? r k)

variable {r : Registry} {d e target : Declaration}

/-! ## One clause at a time -/

theorem superclassClause_eq_cons {t : TypeRef} {ts : List TypeRef}
    (h : superclassClause d = t :: ts) : d.effectiveSuperclass = some t ∧ ts = [] := by
  cases hsuper : d.effectiveSuperclass with
  | none => simp [superclassClause, hsuper] at h
  | some u =>
    simp only [superclassClause, hsuper, Option.toList_some, List.cons.injEq] at h
    exact ⟨by rw [h.1], h.2.symm⟩

/-- The clause for the superclass stands before those for the interfaces. -/
theorem supertypes_of_superclassClause {t : TypeRef} {ts : List TypeRef}
    (h : superclassClause d = t :: ts) : d.supertypes = t :: d.interfaces := by
  obtain ⟨hsuper, -⟩ := superclassClause_eq_cons h
  simp [Declaration.supertypes, hsuper]

theorem superclass?_of_parent? {t : TypeRef} {ts : List TypeRef} {p : Declaration}
    (h : superclassClause d = t :: ts) (hp : parent? r t = some p) :
    superclass? r d = some p := by
  obtain ⟨hsuper, -⟩ := superclassClause_eq_cons h
  simp [superclass?, hsuper, hp]

theorem superclass_of_superclass? {p : Declaration} (h : superclass? r d = some p) :
    Superclass r d p := by
  obtain ⟨t, hsuper, hp⟩ := Option.bind_eq_some_iff.1 h
  exact ⟨t, by simp [hsuper], hp⟩

theorem Explores.eq_nil {next : Declaration → List TypeRef} {seen : List BinaryName}
    {ds : List Declaration} (h : Explores r next seen [] ds) : ds = [] := by
  cases h
  rfl

/-! ## The line upward -/

/-- The types that a walk along the superclasses enters, each at its level. -/
theorem Explores.superclassAt? {seen : List BinaryName} {ts : List TypeRef}
    {ds : List Declaration} (h : Explores r superclassClause seen ts ds)
    (hts : superclassClause d = ts) {k : Nat} (hk : ds[k]? = some e) :
    superclassAt? r (k + 1) d = some e := by
  induction h generalizing d k with
  | done => simp at hk
  | pass _ rest _ =>
    -- there is no second clause, so nothing is entered after the one that is passed
    obtain ⟨-, rfl⟩ := superclassClause_eq_cons hts
    simp [rest.eq_nil] at hk
  | @enter seen t p ts below ds hp _ _ rest ih _ =>
    -- the clause that is entered is the only one, so all that follows is above its superclass
    obtain ⟨-, rfl⟩ := superclassClause_eq_cons hts
    have hup := superclass?_of_parent? hts hp
    rw [rest.eq_nil, List.append_nil] at hk
    rw [Hierarchy.superclassAt?, hup, Option.bind_some]
    cases k with
    | zero => simpa [Hierarchy.superclassAt?] using hk
    | succ k => exact ih rfl (by simpa using hk)

/-- The chain lists the superclasses level by level, the type itself at level zero. -/
theorem superclassAt?_of_getElem?_chain {k : Nat} (hk : (chain r target)[k]? = some e) :
    superclassAt? r k target = some e := by
  have hline := explores_visited r superclassClause target
  cases k with
  | zero => simpa [chain, visited, superclassAt?] using hk
  | succ k =>
    rw [chain, visited, List.getElem?_cons_succ] at hk
    exact hline.superclassAt? rfl hk

theorem reachable_of_superclassAt? {k : Nat} (h : superclassAt? r k d = some e) :
    ReflTransGen (Superclass r) d e := by
  induction k generalizing d with
  | zero =>
    obtain rfl := Option.some.inj h
    exact .refl
  | succ k ih =>
    obtain ⟨p, hp, hrest⟩ := Option.bind_eq_some_iff.1 h
    exact .head (superclass_of_superclass? hp) (ih hrest)

/-- A line that loops has infinitely many levels, but no more classes than the chain. -/
theorem mem_chain_iff (htarget : r.lookup target.name = some target) :
    e ∈ chain r target ↔ ∃ k, superclassAt? r k target = some e := by
  constructor
  · intro he
    obtain ⟨k, hk⟩ := List.mem_iff_getElem?.1 he
    exact ⟨k, superclassAt?_of_getElem?_chain hk⟩
  · rintro ⟨k, hk⟩
    exact (mem_visited_iff htarget).2 (reachable_of_superclassAt? hk)

/-! ## Superclasses before interfaces -/

/-- A walk over all supertypes goes up the line first, for as long as the line goes. -/
theorem Explores.superclasses_first {seen : List BinaryName} {ts : List TypeRef}
    {ds es : List Declaration} (h : Explores r superclassClause seen ts ds)
    (hts : superclassClause d = ts)
    (hall : Explores r Declaration.supertypes seen d.supertypes es) : ds <+: es := by
  induction h generalizing d es with
  | done => exact List.nil_prefix
  | pass _ rest _ =>
    -- the line ends here, whatever the other walk does
    obtain ⟨-, rfl⟩ := superclassClause_eq_cons hts
    rw [rest.eq_nil]
    exact List.nil_prefix
  | @enter seen t p ts below ds hp hnew _ rest ih _ =>
    obtain ⟨-, rfl⟩ := superclassClause_eq_cons hts
    rw [supertypes_of_superclassClause hts] at hall
    cases hall with
    | pass hseen _ => exact absurd (hseen p hp) hnew
    | @enter _ _ q _ below' es' hq _ inner' _ =>
      -- both walks enter the superclass, and go on from its own clauses
      obtain rfl := Option.some.inj (hp.symm.trans hq)
      have hbelow : below <+: below' := ih rfl inner'
      rw [rest.eq_nil, List.append_nil]
      exact (List.cons_prefix_cons.2 ⟨rfl, hbelow⟩).trans (List.prefix_append _ _)

/-- The walk over all supertypes enters the superclasses before any interface. -/
theorem chain_prefix_preorder (r : Registry) (target : Declaration) :
    chain r target <+: preorder r target := by
  have hline := explores_visited r superclassClause target
  have hall := explores_visited r Declaration.supertypes target
  exact List.cons_prefix_cons.2 ⟨rfl, hline.superclasses_first rfl hall⟩

end StubGen.Hierarchy
