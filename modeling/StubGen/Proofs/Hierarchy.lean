import StubGen.Hierarchy
import Mathlib.Logic.Relation

/-!
# What a walk over the hierarchy reaches

A walk follows clauses from a type. Whatever order it takes them in, and however the hierarchy joins
or loops, it enters exactly the declared types that a chain of followed clauses leads to, and it
takes a step for every followed clause of every type it enters.

Main results:

* `mem_visited_iff` — the types visited are those reachable from the start;
* `exists_step`, `source_of_mem_steps` — the steps are the followed clauses of the types visited.
-/

namespace StubGen.Hierarchy

open Relation

/-- A followed clause of `d` names the declared type `p`. -/
def Leads (r : Registry) (next : Declaration → List TypeRef) (d p : Declaration) : Prop :=
  ∃ t ∈ next d, parent? r t = some p

/-- `p` is a declared supertype of `d`. -/
abbrev Parent (r : Registry) : Declaration → Declaration → Prop := Leads r Declaration.supertypes

/-- `p` is the declared superclass of `d`. -/
abbrev Superclass (r : Registry) : Declaration → Declaration → Prop :=
  Leads r fun d => d.effectiveSuperclass.toList

variable {r : Registry} {next : Declaration → List TypeRef}

theorem lookup_of_parent? {t : TypeRef} {p : Declaration} (h : parent? r t = some p) :
    r.lookup p.name = some p := by
  obtain ⟨n, -, hn⟩ := Option.bind_eq_some_iff.1 h
  rwa [Registry.name_of_lookup hn]

theorem mem_clauses {d e : Declaration} {t : TypeRef} :
    (e, t) ∈ clauses next d ↔ e = d ∧ t ∈ next d := by
  constructor
  · intro h
    obtain ⟨u, hu, heq⟩ := List.mem_map.1 h
    obtain ⟨rfl, rfl⟩ := Prod.mk.inj heq
    exact ⟨rfl, hu⟩
  · rintro ⟨rfl, ht⟩
    exact List.mem_map_of_mem ht

/-! ## Walks as derivations -/

/-- The steps of a walk from waiting clauses: a clause passes by, or enters a type whose own clauses
then come first. -/
inductive Walks (r : Registry) (next : Declaration → List TypeRef) :
    List BinaryName → List (Declaration × TypeRef) → List Step → Prop
  | done {seen : List BinaryName} : Walks r next seen [] []
  | pass {seen : List BinaryName} {d : Declaration} {t : TypeRef} {p? : Option Declaration}
      {waiting : List (Declaration × TypeRef)} {steps : List Step}
      (hp : parent? r t = p?) (hseen : ∀ p, p? = some p → p.name ∈ seen)
      (rest : Walks r next seen waiting steps) :
      Walks r next seen ((d, t) :: waiting) (⟨d, t, p?, false⟩ :: steps)
  | enter {seen : List BinaryName} {d : Declaration} {t : TypeRef} {p : Declaration}
      {waiting : List (Declaration × TypeRef)} {steps : List Step}
      (hp : parent? r t = some p) (hnew : p.name ∉ seen)
      (rest : Walks r next (p.name :: seen) (clauses next p ++ waiting) steps) :
      Walks r next seen ((d, t) :: waiting) (⟨d, t, some p, true⟩ :: steps)

theorem walks (seen : List BinaryName) (waiting : List (Declaration × TypeRef)) :
    Walks r next seen waiting (walk r next seen waiting) := by
  fun_induction walk r next seen waiting with
  | case1 => exact .done
  | case2 seen d t waiting hp ih => exact .pass hp (by simp) ih
  | case3 seen d t waiting p hp hseen ih => exact .pass hp (by simp [hseen]) ih
  | case4 seen d t waiting p hp hnew ih => exact .enter hp hnew ih

/-- A walk is determined by where it starts: the registry and the names seen decide whether the
clause that is next is passed or entered, and with what the walk goes on. -/
theorem Walks.unique {seen : List BinaryName} {waiting : List (Declaration × TypeRef)}
    {steps steps' : List Step} (h : Walks r next seen waiting steps)
    (h' : Walks r next seen waiting steps') : steps = steps' := by
  induction h generalizing steps' with
  | done =>
    cases h'
    rfl
  | pass hp hseen _ ih =>
    cases h' with
    | pass hp' _ rest' => rw [ih rest', ← hp, hp']
    | enter hp' hnew' _ => exact absurd (hseen _ (hp.symm.trans hp')) hnew'
  | enter hp hnew _ ih =>
    cases h' with
    | pass hp' hseen' _ => exact absurd (hseen' _ (hp'.symm.trans hp)) hnew
    | enter hp' _ rest' =>
      obtain rfl := Option.some.inj (hp.symm.trans hp')
      rw [ih rest']

/-- The types that the steps of a walk enter. -/
abbrev entered (steps : List Step) : List Declaration := steps.filterMap Step.entered?

namespace Walks

variable {seen : List BinaryName} {waiting : List (Declaration × TypeRef)} {steps : List Step}

theorem parent?_eq (h : Walks r next seen waiting steps) {s : Step} (hs : s ∈ steps) :
    s.parent? = parent? r s.supertype := by
  induction h with
  | done => simp at hs
  | pass hp _ _ ih | enter hp _ _ ih =>
    rcases List.mem_cons.1 hs with rfl | hs
    · exact hp.symm
    · exact ih hs

/-- A step is for a clause that was waiting or for one of a type that the walk enters. -/
theorem source (h : Walks r next seen waiting steps) {s : Step} (hs : s ∈ steps) :
    (s.type, s.supertype) ∈ waiting ∨ s.type ∈ entered steps ∧ s.supertype ∈ next s.type := by
  induction h with
  | done => simp at hs
  | pass _ _ _ ih =>
    rcases List.mem_cons.1 hs with rfl | hs
    · exact .inl List.mem_cons_self
    · exact (ih hs).imp (List.mem_cons_of_mem _) id
  | @enter _ _ _ p _ steps _ _ _ ih =>
    show _ ∨ s.type ∈ p :: entered steps ∧ _
    rcases List.mem_cons.1 hs with rfl | hs
    · exact .inl List.mem_cons_self
    -- behind the clause of this step come those of the type just entered and those that were
    -- waiting
    rcases ih hs with hw | ⟨he, hn⟩
    · rcases List.mem_append.1 hw with hc | hw
      · -- a clause of the type just entered
        obtain ⟨rfl, ht⟩ := mem_clauses.1 hc
        exact .inr ⟨List.mem_cons_self, ht⟩
      · exact .inl (List.mem_cons_of_mem _ hw)
    · exact .inr ⟨List.mem_cons_of_mem _ he, hn⟩

/-- Every waiting clause, and every followed clause of a type that the walk enters, has a step. -/
theorem exists_mem (h : Walks r next seen waiting steps) {d : Declaration} {t : TypeRef}
    (hd : (d, t) ∈ waiting ∨ d ∈ entered steps ∧ t ∈ next d) :
    ∃ s ∈ steps, s.type = d ∧ s.supertype = t := by
  induction h with
  | done => simp at hd
  | @pass _ _ _ p? _ steps _ _ _ ih =>
    replace hd : _ ∨ d ∈ entered steps ∧ t ∈ next d := hd
    rcases hd with hw | he
    · rcases List.mem_cons.1 hw with hdt | hw
      · obtain ⟨rfl, rfl⟩ := Prod.mk.inj hdt
        exact ⟨_, List.mem_cons_self, rfl, rfl⟩
      · obtain ⟨s, hs, hst⟩ := ih (.inl hw)
        exact ⟨s, List.mem_cons_of_mem _ hs, hst⟩
    · obtain ⟨s, hs, hst⟩ := ih (.inr he)
      exact ⟨s, List.mem_cons_of_mem _ hs, hst⟩
  | @enter _ _ _ p _ steps _ _ _ ih =>
    -- the clause is the one at hand, or waits still, or belongs to the type just entered or to a
    -- later one
    replace hd : _ ∨ d ∈ p :: entered steps ∧ t ∈ next d := hd
    rcases hd with hw | ⟨he, ht⟩
    · rcases List.mem_cons.1 hw with hdt | hw
      · obtain ⟨rfl, rfl⟩ := Prod.mk.inj hdt
        exact ⟨_, List.mem_cons_self, rfl, rfl⟩
      · obtain ⟨s, hs, hst⟩ := ih (.inl (List.mem_append_right _ hw))
        exact ⟨s, List.mem_cons_of_mem _ hs, hst⟩
    · rcases List.mem_cons.1 he with rfl | he
      · obtain ⟨s, hs, hst⟩ := ih (.inl (List.mem_append_left _ (mem_clauses.2 ⟨rfl, ht⟩)))
        exact ⟨s, List.mem_cons_of_mem _ hs, hst⟩
      · obtain ⟨s, hs, hst⟩ := ih (.inr ⟨he, ht⟩)
        exact ⟨s, List.mem_cons_of_mem _ hs, hst⟩

/-- A step that leads somewhere leads to a type seen before the walk or entered on it. -/
theorem seen_or_entered (h : Walks r next seen waiting steps) {s : Step} {p : Declaration}
    (hs : s ∈ steps) (hp : s.parent? = some p) : p.name ∈ seen ∨ p ∈ entered steps := by
  induction h with
  | done => simp at hs
  | pass _ hseen _ ih =>
    rcases List.mem_cons.1 hs with rfl | hs
    · exact .inl (hseen p hp)
    · exact ih hs
  | @enter _ _ _ q _ steps hq _ rest ih =>
    show _ ∨ p ∈ q :: entered steps
    rcases List.mem_cons.1 hs with rfl | hs
    · obtain rfl := Option.some.inj hp
      exact .inr List.mem_cons_self
    rcases ih hs with hn | he
    · rcases List.mem_cons.1 hn with hname | hn
      · -- one name has one declaration
        have hlp := lookup_of_parent? ((rest.parent?_eq hs).symm.trans hp)
        rw [hname, lookup_of_parent? hq] at hlp
        obtain rfl := Option.some.inj hlp
        exact .inr List.mem_cons_self
      · exact .inl hn
    · exact .inr (List.mem_cons_of_mem _ he)

end Walks

/-! ## The walk from a type -/

theorem exists_step {target d : Declaration} {t : TypeRef} (hd : d ∈ visited r next target)
    (ht : t ∈ next d) : ∃ s ∈ steps r next target, s.type = d ∧ s.supertype = t := by
  apply (walks [target.name] (clauses next target)).exists_mem
  rcases List.mem_cons.1 hd with rfl | he
  · exact .inl (mem_clauses.2 ⟨rfl, ht⟩)
  · exact .inr ⟨he, ht⟩

theorem parent?_of_mem_steps {target : Declaration} {s : Step} (hs : s ∈ steps r next target) :
    s.parent? = parent? r s.supertype :=
  (walks [target.name] (clauses next target)).parent?_eq hs

theorem source_of_mem_steps {target : Declaration} {s : Step} (hs : s ∈ steps r next target) :
    s.type ∈ visited r next target ∧ s.supertype ∈ next s.type := by
  rcases (walks [target.name] (clauses next target)).source hs with hw | ⟨he, hn⟩
  · obtain ⟨hd, ht⟩ := mem_clauses.1 hw
    exact ⟨hd ▸ List.mem_cons_self, hd ▸ ht⟩
  · exact ⟨List.mem_cons_of_mem _ he, hn⟩

/-- What a visited type leads to is visited. -/
theorem mem_visited_of_leads {target d p : Declaration}
    (htarget : r.lookup target.name = some target) (hd : d ∈ visited r next target)
    (hp : Leads r next d p) : p ∈ visited r next target := by
  obtain ⟨t, ht, hpt⟩ := hp
  obtain ⟨s, hs, rfl, rfl⟩ := exists_step hd ht
  have hsp : s.parent? = some p := (parent?_of_mem_steps hs).trans hpt
  rcases (walks [target.name] (clauses next target)).seen_or_entered hs hsp with hn | he
  · -- the clause leads back to the start
    have hlp := lookup_of_parent? hpt
    rw [List.mem_singleton.1 hn, htarget] at hlp
    rw [← Option.some.inj hlp]
    exact List.mem_cons_self
  · exact List.mem_cons_of_mem _ he

/-- Clauses of reachable types only lead to reachable types. -/
theorem Walks.reachable {target : Declaration} {seen : List BinaryName}
    {waiting : List (Declaration × TypeRef)} {steps : List Step}
    (h : Walks r next seen waiting steps)
    (hw : ∀ d t, (d, t) ∈ waiting → ReflTransGen (Leads r next) target d ∧ t ∈ next d)
    {d : Declaration} (hd : d ∈ entered steps) : ReflTransGen (Leads r next) target d := by
  induction h with
  | done => simp at hd
  | pass _ _ _ ih => exact ih (fun d t h => hw d t (List.mem_cons_of_mem _ h)) hd
  | @enter _ e t p _ steps hp _ _ ih =>
    replace hd : d ∈ p :: entered steps := hd
    obtain ⟨he, ht⟩ := hw e t List.mem_cons_self
    have hreach : ReflTransGen (Leads r next) target p := he.tail ⟨t, ht, hp⟩
    rcases List.mem_cons.1 hd with rfl | hd
    · exact hreach
    · refine ih (fun d u h => ?_) hd
      rcases List.mem_append.1 h with hc | h
      · obtain ⟨rfl, hu⟩ := mem_clauses.1 hc
        exact ⟨hreach, hu⟩
      · -- other clauses were waiting before
        exact hw d u (List.mem_cons_of_mem _ h)

/-- A walk from a declared type visits exactly what a chain of followed clauses leads to. -/
theorem mem_visited_iff {target d : Declaration} (htarget : r.lookup target.name = some target) :
    d ∈ visited r next target ↔ ReflTransGen (Leads r next) target d := by
  constructor
  · intro hd
    rcases List.mem_cons.1 hd with rfl | he
    · exact .refl
    · refine (walks [target.name] (clauses next target)).reachable (fun e t h => ?_) he
      obtain ⟨rfl, ht⟩ := mem_clauses.1 h
      exact ⟨.refl, ht⟩
  · intro h
    induction h with
    | refl => exact List.mem_cons_self
    | tail _ hlead ih => exact mem_visited_of_leads htarget ih hlead

theorem lookup_of_reachable {target d : Declaration} (htarget : r.lookup target.name = some target)
    (h : ReflTransGen (Leads r next) target d) : r.lookup d.name = some d := by
  induction h with
  | refl => exact htarget
  | tail _ hlead _ =>
    obtain ⟨t, -, hp⟩ := hlead
    exact lookup_of_parent? hp

theorem mem_declarations_of_reachable {target d : Declaration}
    (htarget : r.lookup target.name = some target) (h : ReflTransGen (Leads r next) target d) :
    d ∈ r.declarations :=
  Registry.mem_of_lookup (lookup_of_reachable htarget h)

theorem parent_of_superclass {d p : Declaration} (h : Superclass r d p) : Parent r d p := by
  obtain ⟨t, ht, hp⟩ := h
  exact ⟨t, List.mem_append_left _ ht, hp⟩

end StubGen.Hierarchy
