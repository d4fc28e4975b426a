import StubGen.Proofs.Hierarchy

/-!
# A walk as a recursion

A walk keeps the clauses that it still has to follow in one list, and puts those of a type that it
enters in front. Seen from the clauses of a type, that is a recursion: the clauses are followed one
after the other, and right behind the first clause that leads to a type stands the walk over that
type's own clauses. So every type that is visited has its clauses followed once, in their order.

Main results:

* `traverses_steps` — the walk from a type, as a recursion;
* `supertypes_steps` — the steps of a visited type are its clauses.
-/

namespace StubGen.Hierarchy

/-- The names seen after the given types were entered. -/
def after (seen : List BinaryName) (ds : List Declaration) : List BinaryName :=
  (ds.map (·.name)).reverse ++ seen

/-- The steps of a recursive walk over clauses: a clause that enters a type is followed by the walk
over the clauses of that type. -/
inductive Traverses (r : Registry) (next : Declaration → List TypeRef) :
    List BinaryName → List (Declaration × TypeRef) → List Step → Prop
  | done {seen : List BinaryName} : Traverses r next seen [] []
  | pass {seen : List BinaryName} {d : Declaration} {t : TypeRef} {p? : Option Declaration}
      {cs : List (Declaration × TypeRef)} {steps : List Step} (hp : parent? r t = p?)
      (hseen : ∀ p, p? = some p → p.name ∈ seen) (rest : Traverses r next seen cs steps) :
      Traverses r next seen ((d, t) :: cs) (⟨d, t, p?, false⟩ :: steps)
  | enter {seen : List BinaryName} {d : Declaration} {t : TypeRef} {p : Declaration}
      {cs : List (Declaration × TypeRef)} {below steps : List Step} (hp : parent? r t = some p)
      (hnew : p.name ∉ seen) (inner : Traverses r next (p.name :: seen) (clauses next p) below)
      (rest : Traverses r next (after (p.name :: seen) (entered below)) cs steps) :
      Traverses r next seen ((d, t) :: cs) (⟨d, t, some p, true⟩ :: below ++ steps)

variable {r : Registry} {next : Declaration → List TypeRef}

/-! ## Names seen -/

theorem mem_after {seen : List BinaryName} {ds : List Declaration} {n : BinaryName} :
    n ∈ after seen ds ↔ (∃ d ∈ ds, d.name = n) ∨ n ∈ seen := by
  simp [after]

theorem after_append (seen : List BinaryName) (as bs : List Declaration) :
    after seen (as ++ bs) = after (after seen as) bs := by
  simp [after]

theorem after_cons (seen : List BinaryName) (d : Declaration) (ds : List Declaration) :
    after seen (d :: ds) = after (d.name :: seen) ds := by
  simp [after]

theorem entered_append (as bs : List Step) : entered (as ++ bs) = entered as ++ entered bs :=
  List.filterMap_append

/-! ## The recursion -/

/-- A walk over clauses is one over the first of them followed by one over the others. The second
one has seen what the first one entered. -/
theorem Traverses.exists_append {seen : List BinaryName} {cs es : List (Declaration × TypeRef)}
    {steps : List Step} (h : Traverses r next seen (cs ++ es) steps) :
    ∃ as bs, steps = as ++ bs ∧ Traverses r next seen cs as ∧
      Traverses r next (after seen (entered as)) es bs := by
  generalize hcs : cs ++ es = ws at h
  induction h generalizing cs with
  | done =>
    obtain ⟨rfl, rfl⟩ := List.append_eq_nil_iff.1 hcs
    exact ⟨[], [], rfl, .done, .done⟩
  | @pass seen d t p? ws steps hp hseen rest ih =>
    -- nothing of `cs` is left, so the walk that is left is the second one
    cases cs with
    | nil =>
      rw [List.nil_append] at hcs
      exact ⟨[], _, rfl, .done, hcs ▸ .pass hp hseen rest⟩
    | cons c cs =>
      rw [List.cons_append, List.cons.injEq] at hcs
      obtain ⟨rfl, hcs⟩ := hcs
      obtain ⟨as, bs, rfl, has, hbs⟩ := ih hcs
      exact ⟨_ :: as, bs, rfl, .pass hp hseen has, hbs⟩
  | @enter seen d t p ws below steps hp hnew inner rest _ ih =>
    cases cs with
    | nil =>
      rw [List.nil_append] at hcs
      exact ⟨[], _, rfl, .done, hcs ▸ .enter hp hnew inner rest⟩
    | cons c cs =>
      rw [List.cons_append, List.cons.injEq] at hcs
      obtain ⟨rfl, hcs⟩ := hcs
      obtain ⟨as, bs, rfl, has, hbs⟩ := ih hcs
      refine ⟨⟨d, t, some p, true⟩ :: below ++ as, bs, by simp, .enter hp hnew inner has, ?_⟩
      show Traverses r next (after seen (p :: entered (below ++ as))) es bs
      rwa [entered_append, after_cons, after_append]

theorem Walks.traverses {seen : List BinaryName} {waiting : List (Declaration × TypeRef)}
    {steps : List Step} (h : Walks r next seen waiting steps) :
    Traverses r next seen waiting steps := by
  induction h with
  | done => exact .done
  | pass hp hseen _ ih => exact .pass hp hseen ih
  | enter hp hnew _ ih =>
    -- the clauses of the type stand ahead of those that wait, so the walk is cut where they end
    obtain ⟨below, rest, rfl, hbelow, hrest⟩ := ih.exists_append
    exact .enter hp hnew hbelow hrest

theorem traverses_steps (r : Registry) (next : Declaration → List TypeRef) (target : Declaration) :
    Traverses r next [target.name] (clauses next target) (steps r next target) :=
  (walks _ _).traverses

/-! ## The steps of one type -/

theorem Walks.name_notMem_seen {seen : List BinaryName} {waiting : List (Declaration × TypeRef)}
    {steps : List Step} (h : Walks r next seen waiting steps) {d : Declaration}
    (hd : d ∈ entered steps) : d.name ∉ seen := by
  induction h with
  | done => cases hd
  | pass _ _ _ ih => exact ih hd
  | @enter seen _ _ p _ steps _ hnew _ ih =>
    rcases List.mem_cons.1 (show d ∈ p :: entered steps from hd) with rfl | hd
    · exact hnew
    · exact fun hseen => ih hd (List.mem_cons_of_mem _ hseen)

/-- The clauses of one type among others. -/
def clausesOf (e : Declaration) (cs : List (Declaration × TypeRef)) : List TypeRef :=
  (cs.filter fun c => c.1 = e).map (·.2)

theorem clausesOf_cons (e d : Declaration) (t : TypeRef) (cs : List (Declaration × TypeRef)) :
    clausesOf e ((d, t) :: cs) = (if d = e then [t] else []) ++ clausesOf e cs := by
  by_cases h : d = e <;> simp [clausesOf, h]

theorem clausesOf_append (e : Declaration) (cs es : List (Declaration × TypeRef)) :
    clausesOf e (cs ++ es) = clausesOf e cs ++ clausesOf e es := by
  simp [clausesOf]

theorem clausesOf_eq_nil {e : Declaration} {cs : List (Declaration × TypeRef)}
    (h : ∀ c ∈ cs, c.1 ≠ e) : clausesOf e cs = [] := by
  simpa [clausesOf] using h

theorem clausesOf_clauses (d : Declaration) : clausesOf d (clauses next d) = next d := by
  have hall : (clauses next d).filter (fun c => c.1 = d) = clauses next d :=
    List.filter_eq_self.2 fun c hc => decide_eq_true (mem_clauses.1 hc).1
  rw [clausesOf, hall, clauses, List.map_map]
  exact List.map_id _

theorem clausesOf_clauses_of_ne {d e : Declaration} (hne : e ≠ d) :
    clausesOf e (clauses next d) = [] :=
  clausesOf_eq_nil fun _ hc => (mem_clauses.1 hc).1 ▸ hne.symm

/-- The steps of a type are its clauses that were waiting and then, if the walk enters it, those of
its declaration. -/
theorem Walks.clausesOf_steps {seen : List BinaryName}
    {waiting : List (Declaration × TypeRef)} {steps : List Step}
    (h : Walks r next seen waiting steps) (hwaiting : ∀ c ∈ waiting, c.1.name ∈ seen)
    (e : Declaration) :
    clausesOf e (steps.map fun s => (s.type, s.supertype)) =
      clausesOf e waiting ++ if e ∈ entered steps then next e else [] := by
  induction h with
  | done => rfl
  | @pass seen d t p? waiting steps hp hseen rest ih =>
    -- the clause is passed, and if it is of `e` it is the first of those counted on both sides
    have hrest := ih fun c hc => hwaiting c (List.mem_cons_of_mem _ hc)
    rw [List.map_cons, clausesOf_cons, clausesOf_cons, hrest, List.append_assoc]
    rfl
  | @enter seen d t p waiting steps hp hnew rest ih =>
    -- once the type is entered, its own clauses may wait
    have hlater : ∀ c ∈ clauses next p ++ waiting, c.1.name ∈ p.name :: seen := by
      intro c hc
      rcases List.mem_append.1 hc with hc | hc
      · rw [(mem_clauses.1 hc).1]
        exact List.mem_cons_self
      · exact List.mem_cons_of_mem _ (hwaiting c (List.mem_cons_of_mem _ hc))
    show _ = _ ++ if e ∈ p :: entered steps then next e else []
    rw [List.map_cons, clausesOf_cons, ih hlater, clausesOf_append]
    by_cases hpe : e = p
    · -- its clauses come now; none was waiting before, and none is added later
      subst hpe
      have hold : clausesOf e ((d, t) :: waiting) = [] :=
        clausesOf_eq_nil fun c hc heq => hnew (heq ▸ hwaiting c hc)
      have hlate : e ∉ entered steps := fun he => rest.name_notMem_seen he List.mem_cons_self
      rw [clausesOf_cons, List.append_eq_nil_iff] at hold
      rw [clausesOf_clauses, clausesOf_cons, hold.1, hold.2, if_neg hlate,
        if_pos List.mem_cons_self]
      simp
    · -- clauses of another type do not count
      rw [clausesOf_clauses_of_ne hpe, clausesOf_cons, List.nil_append, List.append_assoc]
      simp [hpe]

/-- A visited type has its clauses followed once, in their order. -/
theorem supertypes_steps {target d : Declaration} (hd : d ∈ visited r next target) :
    ((steps r next target).filter fun s => s.type = d).map (·.supertype) = next d := by
  have hwalks : Walks r next [target.name] (clauses next target) (steps r next target) := walks _ _
  have hwaiting : ∀ c ∈ clauses next target, c.1.name ∈ [target.name] := by
    intro c hc
    rw [(mem_clauses.1 hc).1]
    exact List.mem_singleton_self _
  have hsteps := hwalks.clausesOf_steps hwaiting d
  rw [clausesOf, List.filter_map, List.map_map] at hsteps
  refine Eq.trans hsteps ?_
  by_cases htarget : d = target
  · -- the clauses of the target were waiting from the beginning
    subst htarget
    have hlate : d ∉ entered (steps r next d) := fun h =>
      hwalks.name_notMem_seen h (List.mem_singleton_self _)
    rw [clausesOf_clauses, if_neg hlate, List.append_nil]
  · -- those of any other type came with it
    have hentered : d ∈ entered (steps r next target) := (List.mem_cons.1 hd).resolve_left htarget
    rw [clausesOf_clauses_of_ne htarget, if_pos hentered, List.nil_append]

end StubGen.Hierarchy
