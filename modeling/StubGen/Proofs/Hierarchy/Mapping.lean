import StubGen.Proofs.Hierarchy

/-!
# Hierarchies that mirror each other

What a walk does from a type depends on the clauses of the types that it reaches, and on where these
clauses lead. If another registry has the same hierarchy from there on, with every declaration and
every clause in a changed form, a walk over it takes the same steps in that form. Declarations may be
changed throughout a registry, as long as each keeps its name and its clauses still name the same
types; and registries may differ in whatever is not reached.

Main results:

* `Mirrors.steps`, `Mirrors.visited` — the walk takes the changed steps and visits the changed types;
* `mirrors_map` — a registry and the same registry with its declarations changed;
* `steps_congr`, `visited_congr` — registries that agree on the names that are reached.
-/

namespace StubGen

/-- The registry with every declaration changed. -/
def Registry.map (f : Declaration → Declaration) (r : Registry) : Registry :=
  ⟨r.declarations.map f⟩

theorem Registry.lookup_map {f : Declaration → Declaration} (hname : ∀ d, (f d).name = d.name)
    (r : Registry) (n : BinaryName) : (r.map f).lookup n = (r.lookup n).map f := by
  have hsame : (fun d : Declaration => d.name == n) ∘ f = fun d => d.name == n := by
    funext d
    rw [Function.comp_apply, hname]
  show (r.declarations.map f).find? _ = _
  rw [List.find?_map, hsame]
  rfl

namespace Hierarchy

open Relation

variable {r r' : Registry} {next : Declaration → List TypeRef} {target : Declaration}
  {f : Declaration → Declaration} {g : TypeRef → TypeRef}

/-- A step with its declarations and its clause changed. -/
def Step.map (f : Declaration → Declaration) (g : TypeRef → TypeRef) (s : Step) : Step :=
  ⟨f s.type, g s.supertype, s.parent?.map f, s.enters⟩

theorem entered?_map (s : Step) : (s.map f g).entered? = s.entered?.map f := by
  show (if s.enters then s.parent?.map f else none) = _
  rw [Step.entered?]
  split <;> rfl

theorem Step.map_id (s : Step) : s.map id id = s := by
  show Step.mk _ _ (s.parent?.map id) _ = s
  rw [Option.map_id]
  rfl

/-- From `target` on, the hierarchy of `r'` is that of `r` with every declaration and every clause
changed. -/
structure Mirrors (r r' : Registry) (next : Declaration → List TypeRef) (target : Declaration)
    (f : Declaration → Declaration) (g : TypeRef → TypeRef) : Prop where
  name : ∀ d, (f d).name = d.name
  followed : ∀ d, ReflTransGen (Leads r next) target d → next (f d) = (next d).map g
  parent : ∀ d, ReflTransGen (Leads r next) target d → ∀ t ∈ next d,
    parent? r' (g t) = (parent? r t).map f

namespace Mirrors

theorem clauses (h : Mirrors r r' next target f g) {d : Declaration}
    (hd : ReflTransGen (Leads r next) target d) :
    clauses next (f d) = (clauses next d).map (Prod.map f g) := by
  rw [Hierarchy.clauses, Hierarchy.clauses, h.followed d hd, List.map_map, List.map_map]
  rfl

/-- Only clauses of reachable types are ever waiting, and those lead to the changed types. -/
theorem walks (h : Mirrors r r' next target f g) {seen : List BinaryName}
    {waiting : List (Declaration × TypeRef)} {steps : List Step}
    (hwaiting : ∀ d t, (d, t) ∈ waiting → ReflTransGen (Leads r next) target d ∧ t ∈ next d)
    (hwalks : Walks r next seen waiting steps) :
    Walks r' next seen (waiting.map (Prod.map f g)) (steps.map (Step.map f g)) := by
  induction hwalks with
  | done => exact .done
  | @pass seen d t p? waiting steps hp hseen _ ih =>
    obtain ⟨hd, ht⟩ := hwaiting d t List.mem_cons_self
    have hparent : parent? r' (g t) = p?.map f := by rw [h.parent d hd t ht, hp]
    refine .pass hparent ?_ (ih fun e u hu => hwaiting e u (List.mem_cons_of_mem _ hu))
    -- the clause leads to the changed declaration of what it led to, which has the name seen before
    intro p hp'
    obtain ⟨q, hq, rfl⟩ := Option.map_eq_some_iff.1 hp'
    rw [h.name]
    exact hseen q hq
  | @enter seen d t p waiting steps hp hnew _ ih =>
    obtain ⟨hd, ht⟩ := hwaiting d t List.mem_cons_self
    have hreach : ReflTransGen (Leads r next) target p := hd.tail ⟨t, ht, hp⟩
    have hparent : parent? r' (g t) = some (f p) := by
      rw [h.parent d hd t ht, hp]
      rfl
    -- clauses of the type just entered are followed from a reachable type, too
    have hlater : ∀ e u, (e, u) ∈ Hierarchy.clauses next p ++ waiting →
        ReflTransGen (Leads r next) target e ∧ u ∈ next e := by
      intro e u hu
      rcases List.mem_append.1 hu with hc | hu
      · obtain ⟨rfl, hu⟩ := mem_clauses.1 hc
        exact ⟨hreach, hu⟩
      · exact hwaiting e u (List.mem_cons_of_mem _ hu)
    -- a changed declaration is seen under the name that it had
    have hrest := ih hlater
    rw [List.map_append, ← h.clauses hreach, ← h.name p] at hrest
    exact .enter hparent (by rwa [h.name]) hrest

/-- The walk over the other hierarchy takes the changed steps. -/
theorem steps (h : Mirrors r r' next target f g) :
    steps r' next (f target) = (steps r next target).map (Step.map f g) := by
  have hstart : ∀ d t, (d, t) ∈ Hierarchy.clauses next target →
      ReflTransGen (Leads r next) target d ∧ t ∈ next d := by
    intro d t hc
    obtain ⟨rfl, ht⟩ := mem_clauses.1 hc
    exact ⟨.refl, ht⟩
  rw [Hierarchy.steps, h.name, h.clauses .refl]
  exact (Hierarchy.walks _ _).unique (h.walks hstart (Hierarchy.walks _ _))

theorem visited (h : Mirrors r r' next target f g) :
    visited r' next (f target) = (visited r next target).map f := by
  have hentered : Step.entered? ∘ Step.map f g = fun s => s.entered?.map f :=
    funext entered?_map
  rw [Hierarchy.visited, Hierarchy.visited, h.steps, List.filterMap_map, hentered, List.map_cons,
    List.map_filterMap]

end Mirrors

/-! ## Changed declarations -/

theorem parent?_map (hname : ∀ d, (f d).name = d.name)
    (hraw : ∀ t, (g t).rawName? = t.rawName?) (t : TypeRef) :
    parent? (r.map f) (g t) = (parent? r t).map f := by
  rw [parent?, parent?, hraw, Option.map_bind]
  exact congrArg t.rawName?.bind (funext fun n => Registry.lookup_map hname r n)

theorem mirrors_map (hname : ∀ d, (f d).name = d.name) (hraw : ∀ t, (g t).rawName? = t.rawName?)
    (hnext : ∀ d, next (f d) = (next d).map g) (r : Registry) (target : Declaration) :
    Mirrors r (r.map f) next target f g where
  name := hname
  followed d _ := hnext d
  parent _ _ t _ := parent?_map hname hraw t

/-! ## Registries that agree -/

section

variable (hsame : ∀ d, ReflTransGen (Leads r next) target d → ∀ t ∈ next d, ∀ n,
  t.rawName? = some n → r'.lookup n = r.lookup n)

include hsame

theorem mirrors_of_agree : Mirrors r r' next target id id where
  name _ := rfl
  followed d _ := (List.map_id _).symm
  parent d hd t ht := by
    show parent? r' t = (parent? r t).map id
    rw [Option.map_id, id, parent?, parent?]
    cases hraw : t.rawName? with
    | none => rfl
    | some n => exact hsame d hd t ht n hraw

/-- What is not reached from a type does not matter for the walk. -/
theorem steps_congr : steps r' next target = steps r next target := by
  have hsteps : steps r' next target = (steps r next target).map (Step.map id id) :=
    (mirrors_of_agree hsame).steps
  rw [hsteps]
  exact (List.map_congr_left fun s _ => s.map_id).trans (List.map_id' _)

theorem visited_congr : visited r' next target = visited r next target := by
  rw [visited, visited, steps_congr hsame]

end

end Hierarchy

end StubGen
