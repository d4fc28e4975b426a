import StubGen.Proofs.Hierarchy
import StubGen.Proofs.Inheritance.Search

/-!
# Valid registries

A registry is valid exactly if every supertype is a class or an interface and no declared type
inherits from itself. The graph that the check builds has the declared types for its nodes and their
declared supertypes for its links, so this is what the search for a cycle decides.

Main results:

* `validate_decides_acyclicity` — which registries are valid, and whom a cycle is blamed on;
* `acyclic_of_validate`, `rawName?_of_validate` — what validity gives for the hierarchy.
-/

namespace StubGen.Inheritance

open Relation

/-- The declared type `n` names the declared type `p` as a supertype. -/
def Extends (r : Registry) (n p : BinaryName) : Prop :=
  (∃ d ∈ r.declarations, d.name = n ∧ ∃ t ∈ d.supertypes, t.rawName? = some p) ∧ p ∈ r.names

variable {r : Registry}

/-! ## The graph of a registry -/

theorem mem_linksOf {d : Declaration} {l : Link} :
    l ∈ linksOf r d ↔
      l.subtype = d.name ∧ (∃ t ∈ d.supertypes, t.rawName? = some l.supertype) ∧
        l.supertype ∈ r.names := by
  simp only [linksOf, List.mem_filterMap, Option.map_eq_some_iff, Registry.mem_names_iff]
  constructor
  · rintro ⟨s, ⟨t, ht, hts⟩, e, he, rfl⟩
    exact ⟨rfl, ⟨t, ht, hts⟩, e, he⟩
  · rintro ⟨hsub, ⟨t, ht, hts⟩, e, he⟩
    exact ⟨l.supertype, ⟨t, ht, hts⟩, e, he, by rw [← hsub]⟩

theorem edge_graph_iff {n p : BinaryName} : (graph r).Edge n p ↔ Extends r n p := by
  simp only [Graph.Edge, graph, links, List.mem_flatMap, mem_linksOf, Extends]
  constructor
  · rintro ⟨d, hd, rfl, ht, hp⟩
    exact ⟨⟨d, hd, rfl, ht⟩, hp⟩
  · rintro ⟨⟨d, hd, rfl, ht⟩, hp⟩
    exact ⟨d, hd, rfl, ht, hp⟩

theorem edge_graph_eq : (graph r).Edge = Extends r := by
  funext n p
  exact propext edge_graph_iff

theorem closed_graph : (graph r).Closed := by
  -- links are kept for declared supertypes only, so no edge leads out of the graph
  intro n p h
  obtain ⟨⟨d, hd, rfl, -⟩, hp⟩ := edge_graph_iff.1 h
  exact ⟨List.mem_map_of_mem hd, hp⟩

/-- A parent in the hierarchy is a supertype in the graph. -/
theorem extends_of_parent {d p : Declaration} (hd : d ∈ r.declarations)
    (h : Hierarchy.Parent r d p) : Extends r d.name p.name := by
  obtain ⟨t, ht, hp⟩ := h
  -- the parent is found under the raw name of the supertype, and this is its own name
  obtain ⟨n, htn, hn⟩ := Option.bind_eq_some_iff.1 hp
  rw [← Registry.name_of_lookup hn] at htn
  exact ⟨⟨d, hd, rfl, t, ht, htn⟩, Hierarchy.mem_names_of_parent? hp⟩

/-! ## The verdict -/

/-- The first complaint of the check is about a supertype that cannot be named. -/
theorem find?_clauses_eq_none_iff :
    ((clauses r).find? fun c => c.2.rawName?.isNone) = none ↔
      ∀ d ∈ r.declarations, ∀ t ∈ d.supertypes, t.rawName? ≠ none := by
  simp only [clauses, List.find?_eq_none, List.mem_flatMap, List.mem_map, forall_exists_index,
    and_imp, Option.isNone_iff_eq_none]
  constructor
  · intro h d hd t ht
    exact h (d.name, t) d hd t ht rfl
  · rintro h c d hd t ht rfl
    exact h d hd t ht

theorem rawName?_of_validate (h : validate r = .ok ()) {d : Declaration} (hd : d ∈ r.declarations)
    {t : TypeRef} (ht : t ∈ d.supertypes) : t.rawName? ≠ none := by
  unfold validate at h
  split at h
  · cases h
  · rename_i hnone
    exact find?_clauses_eq_none_iff.1 hnone d hd t ht

theorem acyclic_of_validate (h : validate r = .ok ()) (n : BinaryName) :
    ¬ TransGen (Extends r) n n := by
  unfold validate at h
  split at h
  · cases h
  · split at h
    · cases h
    · -- the names are in order, so the check came to the search, which found no culprit
      rename_i hnone
      rw [← edge_graph_eq]
      exact Graph.acyclic_of_culprit?_eq_none closed_graph hnone n

theorem cycle_of_validate {n : BinaryName} (h : validate r = .error (.cyclic n)) :
    TransGen (Extends r) n n := by
  unfold validate at h
  split at h
  · cases h
  · split at h
    · rename_i m hm
      cases h
      rw [← edge_graph_eq]
      exact Graph.cycle_of_culprit? closed_graph hm
    · cases h

theorem validate_eq_ok (hnames : ∀ d ∈ r.declarations, ∀ t ∈ d.supertypes, t.rawName? ≠ none)
    (hacyclic : ∀ n, ¬ TransGen (Extends r) n n) : validate r = .ok () := by
  have hculprit : (graph r).culprit? = none := by
    rw [Option.eq_none_iff_forall_ne_some]
    intro n hn
    have hcycle := Graph.cycle_of_culprit? closed_graph hn
    rw [edge_graph_eq] at hcycle
    exact hacyclic n hcycle
  unfold validate
  rw [find?_clauses_eq_none_iff.2 hnames, hculprit]

/-- A registry is valid if some rank grows from every type to its supertypes. -/
theorem validate_eq_ok_of_rank
    (hnames : ∀ d ∈ r.declarations, ∀ t ∈ d.supertypes, t.rawName? ≠ none)
    (rank : BinaryName → Nat) (hrank : ∀ l ∈ links r, rank l.subtype < rank l.supertype) :
    validate r = .ok () := by
  refine validate_eq_ok hnames (not_transGen_self rank fun n p h => ?_)
  exact hrank ⟨n, p⟩ (edge_graph_iff.2 h)

theorem ne_none_rawName?_iff {t : TypeRef} :
    t.rawName? ≠ none ↔ (∃ n, t = .named n) ∨ ∃ n args, t = .parameterized n args := by
  cases t <;> simp [TypeRef.rawName?]

/-- A registry is valid exactly if all its supertypes are raw or applied names and none of its types
inherits from itself; and if a cycle is reported, it runs through the type that is named. -/
theorem validate_decides_acyclicity (r : Registry) :
    (validate r = .ok () ↔
      (∀ d ∈ r.declarations, ∀ t ∈ d.supertypes,
        (∃ n, t = .named n) ∨ ∃ n args, t = .parameterized n args) ∧
      ∀ n, ¬ TransGen (Extends r) n n) ∧
    ∀ n, validate r = .error (.cyclic n) → n ∈ r.names ∧ TransGen (Extends r) n n := by
  refine ⟨⟨fun h => ⟨?_, acyclic_of_validate h⟩, ?_⟩, ?_⟩
  · intro d hd t ht
    exact ne_none_rawName?_iff.1 (rawName?_of_validate h hd ht)
  · rintro ⟨hnames, hacyclic⟩
    exact validate_eq_ok (fun d hd t ht => ne_none_rawName?_iff.2 (hnames d hd t ht)) hacyclic
  · intro n h
    have hcycle := cycle_of_validate h
    -- every edge leads to a declared type, also the last one of the cycle back to `n`
    obtain ⟨m, -, hlast⟩ := TransGen.tail'_iff.1 hcycle
    exact ⟨hlast.2, hcycle⟩

end StubGen.Inheritance
