import StubGen.Inheritance
import Mathlib.Data.List.Basic
import Mathlib.Logic.Relation

/-!
# The search for a cycle

The search keeps a stack on which a node may wait several times. A node is *open* from the step that
enters it to the step that leaves it. The invariant says what stands above an open node on the
stack: nodes that it reaches, those of its supertypes that are not entered among them. So when a
node is left, each of its supertypes either was left before or is still open below it and reaches it
back. Links that lead backward in the order of leaving therefore lie on cycles, and if there is
none, the order shows that there is no cycle.

Main results:

* `sound_of_searchAll` — the invariant holds to the end, and every node is left;
* `cycle_of_culprit?` — a culprit lies on a cycle;
* `acyclic_of_culprit?_eq_none` — without a culprit there is no cycle.
-/

namespace StubGen.Inheritance

open Relation

/-- A relation along which a number grows has no cycle. -/
theorem not_transGen_self {α : Type} {R : α → α → Prop} (f : α → Nat)
    (h : ∀ a b, R a b → f a < f b) (a : α) : ¬ TransGen R a a := by
  have hlt : ∀ b, TransGen R a b → f a < f b := by
    intro b hb
    induction hb with
    | single hab => exact h _ _ hab
    | tail _ hbc ih => exact Nat.lt_trans ih (h _ _ hbc)
  exact fun hcycle => Nat.lt_irrefl _ (hlt a hcycle)

namespace Graph

/-- `m` is a direct supertype of `n`. -/
def Edge (g : Graph) (n m : BinaryName) : Prop := ⟨n, m⟩ ∈ g.links

/-- Every link runs between nodes. -/
def Closed (g : Graph) : Prop := ∀ n m, g.Edge n m → n ∈ g.nodes ∧ m ∈ g.nodes

variable {g : Graph}

theorem mem_successors {n m : BinaryName} : m ∈ g.successors n ↔ g.Edge n m := by
  simp only [successors, Edge, List.mem_reverse, List.mem_map, List.mem_filter, beq_iff_eq]
  constructor
  · rintro ⟨l, ⟨hl, rfl⟩, rfl⟩
    exact hl
  · intro h
    exact ⟨_, ⟨h, rfl⟩, rfl⟩

theorem mem_predecessors {n m : BinaryName} : n ∈ g.predecessors m ↔ g.Edge n m := by
  simp only [predecessors, Edge, List.mem_map, List.mem_filter, beq_iff_eq]
  constructor
  · rintro ⟨l, ⟨hl, rfl⟩, rfl⟩
    exact hl
  · intro h
    exact ⟨_, ⟨h, rfl⟩, rfl⟩

/-! ## The invariant -/

/-- What stands on a stack above the topmost occurrence of a node. -/
def above (n : BinaryName) (stack : List BinaryName) : List BinaryName :=
  stack.takeWhile fun m => m ≠ n

theorem above_self (n : BinaryName) (stack : List BinaryName) : above n (n :: stack) = [] := by
  simp [above]

theorem above_of_ne {n m : BinaryName} (h : m ≠ n) (stack : List BinaryName) :
    above n (m :: stack) = m :: above n stack := by
  simp [above, h]

theorem above_append {n : BinaryName} {next : List BinaryName} (h : n ∉ next)
    (stack : List BinaryName) : above n (next ++ stack) = next ++ above n stack := by
  refine List.takeWhile_append_of_pos fun m hm => ?_
  rw [decide_eq_true_eq]
  rintro rfl
  exact h hm

/-- What holds of a search between its steps. A node is open if it is entered but not left. -/
structure Sound (g : Graph) (s : Search) (stack : List BinaryName) : Prop where
  stack_nodes : ∀ n ∈ stack, n ∈ g.nodes
  left_entered : ∀ n ∈ s.left, n ∈ s.entered
  left_nodup : s.left.Nodup
  /-- An open node is on the stack. -/
  open_waits : ∀ n ∈ s.entered, n ∉ s.left → n ∈ stack
  /-- An open node reaches whatever stands above it. -/
  reaches : ∀ n ∈ s.entered, n ∉ s.left → ∀ m ∈ above n stack, ReflTransGen g.Edge n m
  /-- The supertypes of an open node that are not entered stand above it. -/
  waits_above : ∀ n ∈ s.entered, n ∉ s.left → ∀ m, g.Edge n m → m ∈ s.entered ∨ m ∈ above n stack
  irrefl : ∀ n ∈ s.entered, ¬ g.Edge n n
  /-- The supertypes of a node that is left were left before it or reach it. -/
  closes : ∀ later n earlier, s.left = later ++ n :: earlier →
    ∀ m, g.Edge n m → m ∈ earlier ∨ ReflTransGen g.Edge m n

namespace Sound

variable {s : Search} {n : BinaryName} {stack : List BinaryName}

theorem start : Sound g {} [] where
  stack_nodes := by simp
  left_entered := by simp
  left_nodup := List.nodup_nil
  open_waits := by simp
  reaches := by simp
  waits_above := by simp
  irrefl := by simp
  closes := by simp

/-- A node may be put on the empty stack: then nothing is open. -/
theorem push (h : Sound g s []) (hn : n ∈ g.nodes) : Sound g s [n] := by
  -- nothing is on the stack, so whatever is entered has been left, and what is said of open nodes
  -- is void
  have hleft : ∀ m ∈ s.entered, m ∈ s.left := by
    intro m hm
    by_contra hl
    exact List.not_mem_nil (h.open_waits m hm hl)
  exact { h with
    stack_nodes := fun m hm => List.mem_singleton.1 hm ▸ hn
    open_waits := fun m hm hl => absurd (hleft m hm) hl
    reaches := fun m hm hl => absurd (hleft m hm) hl
    waits_above := fun m hm hl => absurd (hleft m hm) hl }

/-- Entering the topmost node puts its unentered supertypes above it. The node is open from then on;
the nodes that were open before stand below it and reach what is new on the stack by way of it. -/
theorem enter (h : Sound g s (n :: stack)) (hg : g.Closed) (hnew : n ∉ s.entered)
    (hself : ¬ g.Edge n n) {next : List BinaryName}
    (hnext : ∀ m, m ∈ next ↔ g.Edge n m ∧ m ∉ n :: s.entered) :
    Sound g { s with entered := n :: s.entered } (next ++ n :: stack) := by
  -- what is put on the stack is new to the search, so it hides no entered node
  have hfresh : ∀ m ∈ n :: s.entered, m ∉ next := fun m hm hmn => ((hnext m).1 hmn).2 hm
  -- an open node other than `n` stands below it, on the same stack as before
  have hbelow : ∀ m ∈ s.entered, above m (next ++ n :: stack) = next ++ above m (n :: stack) ∧
      n ∈ above m (n :: stack) := by
    intro m hm
    have hne : n ≠ m := fun heq => hnew (heq ▸ hm)
    refine ⟨above_append (hfresh m (List.mem_cons_of_mem _ hm)) _, ?_⟩
    rw [above_of_ne hne]
    exact List.mem_cons_self
  -- right above `n` stands what was just put there, and nothing else
  have htop : above n (next ++ n :: stack) = next := by
    rw [above_append (hfresh n List.mem_cons_self), above_self, List.append_nil]
  exact {
    -- what is new on the stack are ends of links, and so nodes
    stack_nodes := by
      intro m hm
      rcases List.mem_append.1 hm with hm | hm
      · exact (hg n m ((hnext m).1 hm).1).2
      · exact h.stack_nodes m hm
    left_entered := fun m hm => List.mem_cons_of_mem _ (h.left_entered m hm)
    left_nodup := h.left_nodup
    -- the new open node is below its supertypes, and the others are where they were
    open_waits := by
      intro m hm hl
      rcases List.mem_cons.1 hm with rfl | hm
      · exact List.mem_append_right _ List.mem_cons_self
      · exact List.mem_append_right _ (h.open_waits m hm hl)
    -- `n` reaches its supertypes in one step, and an open node below it reaches `n` first
    reaches := by
      intro m hm hl k hk
      rcases List.mem_cons.1 hm with rfl | hm
      · rw [htop] at hk
        exact .single ((hnext k).1 hk).1
      · rw [(hbelow m hm).1] at hk
        rcases List.mem_append.1 hk with hk | hk
        · exact (h.reaches m hm hl n (hbelow m hm).2).tail ((hnext k).1 hk).1
        · exact h.reaches m hm hl k hk
    -- of the nodes that are not entered, only the supertypes of `n` can be missing, and these were
    -- put above it
    waits_above := by
      intro m hm hl k hk
      by_cases hke : k ∈ n :: s.entered
      · exact .inl hke
      refine .inr ?_
      rcases List.mem_cons.1 hm with rfl | hm
      · rw [htop]
        exact (hnext k).2 ⟨hk, hke⟩
      · rw [(hbelow m hm).1]
        rcases h.waits_above m hm hl k hk with hke' | hka
        · exact absurd (List.mem_cons_of_mem _ hke') hke
        · exact List.mem_append_right _ hka
    -- that `n` has no link to itself was checked before it was entered
    irrefl := by
      intro m hm
      rcases List.mem_cons.1 hm with rfl | hm
      · exact hself
      · exact h.irrefl m hm
    closes := h.closes }

/-- What stands above an open node, once another node is taken from the top of the stack. -/
theorem above_pop {m : BinaryName} (hne : n ≠ m) {k : BinaryName} (hk : k ∈ above m (n :: stack)) :
    k = n ∨ k ∈ above m stack := by
  rw [above_of_ne hne] at hk
  exact List.mem_cons.1 hk

/-- A topmost node that was left before is taken from the stack. No open node loses anything by
that, because the node that goes is not open. -/
theorem drop (h : Sound g s (n :: stack)) (hn : n ∈ s.left) : Sound g s stack := by
  have hne : ∀ m, m ∉ s.left → n ≠ m := fun m hl heq => hl (heq ▸ hn)
  exact { h with
    stack_nodes := fun m hm => h.stack_nodes m (List.mem_cons_of_mem _ hm)
    open_waits := by
      intro m hm hl
      rcases List.mem_cons.1 (h.open_waits m hm hl) with rfl | hs
      · exact absurd hn hl
      · exact hs
    reaches := by
      intro m hm hl k hk
      apply h.reaches m hm hl
      rw [above_of_ne (hne m hl)]
      exact List.mem_cons_of_mem _ hk
    -- the only supertype that an open node can lose is the node taken, and that one is entered
    waits_above := by
      intro m hm hl k hk
      rcases h.waits_above m hm hl k hk with hke | hka
      · exact .inl hke
      rcases above_pop (hne m hl) hka with rfl | hka
      · exact .inl (h.left_entered k hn)
      · exact .inr hka }

/-- A supertype of an open node on top of the stack was left already, or is still open and reaches
the node. -/
theorem left_or_reaches (h : Sound g s (n :: stack)) (hn : n ∈ s.entered) (hopen : n ∉ s.left)
    {m : BinaryName} (hm : g.Edge n m) : m ∈ s.left ∨ ReflTransGen g.Edge m n := by
  -- nothing is above the topmost node, so none of its supertypes still waits
  have hme : m ∈ s.entered := by
    rcases h.waits_above n hn hopen m hm with hme | hma
    · exact hme
    · rw [above_self] at hma
      exact absurd hma List.not_mem_nil
  by_cases hl : m ∈ s.left
  · exact .inl hl
  -- an entered supertype that was not left is open, and the node stands above it
  · refine .inr (h.reaches m hme hl n ?_)
    have hne : n ≠ m := fun heq => h.irrefl n hn (by rw [← heq] at hm; exact hm)
    rw [above_of_ne hne]
    exact List.mem_cons_self

/-- An open node on top of the stack may be left: each of its supertypes was left before or reaches
it, and that is all that has to be known of it from then on. -/
theorem leave (h : Sound g s (n :: stack)) (hn : n ∈ s.entered) (hopen : n ∉ s.left) :
    Sound g { s with left := n :: s.left } stack := by
  -- once it counts as left, it is taken from the stack like any node that is there again
  refine drop (n := n) ?_ List.mem_cons_self
  have hsub : ∀ m, m ∉ n :: s.left → m ∉ s.left := fun m hl hm => hl (List.mem_cons_of_mem _ hm)
  exact { h with
    left_entered := by
      intro m hm
      rcases List.mem_cons.1 hm with rfl | hm
      · exact hn
      · exact h.left_entered m hm
    left_nodup := List.nodup_cons.2 ⟨hopen, h.left_nodup⟩
    open_waits := fun m hm hl => h.open_waits m hm (hsub m hl)
    reaches := fun m hm hl => h.reaches m hm (hsub m hl)
    waits_above := fun m hm hl => h.waits_above m hm (hsub m hl)
    closes := by
      -- what is asked of the node that was left last is what has just been said; the others are as
      -- before
      intro later k earlier heq m hm
      cases later with
      | nil =>
        obtain ⟨rfl, rfl⟩ := List.cons.inj heq
        exact h.left_or_reaches hn hopen hm
      | cons j later =>
        obtain ⟨-, heq⟩ := List.cons.inj heq
        exact h.closes later k earlier heq m hm }

end Sound

/-! ## Whole searches -/

/-- A search that ends leaves every node it entered, and has entered all that waited. By induction
on the run, for entering a node, dropping one and leaving one each keep the invariant. -/
theorem Sound.search (hg : g.Closed) {s s' : Search} {stack : List BinaryName}
    (h : Sound g s stack) (hs : g.search s stack = .ok s') :
    Sound g s' [] ∧ (∀ n ∈ s.entered, n ∈ s'.entered) ∧ ∀ n ∈ stack, n ∈ s'.entered := by
  fun_induction Graph.search g s stack with
  | case1 s =>
    obtain rfl := Except.ok.inj hs
    exact ⟨h, fun n hn => hn, by simp⟩
  | case2 s n stack hn hself => cases hs
  | case3 s n stack hn hself entered next ih =>
    -- a node is entered, and its supertypes that are new are put on the stack
    have hnext : ∀ m, m ∈ next.reverse ↔ g.Edge n m ∧ m ∉ n :: s.entered := by
      intro m
      simp only [next, entered, List.mem_reverse, List.mem_filter, mem_successors,
        decide_eq_true_eq]
    rw [mem_successors] at hself
    obtain ⟨hend, hkeep, hall⟩ := ih (h.enter hg hn.2 hself hnext) hs
    refine ⟨hend, fun m hm => hkeep m (List.mem_cons_of_mem _ hm), fun m hm => ?_⟩
    exact hall m (List.mem_append_right _ hm)
  | case4 s n stack hn ih =>
    -- the topmost node was entered before; it is left now, unless that has happened already
    have hne : n ∈ s.entered := by
      by_contra hne
      exact hn ⟨h.stack_nodes n List.mem_cons_self, hne⟩
    have hstep : Sound g { s with left := if n ∈ s.left then s.left else n :: s.left } stack := by
      by_cases hl : n ∈ s.left
      · simpa only [if_pos hl] using h.drop hl
      · simpa only [if_neg hl] using h.leave hne hl
    obtain ⟨hend, hkeep, hall⟩ := ih hstep hs
    refine ⟨hend, hkeep, fun m hm => ?_⟩
    rcases List.mem_cons.1 hm with rfl | hm
    · exact hkeep m hne
    · exact hall m hm

theorem edge_of_search_error {s : Search} {stack : List BinaryName} {n : BinaryName}
    (hs : g.search s stack = .error n) : g.Edge n n := by
  fun_induction Graph.search g s stack with
  | case1 => cases hs
  | case2 s m stack hm hself =>
    obtain rfl := Except.error.inj hs
    exact mem_successors.1 hself
  | case3 _ _ _ _ _ _ _ ih => exact ih hs
  | case4 _ _ _ _ ih => exact ih hs

theorem Sound.visit (hg : g.Closed) {s s' : Search} (h : Sound g s []) {n : BinaryName}
    (hn : n ∈ g.nodes) (hs : g.visit s n = .ok s') :
    Sound g s' [] ∧ (∀ m ∈ s.entered, m ∈ s'.entered) ∧ n ∈ s'.entered := by
  unfold Graph.visit at hs
  by_cases hne : n ∈ s.entered
  · rw [if_pos hne] at hs
    obtain rfl := Except.ok.inj hs
    exact ⟨h, fun m hm => hm, hne⟩
  · rw [if_neg hne] at hs
    obtain ⟨hend, hkeep, hall⟩ := (h.push hn).search hg hs
    exact ⟨hend, hkeep, hall n List.mem_cons_self⟩

theorem edge_of_visit_error {s : Search} {m n : BinaryName} (hs : g.visit s m = .error n) :
    g.Edge n n := by
  unfold visit at hs
  by_cases hm : m ∈ s.entered
  · rw [if_pos hm] at hs
    cases hs
  · rw [if_neg hm] at hs
    exact edge_of_search_error hs

/-- A search that fails names a node that is its own supertype. -/
theorem edge_of_visitAll_error {ns : List BinaryName} {s : Search} {n : BinaryName}
    (hs : ns.foldlM g.visit s = .error n) : g.Edge n n := by
  induction ns generalizing s with
  | nil => cases hs
  | cons m ns ih =>
    rw [List.foldlM_cons] at hs
    cases hone : g.visit s m with
    | error k =>
      rw [hone] at hs
      obtain rfl := Except.error.inj hs
      exact edge_of_visit_error hone
    | ok t =>
      rw [hone] at hs
      exact ih hs

/-- The invariant holds from one search to the next, and what has been entered stays so. -/
theorem Sound.visitAll (hg : g.Closed) {ns : List BinaryName} (hns : ∀ n ∈ ns, n ∈ g.nodes)
    {s s' : Search} (h : Sound g s []) (hs : ns.foldlM g.visit s = .ok s') :
    Sound g s' [] ∧ (∀ n ∈ s.entered, n ∈ s'.entered) ∧ ∀ n ∈ ns, n ∈ s'.entered := by
  induction ns generalizing s with
  | nil =>
    obtain rfl := Except.ok.inj hs
    exact ⟨h, fun n hn => hn, by simp⟩
  | cons n ns ih =>
    rw [List.foldlM_cons] at hs
    cases hone : g.visit s n with
    | error m =>
      rw [hone] at hs
      cases hs
    | ok t =>
      rw [hone] at hs
      obtain ⟨hmid, hkeep, hn⟩ := h.visit hg (hns n List.mem_cons_self) hone
      obtain ⟨hend, hkeep', hall⟩ := ih (fun m hm => hns m (List.mem_cons_of_mem _ hm)) hmid hs
      refine ⟨hend, fun m hm => hkeep' m (hkeep m hm), fun m hm => ?_⟩
      rcases List.mem_cons.1 hm with rfl | hm
      · exact hkeep' m hn
      · exact hall m hm

/-- A search of the whole graph that ends has left every node, and satisfies the invariant. -/
theorem sound_of_searchAll (hg : g.Closed) {s : Search} (hs : g.searchAll = .ok s) :
    Sound g s [] ∧ ∀ n ∈ g.nodes, n ∈ s.left := by
  obtain ⟨hend, -, hall⟩ := Sound.start.visitAll hg (fun n hn => hn) hs
  refine ⟨hend, fun n hn => ?_⟩
  by_contra hl
  exact List.not_mem_nil (hend.open_waits n (hall n hn) hl)

/-! ## Walks backward -/

theorem mem_of_next?_eq_some {met stack rest : List BinaryName} {n : BinaryName}
    (h : g.next? met stack = some (n, rest)) : n ∈ stack ∧ n ∉ met := by
  induction stack with
  | nil => cases h
  | cons m stack ih =>
    rw [next?] at h
    split at h
    · obtain ⟨hn, hmet⟩ := ih h
      exact ⟨List.mem_cons_of_mem _ hn, hmet⟩
    · rename_i hm
      obtain ⟨rfl, -⟩ := Prod.mk.inj (Option.some.inj h)
      exact ⟨List.mem_cons_self, hm⟩

theorem mem_of_next?_eq_none {met stack : List BinaryName} (h : g.next? met stack = none) :
    ∀ n ∈ stack, n ∈ met := by
  induction stack with
  | nil => simp
  | cons m stack ih =>
    rw [next?] at h
    split at h
    · rename_i hm
      intro n hn
      rcases List.mem_cons.1 hn with rfl | hn
      · exact hm
      · exact ih h n hn
    · cases h

/-- A walk from a node that was not met yields it first, and its unmet subtypes wait then. -/
theorem next?_singleton {met : List BinaryName} {n : BinaryName} (hn : n ∉ met) :
    g.next? met [n] = some (n, (g.predecessors n).filter fun p => p ∉ n :: met) := by
  rw [next?, if_neg hn, List.append_nil]

theorem mem_waiting_iff {met : List BinaryName} {n p : BinaryName} :
    p ∈ (g.predecessors n).filter (fun p => p ∉ n :: met) ↔ g.Edge p n ∧ p ≠ n ∧ p ∉ met := by
  rw [List.mem_filter, mem_predecessors, decide_eq_true_eq, List.mem_cons, not_or]

/-- A second node of a walk has a link to the first, which stands before it in the order. -/
theorem backward?_eq_some {met order : List BinaryName} {p : BinaryName}
    (h : g.backward? met order = some p) :
    ∃ first n rest, order = first ++ n :: rest ∧ g.Edge p n ∧ p ≠ n ∧ p ∉ first ∧ p ∉ met := by
  induction order generalizing met with
  | nil => cases h
  | cons n rest ih =>
    -- the walk starts from a node that was met already, so what is found is found later
    rw [backward?] at h
    by_cases hn : n ∈ met
    · rw [next?, if_pos hn] at h
      obtain ⟨first, m, rest, rfl, hedge, hne, hfirst, hmet⟩ := ih h
      refine ⟨n :: first, m, rest, rfl, hedge, hne, ?_, hmet⟩
      rw [List.mem_cons, not_or]
      exact ⟨fun heq => hmet (heq ▸ hn), hfirst⟩
    -- otherwise it comes to `n` first, and then to a subtype of `n` that is new, if there is one
    rw [next?_singleton hn] at h
    dsimp only at h
    split at h
    · rename_i second stack hsecond
      obtain rfl := Option.some.inj h
      obtain ⟨hedge, hne, hmet⟩ := mem_waiting_iff.1 (mem_of_next?_eq_some hsecond).1
      exact ⟨[], n, rest, rfl, hedge, hne, by simp, hmet⟩
    · obtain ⟨first, m, rest, rfl, hedge, hne, hfirst, hmet⟩ := ih h
      rw [List.mem_cons, not_or] at hmet
      refine ⟨n :: first, m, rest, rfl, hedge, hne, ?_, hmet.2⟩
      rw [List.mem_cons, not_or]
      exact ⟨hmet.1, hfirst⟩

/-- If no walk has a second node, the subtypes of a node stand before it in the order, or were met
before the order begins. The induction goes through the order, and each of its nodes is met in turn.
-/
theorem forward_of_backward?_eq_none {met order : List BinaryName} (hnodup : order.Nodup)
    (hnew : ∀ n ∈ order, n ∉ met) (h : g.backward? met order = none) {first : List BinaryName}
    {n : BinaryName} {rest : List BinaryName} (horder : order = first ++ n :: rest)
    {p : BinaryName} (hedge : g.Edge p n) : p = n ∨ p ∈ first ∨ p ∈ met := by
  induction order generalizing met first with
  | nil => simp at horder
  | cons k order ih =>
    rw [List.nodup_cons] at hnodup
    rw [backward?, next?_singleton (hnew k List.mem_cons_self)] at h
    dsimp only at h
    split at h
    · cases h
    rename_i hnone
    cases first with
    -- the walk from `n` has no second node, so every subtype of `n` was met by then
    | nil =>
      obtain ⟨rfl, -⟩ := List.cons.inj horder
      by_contra hp
      obtain ⟨hpk, hp⟩ := not_or.1 hp
      have hpmet := (not_or.1 hp).2
      have hmet := mem_of_next?_eq_none hnone p (mem_waiting_iff.2 ⟨hedge, hpk, hpmet⟩)
      exact (List.mem_cons.1 hmet).elim hpk hpmet
    -- the walk from the head has met nothing but the head, so the rest of the order is still new
    | cons j first =>
      obtain ⟨rfl, htail⟩ := List.cons.inj horder
      have hnew' : ∀ m ∈ order, m ∉ k :: met := by
        intro m hm hmet
        rcases List.mem_cons.1 hmet with rfl | hmet
        · exact hnodup.1 hm
        · exact hnew m (List.mem_cons_of_mem _ hm) hmet
      rcases ih hnodup.2 hnew' h htail with rfl | hf | hb
      · exact .inl rfl
      · exact .inr (.inl (List.mem_cons_of_mem _ hf))
      · rcases List.mem_cons.1 hb with rfl | hb
        · exact .inr (.inl List.mem_cons_self)
        · exact .inr (.inr hb)

/-! ## The culprit -/

/-- A culprit inherits from itself. -/
theorem cycle_of_culprit? (hg : g.Closed) {p : BinaryName} (h : g.culprit? = some p) :
    TransGen g.Edge p p := by
  unfold culprit? at h
  split at h
  · rename_i n hs
    obtain rfl := Option.some.inj h
    exact .single (edge_of_visitAll_error hs)
  · rename_i s hs
    obtain ⟨hsound, hall⟩ := sound_of_searchAll hg hs
    obtain ⟨first, n, rest, hleft, hedge, hne, hfirst, -⟩ := backward?_eq_some h
    -- the culprit stands after `n` in the order, so it was left before `n`
    have hp : p ∈ first ++ n :: rest := hleft ▸ hall p (hg p n hedge).1
    have hrest : p ∈ rest := by
      rcases List.mem_append.1 hp with hp | hp
      · exact absurd hp hfirst
      · exact (List.mem_cons.1 hp).resolve_left hne
    obtain ⟨between, earlier, rfl⟩ := List.append_of_mem hrest
    have hsplit : s.left = (first ++ n :: between) ++ p :: earlier := by
      rw [hleft]
      simp
    -- so `n` was left even before the culprit, which it was not, or reaches the culprit
    rcases hsound.closes _ p earlier hsplit n hedge with hn | hreach
    · have hnodup := hsound.left_nodup
      rw [hsplit, List.nodup_append] at hnodup
      have hn₁ : n ∈ first ++ n :: between := by simp
      exact absurd rfl (hnodup.2.2 n hn₁ n (List.mem_cons_of_mem _ hn))
    · exact .head' hedge hreach

/-- Without a culprit every link leads forward in the order in which the search left the nodes,
latest first, so nothing inherits from itself. -/
theorem acyclic_of_culprit?_eq_none (hg : g.Closed) (h : g.culprit? = none) (p : BinaryName) :
    ¬ TransGen g.Edge p p := by
  unfold culprit? at h
  split at h
  · cases h
  rename_i s hs
  obtain ⟨hsound, hall⟩ := sound_of_searchAll hg hs
  refine not_transGen_self s.left.idxOf (fun a b hedge => ?_) p
  -- in a link from `a` to `b`, `b` stands somewhere in the order, once, and `a` stands before it
  obtain ⟨first, rest, hleft⟩ := List.append_of_mem (hall b (hg a b hedge).2)
  have hb : b ∉ first := by
    intro hb
    have hnodup := hsound.left_nodup
    rw [hleft, List.nodup_append] at hnodup
    exact hnodup.2.2 b hb b List.mem_cons_self rfl
  have ha : a ∈ first := by
    rcases forward_of_backward?_eq_none hsound.left_nodup (fun _ _ => List.not_mem_nil) h hleft
      hedge with rfl | ha | ha
    · have hae := hsound.left_entered a (hall a (hg a a hedge).1)
      exact absurd hedge (hsound.irrefl a hae)
    · exact ha
    · cases ha
  rw [hleft, List.idxOf_append_of_mem ha, List.idxOf_append_of_notMem hb, List.idxOf_cons_self]
  exact Nat.lt_of_lt_of_le (List.idxOf_lt_length_of_mem ha) (Nat.le_add_right _ _)

end Graph

end StubGen.Inheritance
