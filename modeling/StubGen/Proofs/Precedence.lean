import StubGen.Proofs.Coverage
import StubGen.Proofs.Preorder

/-!
# Which declaration is taken

Several visible types may declare methods of one signature. The implementation takes the first that
may be overridden: public members before others, public members in the order in which the types are
entered, and others from the target upward along its superclasses.

Main results:

* `isAcceptable_offered_iff` — which methods are taken, if nothing stands against them;
* `comesFirst_of_mem_firsts` — a first offer comes from the first type that offers its signature;
* `pairwise_chain` — the superclasses of a type in ascending order;
* `first_of_mem_resolveMethods` — the declaration that an implemented method is taken from.
-/

namespace StubGen

open Relation

/-! ## Methods that may be taken -/

/-- A method of objects that source text declares and that others see. -/
structure Method.IsInstance (m : Method) : Prop where
  notSynthetic : m.synthetic = false
  notBridge : m.bridge = false
  notStatic : m.modifiers.isStatic = false
  notPrivate : m.modifiers.isPrivate = false

/-- A subtype could declare the method again, and an implementation does not. -/
def Method.IsSkipped (m : Method) : Prop :=
  m.modifiers.isNative = true ∨ m.deprecated = true ∧ m.modifiers.isAbstract = false

instance : DecidablePred Method.IsSkipped := fun _ => inferInstanceAs (Decidable (_ ∨ _))

/-- An implementation may declare the method again. -/
structure Method.IsImplementable (m : Method) : Prop extends m.IsInstance where
  notFinal : m.modifiers.isFinal = false
  notSkipped : ¬ m.IsSkipped

theorem Members.isAcceptable_offered_iff {d : Declaration} {m : Method} :
    (Members.offered d m).isAcceptable = true ↔ m.IsImplementable := by
  rw [Members.isAcceptable_offered]
  constructor
  · rintro ⟨hsynthetic, hbridge, hfinal, hstatic, hnative, hprivate, hdeprecated⟩
    refine ⟨⟨hsynthetic, hbridge, hstatic, hprivate⟩, hfinal, ?_⟩
    rintro (hnative' | hdeprecated')
    · simp [hnative] at hnative'
    · exact hdeprecated hdeprecated'
  · rintro ⟨⟨hsynthetic, hbridge, hstatic, hprivate⟩, hfinal, hskipped⟩
    rw [Method.IsSkipped, not_or, Bool.not_eq_true] at hskipped
    exact ⟨hsynthetic, hbridge, hfinal, hstatic, hskipped.1, hprivate, hskipped.2⟩

/-! ## First offers of many types -/

namespace Collector

variable {s : Substitution}

/-- The first offers of two lists in a row are those of the first list, and those of the second
whose signatures are new. -/
theorem firsts_append (as bs : List Candidate) :
    firsts s (as ++ bs) = firsts s as ++
      (firsts s bs).filter fun b => b.signature s ∉ (firsts s as).map (Candidate.signature s) := by
  induction as with
  | nil => simp [firsts]
  | cons a as ih =>
    by_cases ha : a.isAcceptable = true
    · -- the filter for the signature of `a` passes through the append
      rw [List.cons_append, firsts, if_pos ha, ih, List.filter_append, List.filter_filter, firsts,
        if_pos ha, List.cons_append]
      congr 2
      apply List.filter_congr
      intro b _
      have hmem : b.signature s ∈ (firsts s (a :: as)).map (Candidate.signature s) ↔ _ :=
        signature_mem_firsts_cons ha
      rw [firsts, if_pos ha] at hmem
      rw [Bool.eq_iff_iff, Bool.and_eq_true, decide_eq_true_eq, decide_eq_true_eq,
        decide_eq_true_eq, hmem, not_or]
    · rw [List.cons_append, firsts_cons_of_not ha, firsts_cons_of_not ha, ih]

theorem isAcceptable_of_mem_firsts {cs : List Candidate} {c : Candidate} (h : c ∈ firsts s cs) :
    c.isAcceptable = true := by
  induction cs with
  | nil => cases h
  | cons b cs ih =>
    by_cases hb : b.isAcceptable = true
    · rw [firsts, if_pos hb] at h
      rcases List.mem_cons.1 h with rfl | h
      · exact hb
      · exact ih (List.mem_filter.1 h).1
    · rw [firsts_cons_of_not hb] at h
      exact ih h

/-- The first offer of a signature comes from the first type that has one. -/
theorem comesFirst_of_mem_firsts {α : Type} {f : α → List Candidate} {xs : List α} {c : Candidate}
    (hc : c ∈ firsts s (xs.flatMap f)) :
    ∃ x ∈ xs, c ∈ f x ∧ ∀ y, (∃ a ∈ f y, a.isAcceptable = true ∧ a.signature s = c.signature s) →
      ComesFirst x y xs := by
  induction xs with
  | nil => cases hc
  | cons x xs ih =>
    rw [List.flatMap_cons, firsts_append, List.mem_append, List.mem_filter] at hc
    rcases hc with hc | ⟨hc, hnew⟩
    · exact ⟨x, List.mem_cons_self, mem_of_mem_firsts hc, fun y _ => .inl rfl⟩
    · obtain ⟨z, hz, hcz, hfirst⟩ := ih hc
      refine ⟨z, List.mem_cons_of_mem _ hz, hcz, fun y hy => .inr ⟨?_, hfirst y hy⟩⟩
      -- an offer of `x` would have been the first
      rintro rfl
      exact of_decide_eq_true hnew (signature_mem_firsts_iff.2 hy)

end Collector

theorem ComesFirst.rel {α : Type} {R : α → α → Prop} {c d : α} {xs : List α}
    (h : ComesFirst c d xs) (hxs : xs.Pairwise R) (hd : d ∈ xs) (hne : c ≠ d) : R c d := by
  induction xs with
  | nil => cases hd
  | cons x xs ih =>
    rw [List.pairwise_cons] at hxs
    rcases h with rfl | ⟨hxd, h⟩
    · exact hxs.1 d ((List.mem_cons.1 hd).resolve_left (Ne.symm hne))
    · exact ih h hxs.2 ((List.mem_cons.1 hd).resolve_left (Ne.symm hxd))

/-! ## The chain of superclasses -/

namespace Hierarchy

variable {r : Registry} {next : Declaration → List TypeRef}

/-- If at most one clause of a type is followed, each type leads to those entered after it. -/
theorem Explores.pairwise (hnext : ∀ d, (next d).length ≤ 1) {seen : List BinaryName}
    {ts : List TypeRef} {ds : List Declaration} (h : Explores r next seen ts ds)
    (hts : ts.length ≤ 1) : ds.Pairwise (TransGen (Leads r next)) := by
  induction h with
  | done => exact List.Pairwise.nil
  | pass _ _ ih => exact ih (Nat.le_of_succ_le hts)
  | @enter seen t p ts below ds hp _ inner rest ihinner _ =>
    -- there is one clause, so everything entered later stands below it
    obtain rfl : ts = [] := List.eq_nil_of_length_eq_zero (by simpa using hts)
    cases rest
    rw [List.append_nil, List.pairwise_cons]
    refine ⟨fun b hb => ?_, ihinner (hnext p)⟩
    obtain ⟨u, hu, hlead⟩ := inner.leadsTo hb
    exact transGen_of_leadsTo hu hlead

theorem pairwise_chain (r : Registry) (target : Declaration) :
    (chain r target).Pairwise (TransGen (Superclass r)) := by
  have hnext : ∀ d : Declaration, d.effectiveSuperclass.toList.length ≤ 1 := by
    intro d
    cases d.effectiveSuperclass <;> simp
  have h := explores_visited r (fun d => d.effectiveSuperclass.toList) target
  refine List.pairwise_cons.2 ⟨fun b hb => ?_, h.pairwise hnext (hnext target)⟩
  obtain ⟨t, ht, hlead⟩ := h.leadsTo hb
  exact transGen_of_leadsTo ht hlead

end Hierarchy

namespace Members

variable {r : Registry} {target : Declaration}

/-- An implemented method is taken from a visible declaration, and every other visible declaration
of its signature that may be overridden comes later. Public members are offered first, in the order
of the walk, and then those of the chain that are not public. -/
theorem first_of_mem_resolveMethods (htarget : r.lookup target.name = some target)
    {s : Substitution} {c : Candidate} (hc : c ∈ resolveMethods r s target) :
    ∃ d m, Visible r target d m ∧ m.IsImplementable ∧ c = offered d m ∧
      ∀ e m', Visible r target e m' → m'.IsImplementable →
        Signature.ofMethod s e.name m' = c.signature s →
        (d.hasPublicMember m = true ∧
          (e.hasPublicMember m' = true → ComesFirst d e (Hierarchy.preorder r target))) ∨
        (d.hasPublicMember m = false ∧ e.hasPublicMember m' = false ∧
          ComesFirst d e (Hierarchy.chain r target)) := by
  rw [resolveMethods_eq_kept] at hc
  have hfirst := (List.mem_filter.1 hc).1
  have hacc := Collector.isAcceptable_of_mem_firsts hfirst
  -- the offer is among the public ones, or among the others and new
  rw [offers, Collector.firsts_append, List.mem_append, List.mem_filter] at hfirst
  rcases hfirst with hfirst | ⟨hfirst, hnew⟩
  · -- the public ones that come before it are of other signatures
    obtain ⟨d, hd, hcd, hcomes⟩ := Collector.comesFirst_of_mem_firsts hfirst
    obtain ⟨m, hm, hpub, rfl⟩ := mem_publicMembers_iff.1 hcd
    have hreach := (Hierarchy.mem_visited_iff htarget).1 hd
    refine ⟨d, m, ⟨hm, .inl ⟨hreach, hpub⟩⟩, isAcceptable_offered_iff.1 hacc, rfl, ?_⟩
    intro e m' hvis himpl hsig
    refine .inl ⟨hpub, fun hepub => hcomes e ⟨offered e m', ?_, ?_, ?_⟩⟩
    · exact mem_publicMembers_iff.2 ⟨m', hvis.1, hepub, rfl⟩
    · exact isAcceptable_offered_iff.2 himpl
    · exact (signature_offered s).trans hsig
  · obtain ⟨d, hd, hcd, hcomes⟩ := Collector.comesFirst_of_mem_firsts hfirst
    obtain ⟨m, hm, hpub, hpriv, haccess, rfl⟩ := mem_restrictedMembers_iff.1 hcd
    have hreach := (Hierarchy.mem_visited_iff htarget).1 hd
    have himpl := isAcceptable_offered_iff.1 hacc
    refine ⟨d, m, ⟨hm, .inr ⟨hreach, hpub, hpriv, haccess⟩⟩, himpl, rfl, ?_⟩
    intro e m' hvis himpl' hsig
    right
    have hacc' := isAcceptable_offered_iff (d := e).2 himpl'
    have hsig' : (offered e m').signature s = (offered d m).signature s :=
      (signature_offered s).trans hsig
    obtain ⟨hm', ⟨hreach', hpub'⟩ | ⟨-, hpub', hpriv', haccess'⟩⟩ := hvis
    · -- a public member would have been taken
      refine absurd ?_ (of_decide_eq_true hnew)
      refine Collector.signature_mem_firsts_iff.2 ⟨offered e m', ?_, hacc', hsig'⟩
      refine List.mem_flatMap.2 ⟨e, (Hierarchy.mem_visited_iff htarget).2 hreach', ?_⟩
      exact mem_publicMembers_iff.2 ⟨m', hm', hpub', rfl⟩
    · -- a member that is not public was offered by the chain, as this one was
      refine ⟨hpub, hpub', hcomes e ⟨offered e m', ?_, hacc', hsig'⟩⟩
      exact mem_restrictedMembers_iff.2 ⟨m', hm', hpub', hpriv', haccess', rfl⟩

/-- A restricted member that is visible belongs to a class on the chain. -/
theorem Visible.mem_chain (htarget : r.lookup target.name = some target) {d : Declaration}
    {m : Method} (h : Visible r target d m) (hpub : d.hasPublicMember m = false) :
    d ∈ Hierarchy.chain r target := by
  obtain ⟨-, ⟨-, hpub'⟩ | ⟨hreach, -⟩⟩ := h
  · simp [hpub] at hpub'
  · exact (Hierarchy.mem_visited_iff htarget).2 hreach

end Members

end StubGen
