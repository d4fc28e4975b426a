import StubGen.Members.Collector
import Mathlib.Data.List.Induction
import Mathlib.Tactic.Tauto

/-!
# What the collector keeps

Offering a list of methods keeps, of each signature, the first offer that may be overridden, unless
a final method of that signature is offered anywhere in the list. Evictions, refusals and repeats in
between leave no other trace, and the kept methods stand in the order of their offers.

Main results:

* `candidates_offerAll` — what is kept, as a function of the offers alone;
* `signature_mem_kept_iff`, `nodup_signatures_kept` — the signatures kept, each once;
* `kept_map` — what is kept depends on the signatures alone.
-/

namespace StubGen

namespace Candidate

/-- An offer that is kept unless something stands against its signature. -/
def isAcceptable (c : Candidate) : Bool := !c.isGenerated && c.isOverridable

/-- An offer that rules its signature out. -/
def isSealing (c : Candidate) : Bool := !c.isGenerated && c.method.modifiers.isFinal

theorem isAcceptable_iff {c : Candidate} :
    c.isAcceptable = true ↔
      c.method.synthetic = false ∧ c.method.bridge = false ∧
        c.method.modifiers.isFinal = false ∧ c.method.modifiers.isStatic = false ∧
        c.method.modifiers.isNative = false ∧ c.method.modifiers.isPrivate = false ∧
        ¬ (c.method.deprecated = true ∧ c.method.modifiers.isAbstract = false) := by
  simp only [isAcceptable, isGenerated, isOverridable, Bool.and_eq_true, Bool.not_eq_true',
    Bool.or_eq_false_iff, Bool.and_eq_false_iff, Bool.not_eq_false']
  cases c.method.deprecated <;> simp [and_assoc]
  tauto

theorem isSealing_iff {c : Candidate} :
    c.isSealing = true ↔
      c.method.synthetic = false ∧ c.method.bridge = false ∧
        c.method.modifiers.isFinal = true := by
  simp [isSealing, isGenerated, and_assoc]

theorem not_isAcceptable_of_isFinal {c : Candidate} (h : c.method.modifiers.isFinal = true) :
    ¬ c.isAcceptable = true := by
  simp [isAcceptable, isOverridable, h]

theorem not_isSealing_of_not_isFinal {c : Candidate} (h : ¬ c.method.modifiers.isFinal = true) :
    ¬ c.isSealing = true := by
  simp [isSealing, h]

end Candidate

namespace Collector

variable (s : Substitution)

/-- The first acceptable offer of each signature, in order. -/
def firsts : List Candidate → List Candidate
  | [] => []
  | c :: cs =>
    if c.isAcceptable then c :: (firsts cs).filter fun a => a.signature s ≠ c.signature s
    else firsts cs

/-- The signatures that some offer rules out. -/
def ruledOut (cs : List Candidate) : List Signature :=
  (cs.filter Candidate.isSealing).map (Candidate.signature s)

variable {s}

/-! ## First offers -/

theorem signature_mem_firsts_cons {c : Candidate} (hc : c.isAcceptable = true)
    {cs : List Candidate} {σ : Signature} :
    σ ∈ (firsts s (c :: cs)).map (Candidate.signature s) ↔
      σ = c.signature s ∨ σ ∈ (firsts s cs).map (Candidate.signature s) := by
  rw [firsts, if_pos hc, List.map_cons, List.mem_cons]
  by_cases hσ : σ = c.signature s
  · simp [hσ]
  · simp only [hσ, false_or, List.mem_map, List.mem_filter, decide_eq_true_eq]
    constructor
    · rintro ⟨a, ⟨ha, -⟩, rfl⟩
      exact ⟨a, ha, rfl⟩
    · rintro ⟨a, ha, rfl⟩
      exact ⟨a, ⟨ha, hσ⟩, rfl⟩

theorem firsts_cons_of_not {c : Candidate} (hc : ¬ c.isAcceptable = true) (cs : List Candidate) :
    firsts s (c :: cs) = firsts s cs := by
  rw [firsts, if_neg hc]

theorem signature_mem_firsts_iff {cs : List Candidate} {σ : Signature} :
    σ ∈ (firsts s cs).map (Candidate.signature s) ↔
      ∃ c ∈ cs, c.isAcceptable = true ∧ c.signature s = σ := by
  induction cs with
  | nil => simp [firsts]
  | cons c cs ih =>
    simp only [List.mem_cons, or_and_right, exists_or, exists_eq_left, ← ih]
    by_cases hc : c.isAcceptable = true
    · rw [signature_mem_firsts_cons hc, eq_comm]
      simp [hc]
    · rw [firsts_cons_of_not hc]
      simp [hc]

/-- Every signature has at most one first offer. -/
theorem nodup_firsts (cs : List Candidate) :
    ((firsts s cs).map (Candidate.signature s)).Nodup := by
  induction cs with
  | nil => exact List.nodup_nil
  | cons c cs ih =>
    by_cases hc : c.isAcceptable = true
    · -- the signature of `c` has been filtered out of the others
      rw [firsts, if_pos hc, List.map_cons, List.nodup_cons]
      refine ⟨?_, ih.sublist (List.filter_sublist.map _)⟩
      rw [List.mem_map]
      rintro ⟨a, ha, heq⟩
      have hne := (List.mem_filter.1 ha).2
      rw [decide_eq_true_eq] at hne
      exact hne heq
    · rwa [firsts, if_neg hc]

/-- A last offer counts if it is acceptable and none before it was of its signature. -/
theorem firsts_concat_of_new {cs : List Candidate} {c : Candidate} (hc : c.isAcceptable = true)
    (hnew : c.signature s ∉ (firsts s cs).map (Candidate.signature s)) :
    firsts s (cs ++ [c]) = firsts s cs ++ [c] := by
  induction cs with
  | nil => simp [firsts, hc]
  | cons b cs ih =>
    rw [List.cons_append]
    by_cases hb : b.isAcceptable = true
    · rw [signature_mem_firsts_cons hb, not_or] at hnew
      rw [firsts, if_pos hb, firsts, if_pos hb, ih hnew.2, List.filter_append, List.cons_append]
      simp [hnew.1]
    · rw [firsts_cons_of_not hb] at hnew ⊢
      rw [firsts_cons_of_not hb, ih hnew]

/-- Any other last offer does not. -/
theorem firsts_concat_of_not {cs : List Candidate} {c : Candidate}
    (h : c.isAcceptable = true → c.signature s ∈ (firsts s cs).map (Candidate.signature s)) :
    firsts s (cs ++ [c]) = firsts s cs := by
  induction cs with
  | nil =>
    have hc : ¬ c.isAcceptable = true := fun hc => by simpa [firsts] using h hc
    exact firsts_cons_of_not hc []
  | cons b cs ih =>
    rw [List.cons_append]
    by_cases hb : b.isAcceptable = true
    · rw [signature_mem_firsts_cons hb] at h
      by_cases hnew : c.isAcceptable = true ∧
          c.signature s ∉ (firsts s cs).map (Candidate.signature s)
      · -- the first of its signature in `cs`, but not after `b`
        have hσ : c.signature s = b.signature s := (h hnew.1).resolve_right hnew.2
        rw [firsts, if_pos hb, firsts, if_pos hb, firsts_concat_of_new hnew.1 hnew.2,
          List.filter_append]
        simp [hσ]
      · rw [not_and, not_not] at hnew
        rw [firsts, if_pos hb, firsts, if_pos hb, ih hnew]
    · rw [firsts_cons_of_not hb] at h ⊢
      rw [firsts_cons_of_not hb, ih h]

/-! ## One offer after the other -/

/-- What is kept of a list of offers. -/
def kept (s : Substitution) (cs : List Candidate) : List Candidate :=
  (firsts s cs).filter fun a => a.signature s ∉ ruledOut s cs

theorem mem_ruledOut_concat {cs : List Candidate} {c : Candidate} {σ : Signature} :
    σ ∈ ruledOut s (cs ++ [c]) ↔ σ ∈ ruledOut s cs ∨ c.isSealing = true ∧ σ = c.signature s := by
  unfold ruledOut
  by_cases hc : c.isSealing = true <;> simp [hc]

/-- A final method takes its signature away. -/
theorem kept_concat_of_isSealing {cs : List Candidate} {c : Candidate} (hc : c.isSealing = true) :
    kept s (cs ++ [c]) = (kept s cs).filter fun a => a.signature s ≠ c.signature s := by
  have hfinal : ¬ c.isAcceptable = true := by
    simp only [Candidate.isSealing, Bool.and_eq_true] at hc
    exact Candidate.not_isAcceptable_of_isFinal hc.2
  unfold kept
  rw [firsts_concat_of_not fun h => absurd h hfinal, List.filter_filter]
  apply List.filter_congr
  intro a _
  simp [mem_ruledOut_concat, hc, and_comm]

/-- The offers whose signature is ruled out stay the same under any other offer. -/
theorem kept_concat_of_not_isSealing {cs : List Candidate} {c : Candidate}
    (hc : ¬ c.isSealing = true) :
    kept s (cs ++ [c]) = (firsts s (cs ++ [c])).filter fun a => a.signature s ∉ ruledOut s cs := by
  apply List.filter_congr
  intro a _
  simp [mem_ruledOut_concat, hc]

/-- An offer of a signature that is taken or ruled out changes nothing. -/
theorem kept_concat_of_known {cs : List Candidate} {c : Candidate} (hc : ¬ c.isSealing = true)
    (h : c.isAcceptable = true → c.signature s ∈ ruledOut s cs ∨
      c.signature s ∈ (firsts s cs).map (Candidate.signature s)) :
    kept s (cs ++ [c]) = kept s cs := by
  rw [kept_concat_of_not_isSealing hc]
  by_cases hnew : c.isAcceptable = true ∧
      c.signature s ∉ (firsts s cs).map (Candidate.signature s)
  · have hout : c.signature s ∈ ruledOut s cs := (h hnew.1).resolve_right hnew.2
    rw [firsts_concat_of_new hnew.1 hnew.2, List.filter_append]
    simp [hout, kept]
  · rw [not_and, not_not] at hnew
    rw [firsts_concat_of_not hnew, kept]

/-- An acceptable offer of a new signature is kept. -/
theorem kept_concat_of_new {cs : List Candidate} {c : Candidate} (hc : ¬ c.isSealing = true)
    (hacc : c.isAcceptable = true) (hout : c.signature s ∉ ruledOut s cs)
    (hnew : c.signature s ∉ (firsts s cs).map (Candidate.signature s)) :
    kept s (cs ++ [c]) = kept s cs ++ [c] := by
  rw [kept_concat_of_not_isSealing hc, firsts_concat_of_new hacc hnew, List.filter_append]
  simp [hout, kept]

/-- What holds of a collector after a list of offers. -/
structure Collected (s : Substitution) (cs : List Candidate) (c : Collector) : Prop where
  accepted_eq : c.accepted = (kept s cs).map fun a => (a.signature s, a)
  mem_forbidden_iff : ∀ σ, σ ∈ c.forbidden ↔ σ ∈ ruledOut s cs

/-- A collector that does not react to an offer was right not to. -/
theorem Collected.ignore {cs : List Candidate} {c : Collector} (h : Collected s cs c)
    {a : Candidate} (ha : ¬ a.isSealing = true) (hkept : kept s (cs ++ [a]) = kept s cs) :
    Collected s (cs ++ [a]) c where
  accepted_eq := by rw [hkept, h.accepted_eq]
  mem_forbidden_iff σ := by
    rw [h.mem_forbidden_iff, mem_ruledOut_concat]
    simp [ha]

/-- An offer more is answered as the law asks, whichever of the checks decides about it. The checks
that pass an offer over leave the collector as it is; the other two change it. -/
theorem Collected.offer {cs : List Candidate} {c : Collector} (h : Collected s cs c)
    (a : Candidate) : Collected s (cs ++ [a]) (c.offer s a) := by
  unfold Collector.offer
  dsimp only
  split_ifs with hgen hfinal hover hforb hany
  · -- what a compiler wrote is passed over before anything else is asked
    have hs : ¬ a.isSealing = true := by simp [Candidate.isSealing, hgen]
    have hacc : ¬ a.isAcceptable = true := by simp [Candidate.isAcceptable, hgen]
    exact h.ignore hs (kept_concat_of_known hs fun h => absurd h hacc)
  · -- a final offer takes what is kept of its signature away and rules the signature out
    have hs : a.isSealing = true := by simp [Candidate.isSealing, hgen, hfinal]
    refine ⟨?_, fun σ => ?_⟩
    · rw [kept_concat_of_isSealing hs, h.accepted_eq, List.filter_map]
      rfl
    · rw [List.mem_cons, h.mem_forbidden_iff, mem_ruledOut_concat, or_comm]
      simp [hs]
  · -- static, native, private and deprecated offers are passed over, too
    have hs := Candidate.not_isSealing_of_not_isFinal hfinal
    have hacc : ¬ a.isAcceptable = true := by simpa [Candidate.isAcceptable, hgen] using hover
    exact h.ignore hs (kept_concat_of_known hs fun h => absurd h hacc)
  · -- an acceptable offer comes too late if its signature has been ruled out
    have hs := Candidate.not_isSealing_of_not_isFinal hfinal
    exact h.ignore hs (kept_concat_of_known hs fun _ => .inl ((h.mem_forbidden_iff _).1 hforb))
  · -- or if one of its signature is kept
    have hs := Candidate.not_isSealing_of_not_isFinal hfinal
    refine h.ignore hs (kept_concat_of_known hs fun _ => .inr ?_)
    rw [h.accepted_eq] at hany
    simp only [List.any_map, List.any_eq_true, Function.comp, decide_eq_true_eq] at hany
    obtain ⟨b, hb, hσ⟩ := hany
    exact hσ ▸ List.mem_map_of_mem (List.mem_filter.1 hb).1
  · -- otherwise it is the first of its signature, and none has ruled that out
    have hs := Candidate.not_isSealing_of_not_isFinal hfinal
    have hacc : a.isAcceptable = true := by
      simpa [Candidate.isAcceptable, hgen] using hover
    have hout : a.signature s ∉ ruledOut s cs := fun h' => hforb ((h.mem_forbidden_iff _).2 h')
    have hnew : a.signature s ∉ (firsts s cs).map (Candidate.signature s) := by
      intro hmem
      obtain ⟨b, hb, hσ⟩ := List.mem_map.1 hmem
      apply hany
      have hbk : b ∈ kept s cs := List.mem_filter.2 ⟨hb, by simpa [hσ] using hout⟩
      rw [h.accepted_eq, List.any_eq_true]
      exact ⟨_, List.mem_map_of_mem hbk, by simpa using hσ⟩
    refine ⟨?_, fun σ => ?_⟩
    · rw [kept_concat_of_new hs hacc hout hnew, h.accepted_eq, List.map_append]
      rfl
    · show σ ∈ c.forbidden ↔ _
      rw [h.mem_forbidden_iff, mem_ruledOut_concat]
      simp [hs]

/-- What the collector keeps. -/
theorem collected_offerAll (cs : List Candidate) : Collected s cs (offerAll s cs) := by
  unfold offerAll
  induction cs using List.reverseRecOn with
  | nil => exact ⟨rfl, fun σ => Iff.rfl⟩
  | append_singleton cs c ih =>
    rw [List.foldl_append]
    exact ih.offer c

theorem candidates_offerAll (cs : List Candidate) : (offerAll s cs).candidates = kept s cs := by
  unfold candidates
  rw [(collected_offerAll cs).accepted_eq, List.map_map]
  exact List.map_id _

theorem mem_of_mem_firsts {cs : List Candidate} {c : Candidate} (h : c ∈ firsts s cs) : c ∈ cs := by
  induction cs with
  | nil => cases h
  | cons b cs ih =>
    by_cases hb : b.isAcceptable = true
    · rw [firsts, if_pos hb] at h
      rcases List.mem_cons.1 h with rfl | h
      · exact List.mem_cons_self
      · exact List.mem_cons_of_mem _ (ih (List.mem_filter.1 h).1)
    · rw [firsts_cons_of_not hb] at h
      exact List.mem_cons_of_mem _ (ih h)

theorem mem_of_mem_kept {cs : List Candidate} {c : Candidate} (h : c ∈ kept s cs) : c ∈ cs :=
  mem_of_mem_firsts (List.mem_filter.1 h).1

theorem nodup_signatures_kept (cs : List Candidate) :
    ((kept s cs).map (Candidate.signature s)).Nodup :=
  (nodup_firsts cs).sublist (List.filter_sublist.map _)

theorem signature_mem_kept_iff {cs : List Candidate} {σ : Signature} :
    σ ∈ (kept s cs).map (Candidate.signature s) ↔
      (∃ c ∈ cs, c.isAcceptable = true ∧ c.signature s = σ) ∧
        ¬ ∃ c ∈ cs, c.isSealing = true ∧ c.signature s = σ := by
  have hout : σ ∈ ruledOut s cs ↔ ∃ c ∈ cs, c.isSealing = true ∧ c.signature s = σ := by
    simp only [ruledOut, List.mem_map, List.mem_filter, and_assoc]
  rw [← hout, ← signature_mem_firsts_iff]
  constructor
  · intro h
    obtain ⟨a, ha, rfl⟩ := List.mem_map.1 h
    obtain ⟨hfirst, hnot⟩ := List.mem_filter.1 ha
    exact ⟨List.mem_map_of_mem hfirst, of_decide_eq_true hnot⟩
  · rintro ⟨h, hnot⟩
    obtain ⟨a, ha, rfl⟩ := List.mem_map.1 h
    exact List.mem_map_of_mem (List.mem_filter.2 ⟨ha, decide_eq_true hnot⟩)

/-! ## Offers that are replaced -/

section

variable {s' : Substitution} {f : Candidate → Candidate} {cs : List Candidate}
  (hacceptable : ∀ c, (f c).isAcceptable = c.isAcceptable)
  (hsealing : ∀ c, (f c).isSealing = c.isSealing)
  (hsignature : ∀ c ∈ cs, (f c).signature s' = c.signature s)

include hacceptable hsignature in
theorem firsts_map : firsts s' (cs.map f) = (firsts s cs).map f := by
  induction cs with
  | nil => rfl
  | cons c cs ih =>
    have hrest : ∀ b ∈ cs, (f b).signature s' = b.signature s :=
      fun b hb => hsignature b (List.mem_cons_of_mem _ hb)
    rw [List.map_cons, firsts, firsts, ih hrest, hacceptable]
    split
    · rw [List.map_cons, List.filter_map, hsignature c List.mem_cons_self]
      refine congrArg (f c :: List.map f ·) (List.filter_congr fun a ha => ?_)
      rw [Function.comp_apply, hrest a (mem_of_mem_firsts ha)]
    · rfl

include hsealing hsignature in
theorem ruledOut_map : ruledOut s' (cs.map f) = ruledOut s cs := by
  have hfilter : Candidate.isSealing ∘ f = Candidate.isSealing := funext hsealing
  rw [ruledOut, ruledOut, List.filter_map, hfilter, List.map_map]
  exact List.map_congr_left fun c hc => hsignature c (List.mem_filter.1 hc).1

include hacceptable hsealing hsignature in
/-- What is kept of offers that are replaced by others of their signatures. -/
theorem kept_map : kept s' (cs.map f) = (kept s cs).map f := by
  rw [kept, kept, firsts_map hacceptable hsignature, ruledOut_map hsealing hsignature,
    List.filter_map]
  refine congrArg (List.map f) (List.filter_congr fun a ha => ?_)
  rw [Function.comp_apply, hsignature a (mem_of_mem_firsts ha)]

end

end Collector

end StubGen
