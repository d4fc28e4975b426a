import StubGen.Proofs.Coverage
import StubGen.Proofs.Hierarchy.Mapping
import Mathlib.Data.List.Perm.Basic

/-!
# What the order of the offers decides

Which signatures a collector accepts is decided by the offers as a whole: a signature needs an
acceptable offer and must not be ruled out, early or late. The order only decides which method is
kept for a signature, namely its first acceptable offer, and how the kept methods stand, namely as
these first offers do. So the methods of a type may be declared in any order, and the same
signatures are accepted.

Main results:

* `Collector.pairwise_findIdx_firsts` — first offers stand in the order of the offers;
* `Members.offers_perm` — reordered declarations give reordered offers;
* `Collector.offerAll_law` — the outcome of any list of offers.
-/

namespace StubGen

/-! ## What an offer can do -/

namespace Candidate

/-- A method that may be kept: written in source text, open to overriding, and not deprecated
unless it must be implemented. -/
def Acceptable (c : Candidate) : Prop :=
  c.method.synthetic = false ∧ c.method.bridge = false ∧
    c.method.modifiers.isFinal = false ∧ c.method.modifiers.isStatic = false ∧
    c.method.modifiers.isNative = false ∧ c.method.modifiers.isPrivate = false ∧
    ¬ (c.method.deprecated = true ∧ c.method.modifiers.isAbstract = false)

/-- A final method that is written in source text. -/
def Sealing (c : Candidate) : Prop :=
  c.method.synthetic = false ∧ c.method.bridge = false ∧ c.method.modifiers.isFinal = true

instance (c : Candidate) : Decidable c.Acceptable := decidable_of_iff _ isAcceptable_iff

theorem acceptable_iff {c : Candidate} : c.Acceptable ↔ c.isAcceptable = true :=
  isAcceptable_iff.symm

theorem sealing_iff {c : Candidate} : c.Sealing ↔ c.isSealing = true := isSealing_iff.symm

/-- Whether a method is an acceptable offer of a signature. -/
def offersFor (s : Substitution) (σ : Signature) (c : Candidate) : Bool :=
  decide (c.Acceptable ∧ c.signature s = σ)

end Candidate

/-! ## First offers by their place -/

namespace Collector

variable {s : Substitution}

theorem offersFor_of_not_isAcceptable {c : Candidate} (hc : ¬ c.isAcceptable = true)
    (σ : Signature) : c.offersFor s σ = false := by
  simp [Candidate.offersFor, Candidate.acceptable_iff, hc]

theorem offersFor_of_ne {c : Candidate} {σ : Signature} (hσ : σ ≠ c.signature s) :
    c.offersFor s σ = false := by
  simp [Candidate.offersFor, hσ.symm]

/-- Of each signature, the first acceptable offer is kept. -/
theorem find?_of_mem_firsts {cs : List Candidate} {a : Candidate} (ha : a ∈ firsts s cs) :
    cs.find? (Candidate.offersFor s (a.signature s)) = some a := by
  induction cs with
  | nil => cases ha
  | cons c cs ih =>
    by_cases hc : c.isAcceptable = true
    · rw [firsts, if_pos hc] at ha
      -- the offer at the front is the first of its own signature, and no other is
      rcases List.mem_cons.1 ha with rfl | ha
      · have hoffers : a.offersFor s (a.signature s) = true := by
          simp [Candidate.offersFor, Candidate.acceptable_iff, hc]
        rw [List.find?_cons_of_pos hoffers]
      · obtain ⟨ha, hne⟩ := List.mem_filter.1 ha
        have hpass := offersFor_of_ne (of_decide_eq_true hne)
        rw [List.find?_cons_of_neg (by simp [hpass]), ih ha]
    · -- an offer that is not acceptable is the first of none
      rw [firsts_cons_of_not hc] at ha
      have hpass := offersFor_of_not_isAcceptable (s := s) hc (a.signature s)
      rw [List.find?_cons_of_neg (by simp [hpass]), ih ha]

/-- The first offers stand as the offers do: the place of the first acceptable offer of a signature
grows from one to the next. -/
theorem pairwise_findIdx_firsts (cs : List Candidate) :
    (firsts s cs).Pairwise fun a b =>
      cs.findIdx (Candidate.offersFor s (a.signature s)) <
        cs.findIdx (Candidate.offersFor s (b.signature s)) := by
  induction cs with
  | nil => exact .nil
  | cons c cs ih =>
    -- past `c`, every place moves up by one
    have hmove : ∀ a b : Candidate, c.offersFor s (a.signature s) = false →
        c.offersFor s (b.signature s) = false →
        cs.findIdx (Candidate.offersFor s (a.signature s)) <
          cs.findIdx (Candidate.offersFor s (b.signature s)) →
        (c :: cs).findIdx (Candidate.offersFor s (a.signature s)) <
          (c :: cs).findIdx (Candidate.offersFor s (b.signature s)) := by
      intro a b ha hb hlt
      rw [List.findIdx_cons, List.findIdx_cons, ha, hb]
      exact Nat.succ_lt_succ hlt
    -- an acceptable offer is the first of its signature, so the others of that signature go
    by_cases hc : c.isAcceptable = true
    · have hpass : ∀ a ∈ (firsts s cs).filter fun a => a.signature s ≠ c.signature s,
          c.offersFor s (a.signature s) = false :=
        fun a ha => offersFor_of_ne (of_decide_eq_true (List.mem_filter.1 ha).2)
      rw [firsts, if_pos hc, List.pairwise_cons]
      constructor
      · -- the offer at the front comes before all others
        intro b hb
        have hoffers : c.offersFor s (c.signature s) = true := by
          simp [Candidate.offersFor, Candidate.acceptable_iff, hc]
        rw [List.findIdx_cons, List.findIdx_cons, hoffers, hpass b hb]
        exact Nat.succ_pos _
      · exact (ih.filter _).imp_of_mem fun ha hb => hmove _ _ (hpass _ ha) (hpass _ hb)
    · have hpass := offersFor_of_not_isAcceptable (s := s) hc
      rw [firsts_cons_of_not hc]
      exact ih.imp fun {a b} => hmove a b (hpass _) (hpass _)

theorem accepted_offerAll (cs : List Candidate) :
    (offerAll s cs).accepted = (kept s cs).map fun a => (a.signature s, a) :=
  (collected_offerAll cs).accepted_eq

theorem signature_mem_accepted_iff {cs : List Candidate} {σ : Signature} :
    σ ∈ (offerAll s cs).accepted.map (·.1) ↔
      (∃ a ∈ cs, a.Acceptable ∧ a.signature s = σ) ∧
        ¬ ∃ a ∈ cs, a.Sealing ∧ a.signature s = σ := by
  have hmap : (offerAll s cs).accepted.map (·.1) = (kept s cs).map (Candidate.signature s) := by
    rw [accepted_offerAll, List.map_map]
    rfl
  simp only [hmap, signature_mem_kept_iff, Candidate.acceptable_iff, Candidate.sealing_iff]

theorem signature_mem_accepted_perm {cs cs' : List Candidate} (h : cs.Perm cs') (σ : Signature) :
    σ ∈ (offerAll s cs').accepted.map (·.1) ↔ σ ∈ (offerAll s cs).accepted.map (·.1) := by
  rw [signature_mem_accepted_iff, signature_mem_accepted_iff]
  simp only [h.mem_iff]

end Collector

/-! ## Methods in another order -/

/-- `e` is `d` with its methods in another order. -/
def Declaration.Reordered (d e : Declaration) : Prop :=
  ∃ ms, ms.Perm d.methods ∧ e = { d with methods := ms }

namespace Members

variable {r : Registry} {target d e : Declaration}

theorem publicMembers_perm (h : d.Reordered e) : (publicMembers e).Perm (publicMembers d) := by
  obtain ⟨ms, hms, rfl⟩ := h
  exact (hms.filter _).map _

theorem restrictedMembers_perm (package : String) (h : d.Reordered e) :
    (restrictedMembers package e).Perm (restrictedMembers package d) := by
  obtain ⟨ms, hms, rfl⟩ := h
  exact (hms.filter _).map _

section

variable {f : Declaration → Declaration} (hf : ∀ d : Declaration, d.Reordered (f d))

include hf

theorem name_of_reordered (d : Declaration) : (f d).name = d.name := by
  obtain ⟨ms, -, heq⟩ := hf d
  rw [heq]

/-- Neither pass looks at the methods to find its way. -/
theorem visited_map {next : Declaration → List TypeRef}
    (hnext : ∀ (d : Declaration) (ms : List Method), next { d with methods := ms } = next d)
    (r : Registry) (target : Declaration) :
    Hierarchy.visited (r.map f) next (f target) = (Hierarchy.visited r next target).map f := by
  refine (Hierarchy.mirrors_map (g := id) (name_of_reordered hf) (fun _ => rfl) (fun d => ?_)
    r target).visited
  obtain ⟨ms, -, heq⟩ := hf d
  rw [heq, List.map_id, hnext]

theorem preorder_map (r : Registry) (target : Declaration) :
    Hierarchy.preorder (r.map f) (f target) = (Hierarchy.preorder r target).map f :=
  visited_map hf (fun _ _ => rfl) r target

theorem chain_map (r : Registry) (target : Declaration) :
    Hierarchy.chain (r.map f) (f target) = (Hierarchy.chain r target).map f :=
  visited_map hf (fun _ _ => rfl) r target

theorem offers_perm (r : Registry) (target : Declaration) :
    (offers (r.map f) (f target)).Perm (offers r target) := by
  have hpackage : (f target).package = target.package :=
    congrArg BinaryName.package (name_of_reordered hf target)
  rw [offers, offers, preorder_map hf, chain_map hf, hpackage, List.flatMap_map, List.flatMap_map]
  refine .append (.flatMap_left _ fun d _ => ?_) (.flatMap_left _ fun d _ => ?_)
  · exact publicMembers_perm (hf d)
  · exact restrictedMembers_perm _ (hf d)

end

end Members

/-! ## The outcome -/

namespace Collector

/-- After any list of offers: the signatures accepted are those with an acceptable offer and without
a final one; each is accepted with its first acceptable offer; these stand in the order in which they
were offered; and nothing accepted is forbidden. No order of the offers changes the signatures, nor
does the order in which types declare their methods. -/
theorem offerAll_law (s : Substitution) (cs : List Candidate) :
    let c := offerAll s cs
    (∀ σ, σ ∈ c.accepted.map (·.1) ↔
      (∃ a ∈ cs, a.Acceptable ∧ a.signature s = σ) ∧
        ¬ ∃ a ∈ cs, a.Sealing ∧ a.signature s = σ) ∧
    (∀ a ∈ c.accepted, cs.find? (Candidate.offersFor s a.1) = some a.2) ∧
    (c.accepted.Pairwise fun a b =>
      cs.findIdx (Candidate.offersFor s a.1) < cs.findIdx (Candidate.offersFor s b.1)) ∧
    (∀ a ∈ c.accepted, a.1 ∉ c.forbidden) ∧
    (∀ cs' : List Candidate, cs.Perm cs' →
      ∀ σ, σ ∈ (offerAll s cs').accepted.map (·.1) ↔ σ ∈ c.accepted.map (·.1)) ∧
    ∀ (r : Registry) (target : Declaration) (f : Declaration → Declaration),
      (∀ d : Declaration, d.Reordered (f d)) →
      ∀ σ, σ ∈ (offerAll s (Members.offers (r.map f) (f target))).accepted.map (·.1) ↔
        σ ∈ (offerAll s (Members.offers r target)).accepted.map (·.1) := by
  intro c
  have haccepted : c.accepted = (kept s cs).map fun a => (a.signature s, a) :=
    accepted_offerAll cs
  refine ⟨fun σ => signature_mem_accepted_iff, ?_, ?_, ?_, ?_, ?_⟩
  · intro a ha
    rw [haccepted] at ha
    obtain ⟨b, hb, rfl⟩ := List.mem_map.1 ha
    exact find?_of_mem_firsts (List.mem_filter.1 hb).1
  · rw [haccepted, List.pairwise_map]
    exact (pairwise_findIdx_firsts cs).filter _
  · -- a signature is forbidden as soon as it is ruled out, and what is kept is not
    intro a ha hforbidden
    rw [haccepted] at ha
    obtain ⟨b, hb, rfl⟩ := List.mem_map.1 ha
    have hnot := of_decide_eq_true (List.mem_filter.1 hb).2
    exact hnot (((collected_offerAll cs).mem_forbidden_iff _).1 hforbidden)
  · exact fun cs' h σ => signature_mem_accepted_perm h σ
  · exact fun r target f hf σ => signature_mem_accepted_perm (Members.offers_perm hf r target).symm σ

end Collector

/-! ## A final method between two that are not -/

namespace Evicting

open Collector

def run : Method := { name := "run", modifiers := .ofList [.publicAccess, .abstract] }

def stop : Method := { name := "stop", modifiers := .ofList [.publicAccess, .abstract] }

def finalRun : Method := { run with modifiers := .ofList [.publicAccess, .final] }

/-- `run` and `stop` are offered and accepted, a final `run` drives the first one out, and a later
`run` comes too late. -/
def offered : List Candidate :=
  [⟨run, ⟨"A"⟩⟩, ⟨stop, ⟨"A"⟩⟩, ⟨finalRun, ⟨"B"⟩⟩, ⟨run, ⟨"C"⟩⟩]

/-- An interface with the two methods. -/
def service : Declaration := { Declaration.interface ⟨"Service"⟩ with methods := [run, stop] }

/-- A declaration with its methods the other way round. -/
def reversed (d : Declaration) : Declaration := { d with methods := d.methods.reverse }

theorem offerAll_law_of_offered :
    let c := offerAll .empty offered
    (∀ σ, σ ∈ c.accepted.map (·.1) ↔
      (∃ a ∈ offered, a.Acceptable ∧ a.signature .empty = σ) ∧
        ¬ ∃ a ∈ offered, a.Sealing ∧ a.signature .empty = σ) ∧
    (∀ σ, σ ∈ (offerAll .empty offered.reverse).accepted.map (·.1) ↔ σ ∈ c.accepted.map (·.1)) ∧
    ∀ σ, σ ∈ (offerAll .empty
        (Members.offers (Registry.map reversed ⟨[service]⟩) (reversed service))).accepted.map (·.1) ↔
      σ ∈ (offerAll .empty (Members.offers ⟨[service]⟩ service)).accepted.map (·.1) := by
  intro c
  have hreversed : ∀ d : Declaration, d.Reordered (reversed d) := fun d =>
    ⟨d.methods.reverse, List.reverse_perm _, rfl⟩
  obtain ⟨hmem, -, -, -, hperm, hdeclared⟩ := offerAll_law .empty offered
  exact ⟨hmem, hperm _ (List.reverse_perm _).symm, hdeclared ⟨[service]⟩ service reversed hreversed⟩

/-- Only `stop` is left. -/
example : (offerAll .empty offered).candidates = [⟨stop, ⟨"A"⟩⟩] := by decide

end Evicting

end StubGen
