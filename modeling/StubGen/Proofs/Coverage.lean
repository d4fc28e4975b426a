import StubGen.Members
import StubGen.Registry.Prelude
import StubGen.Proofs.Collector
import StubGen.Proofs.Hierarchy
import Mathlib.Data.Set.Basic

/-!
# Which methods are implemented

A method is visible to an implementation if it is a public member of the target or of anything the
target inherits from, or a protected or package member of a class on the target's chain of
superclasses. The implementation overrides exactly the signatures of visible methods that may be
overridden, less those that some visible method declares final.

Main results:

* `mem_offers_iff` — the offers are the visible methods;
* `signatures_resolveMethods` — the signatures that are implemented, each once.
-/

namespace StubGen.Members

open Relation

/-! ## Visible methods -/

/-- The type `d` declares the method `m`, and an implementation of `target` sees it. -/
def Visible (r : Registry) (target d : Declaration) (m : Method) : Prop :=
  m ∈ d.methods ∧
    (ReflTransGen (Hierarchy.Parent r) target d ∧ d.hasPublicMember m = true ∨
      ReflTransGen (Hierarchy.Superclass r) target d ∧ d.hasPublicMember m = false ∧
        m.modifiers.isPrivate = false ∧
        (m.modifiers.isProtected = true ∨ d.package = target.package))

/-- The signatures of visible methods that may be overridden. -/
def overridable (r : Registry) (s : Substitution) (target : Declaration) : Set Signature :=
  {σ | ∃ d m, Visible r target d m ∧ Signature.ofMethod s d.name m = σ ∧
    m.synthetic = false ∧ m.bridge = false ∧ m.modifiers.isFinal = false ∧
    m.modifiers.isStatic = false ∧ m.modifiers.isNative = false ∧ m.modifiers.isPrivate = false ∧
    ¬ (m.deprecated = true ∧ m.modifiers.isAbstract = false)}

/-- The signatures that a visible method declares final. -/
def final (r : Registry) (s : Substitution) (target : Declaration) : Set Signature :=
  {σ | ∃ d m, Visible r target d m ∧ Signature.ofMethod s d.name m = σ ∧
    m.synthetic = false ∧ m.bridge = false ∧ m.modifiers.isFinal = true}

/-! ## Offers -/

/-- A method as it is offered: the access of a public member is made explicit. -/
def offered (d : Declaration) (m : Method) : Candidate :=
  if d.hasPublicMember m then
    ⟨{ m with modifiers := m.modifiers.union (.single .publicAccess) }, d.name⟩
  else ⟨m, d.name⟩

variable {d : Declaration} {m : Method}

theorem signature_offered (s : Substitution) :
    (offered d m).signature s = Signature.ofMethod s d.name m := by
  unfold offered
  split <;> rfl

theorem isSealing_offered :
    (offered d m).isSealing = true ↔
      m.synthetic = false ∧ m.bridge = false ∧ m.modifiers.isFinal = true := by
  rw [Candidate.isSealing_iff]
  unfold offered
  split <;> simp [Modifiers.isFinal]

theorem isAcceptable_offered :
    (offered d m).isAcceptable = true ↔
      m.synthetic = false ∧ m.bridge = false ∧ m.modifiers.isFinal = false ∧
        m.modifiers.isStatic = false ∧ m.modifiers.isNative = false ∧
        m.modifiers.isPrivate = false ∧
        ¬ (m.deprecated = true ∧ m.modifiers.isAbstract = false) := by
  rw [Candidate.isAcceptable_iff]
  unfold offered
  split
  · -- acceptance is not about the public modifier, which is all that an offer adds
    simp [Modifiers.isFinal, Modifiers.isStatic, Modifiers.isNative, Modifiers.isPrivate,
      Modifiers.isAbstract]
  · rfl

variable {r : Registry} {target : Declaration}

theorem mem_publicMembers_iff {c : Candidate} :
    c ∈ publicMembers d ↔ ∃ m ∈ d.methods, d.hasPublicMember m = true ∧ c = offered d m := by
  simp only [publicMembers, List.mem_map, List.mem_filter]
  constructor
  · rintro ⟨m, ⟨hm, hpub⟩, rfl⟩
    exact ⟨m, hm, hpub, by rw [offered, if_pos hpub]⟩
  · rintro ⟨m, hm, hpub, rfl⟩
    exact ⟨m, ⟨hm, hpub⟩, by rw [offered, if_pos hpub]⟩

theorem mem_restrictedMembers_iff {package : String} {c : Candidate} :
    c ∈ restrictedMembers package d ↔
      ∃ m ∈ d.methods, d.hasPublicMember m = false ∧ m.modifiers.isPrivate = false ∧
        (m.modifiers.isProtected = true ∨ d.package = package) ∧ c = offered d m := by
  simp only [restrictedMembers, List.mem_map, List.mem_filter, Bool.and_eq_true, Bool.or_eq_true,
    Bool.not_eq_true', beq_iff_eq]
  constructor
  · rintro ⟨m, ⟨hm, ⟨hpub, hpriv⟩, hacc⟩, rfl⟩
    exact ⟨m, hm, hpub, hpriv, hacc, by rw [offered, if_neg (by simp [hpub])]⟩
  · rintro ⟨m, hm, hpub, hpriv, hacc, rfl⟩
    exact ⟨m, ⟨hm, ⟨hpub, hpriv⟩, hacc⟩, by rw [offered, if_neg (by simp [hpub])]⟩

/-- The methods offered for a declared type are those visible to it. -/
theorem mem_offers_iff (htarget : r.lookup target.name = some target) {c : Candidate} :
    c ∈ offers r target ↔ ∃ d m, Visible r target d m ∧ c = offered d m := by
  simp only [offers, Hierarchy.preorder, Hierarchy.chain, List.mem_append, List.mem_flatMap,
    Hierarchy.mem_visited_iff htarget, mem_publicMembers_iff, mem_restrictedMembers_iff]
  -- the walk over all supertypes brings the public members, the chain of superclasses the others
  constructor
  · rintro (⟨d, hd, m, hm, hpub, rfl⟩ | ⟨d, hd, m, hm, hpub, hpriv, hacc, rfl⟩)
    · exact ⟨d, m, ⟨hm, .inl ⟨hd, hpub⟩⟩, rfl⟩
    · exact ⟨d, m, ⟨hm, .inr ⟨hd, hpub, hpriv, hacc⟩⟩, rfl⟩
  · rintro ⟨d, m, ⟨hm, ⟨hd, hpub⟩ | ⟨hd, hpub, hpriv, hacc⟩⟩, rfl⟩
    · exact .inl ⟨d, hd, m, hm, hpub, rfl⟩
    · exact .inr ⟨d, hd, m, hm, hpub, hpriv, hacc, rfl⟩

/-! ## Coverage -/

theorem resolveMethods_eq_kept (s : Substitution) :
    resolveMethods r s target = Collector.kept s (offers r target) :=
  Collector.candidates_offerAll _

/-- An offer of a signature is a visible method of that signature. -/
theorem exists_mem_offers_iff (htarget : r.lookup target.name = some target) {s : Substitution}
    {σ : Signature} (P : Candidate → Prop) :
    (∃ c ∈ offers r target, P c ∧ c.signature s = σ) ↔
      ∃ d m, Visible r target d m ∧ Signature.ofMethod s d.name m = σ ∧ P (offered d m) := by
  constructor
  · rintro ⟨c, hc, hP, rfl⟩
    obtain ⟨d, m, hvis, rfl⟩ := (mem_offers_iff htarget).1 hc
    exact ⟨d, m, hvis, (signature_offered s).symm, hP⟩
  · rintro ⟨d, m, hvis, rfl, hP⟩
    exact ⟨offered d m, (mem_offers_iff htarget).2 ⟨d, m, hvis, rfl⟩, hP, signature_offered s⟩

theorem mem_overridable_iff (htarget : r.lookup target.name = some target) {s : Substitution}
    {σ : Signature} :
    σ ∈ overridable r s target ↔
      ∃ c ∈ offers r target, c.isAcceptable = true ∧ c.signature s = σ := by
  rw [exists_mem_offers_iff htarget fun c => c.isAcceptable = true]
  simp only [isAcceptable_offered]
  rfl

theorem mem_final_iff (htarget : r.lookup target.name = some target) {s : Substitution}
    {σ : Signature} :
    σ ∈ final r s target ↔ ∃ c ∈ offers r target, c.isSealing = true ∧ c.signature s = σ := by
  rw [exists_mem_offers_iff htarget fun c => c.isSealing = true]
  simp only [isSealing_offered]
  rfl

/-- The methods of an implementation have the overridable signatures that are not final, each once.
The registry need not be valid. -/
theorem signatures_resolveMethods {n : BinaryName} (htarget : r.lookup n = some target) :
    let s := Closure.substitution r target
    let signatures := (resolveMethods r s target).map (Candidate.signature s)
    signatures.Nodup ∧
      ∀ σ, σ ∈ signatures ↔ σ ∈ overridable r s target \ final r s target := by
  obtain rfl := Registry.name_of_lookup htarget
  intro s signatures
  refine ⟨?_, fun σ => ?_⟩
  · show ((resolveMethods r s target).map (Candidate.signature s)).Nodup
    rw [resolveMethods_eq_kept]
    exact Collector.nodup_signatures_kept _
  · show σ ∈ (resolveMethods r s target).map (Candidate.signature s) ↔ _
    rw [resolveMethods_eq_kept, Collector.signature_mem_kept_iff, Set.mem_sdiff,
      mem_overridable_iff htarget, mem_final_iff htarget]

theorem signatures_resolveMethods_enum :
    Registry.prelude.lookup .enum = some Prelude.enum ∧
    let s := Closure.substitution .prelude Prelude.enum
    let signatures := (resolveMethods .prelude s Prelude.enum).map (Candidate.signature s)
    signatures.Nodup ∧
      ∀ σ, σ ∈ signatures ↔
        σ ∈ overridable .prelude s Prelude.enum \ final .prelude s Prelude.enum := by
  have henum : Registry.prelude.lookup .enum = some Prelude.enum := rfl
  exact ⟨henum, signatures_resolveMethods henum⟩

end StubGen.Members
