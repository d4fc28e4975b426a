import StubGen.Generator
import StubGen.Proofs.Precedence
import StubGen.Proofs.Render
import StubGen.Proofs.Scoping

/-!
# The access of implemented methods

Source text may not give a method less access than a declaration that it overrides. An implemented
method has the access of the declaration it is taken from. That is the widest there is where every
override keeps the access of what it overrides, as long as no wider declaration has been skipped: a
skipped declaration makes way for a declaration further up, which may be less accessible.

Main results:

* `Members.access_not_weakened` — when an implemented method has the widest access;
* `Narrowing.leaf_weakens_run` — a skipped public method makes way for a protected one.
-/

namespace StubGen

open Relation

/-- How widely a member can be used: in its package, in subclasses too, or everywhere. -/
def Modifiers.openness (s : Modifiers) : Nat :=
  if s.isPublic then 2 else if s.isProtected then 1 else 0

theorem Modifiers.openness_le_two (s : Modifiers) : s.openness ≤ 2 := by
  unfold openness
  split
  · exact Nat.le_refl 2
  · split <;> omega

namespace Members

variable {r : Registry} {target : Declaration}

/-- Where a member is public its offer says so. -/
theorem openness_offered {d : Declaration} {m : Method} (h : d.hasPublicMember m = true) :
    (offered d m).method.modifiers.openness = 2 := by
  rw [offered, if_pos h]
  simp [Modifiers.openness, Modifiers.isPublic]

/-- Among the visible methods of objects, those that override another one are at least as widely
accessible. -/
def OverridesKeepAccess (r : Registry) (s : Substitution) (target : Declaration) : Prop :=
  ∀ d m e m', Visible r target d m → m.IsInstance → Visible r target e m' → m'.IsInstance →
    Signature.ofMethod s d.name m = Signature.ofMethod s e.name m' →
    TransGen (Hierarchy.Parent r) d e →
    (offered e m').method.modifiers.openness ≤ (offered d m).method.modifiers.openness

/-- No visible declaration of an implemented method is final. -/
theorem not_isFinal_of_mem_resolveMethods (htarget : r.lookup target.name = some target)
    {s : Substitution} {c : Candidate} (hc : c ∈ resolveMethods r s target) {e : Declaration}
    {m : Method} (hvis : Visible r target e m) (hinstance : m.IsInstance)
    (hsig : Signature.ofMethod s e.name m = c.signature s) : m.modifiers.isFinal = false := by
  rw [resolveMethods_eq_kept] at hc
  have hkept := Collector.signature_mem_kept_iff.1 (List.mem_map_of_mem hc)
  refine Bool.eq_false_iff.2 fun hfinal => hkept.2 ⟨offered e m, ?_, ?_, ?_⟩
  · exact (mem_offers_iff htarget).2 ⟨e, m, hvis, rfl⟩
  · exact isSealing_offered.2 ⟨hinstance.notSynthetic, hinstance.notBridge, hfinal⟩
  · exact (signature_offered s).trans hsig

/-- If overrides keep access, an implemented method is taken from a visible declaration and is at
least as widely accessible as every visible declaration of its signature, with two exceptions:
those that are skipped and that the declaration it is taken from does not override, and those of
the same type that are not public, among which the first is taken. -/
theorem access_not_weakened {n : BinaryName} (htarget : r.lookup n = some target)
    (hkeep : OverridesKeepAccess r (Closure.substitution r target) target) {c : Candidate}
    (hc : c ∈ resolveMethods r (Closure.substitution r target) target) :
    ∃ d m, Visible r target d m ∧ m.IsImplementable ∧ c = offered d m ∧
      ∀ e m', Visible r target e m' → m'.IsInstance →
        Signature.ofMethod (Closure.substitution r target) e.name m' =
          c.signature (Closure.substitution r target) →
        (e = d → e.hasPublicMember m' = true) →
        (m'.IsSkipped → TransGen (Hierarchy.Parent r) d e) →
        (offered e m').method.modifiers.openness ≤ c.method.modifiers.openness := by
  obtain rfl := Registry.name_of_lookup htarget
  -- the declaration behind the candidate comes before every other one that could take its place
  obtain ⟨d, m, hvis, himpl, rfl, hfirst⟩ := first_of_mem_resolveMethods htarget hc
  refine ⟨d, m, hvis, himpl, rfl, ?_⟩
  intro e m' hvis' hinstance hsig hsame hskipped
  have hsig' : Signature.ofMethod (Closure.substitution r target) d.name m =
      Signature.ofMethod (Closure.substitution r target) e.name m' := by
    rw [hsig, signature_offered]
  -- an overridden declaration is no more accessible, whether it is skipped or not
  have hsub : TransGen (Hierarchy.Parent r) d e →
      (offered e m').method.modifiers.openness ≤ (offered d m).method.modifiers.openness :=
    hkeep d m e m' hvis himpl.toIsInstance hvis' hinstance hsig'
  -- a skipped declaration is one of the exceptions, so it is overridden by assumption
  by_cases hskip : m'.IsSkipped
  · exact hsub (hskipped hskip)
  have hfinal := not_isFinal_of_mem_resolveMethods htarget hc hvis' hinstance hsig
  rcases hfirst e m' hvis' ⟨hinstance, hfinal, hskip⟩ hsig with ⟨hpub, -⟩ | ⟨-, hpub', hcomes⟩
  · -- nothing is more accessible than a public member
    rw [openness_offered hpub]
    exact Modifiers.openness_le_two _
  · -- neither is public, so both are in the chain, and the other one is further up
    have hne : d ≠ e := by
      intro heq
      rw [hsame heq.symm] at hpub'
      cases hpub'
    have hup : TransGen (Hierarchy.Superclass r) d e :=
      hcomes.rel (Hierarchy.pairwise_chain r target) (hvis'.mem_chain htarget hpub') hne
    exact hsub (TransGen.mono (fun _ _ => Hierarchy.parent_of_superclass) _ _ hup)

end Members

/-! ## A skipped public method -/

namespace Narrowing

/-- A protected abstract method `run`. -/
def protectedRun : Method :=
  { name := "run", modifiers := .ofList [.protectedAccess, .abstract] }

/-- A public method `run` with a body. -/
def publicRun (deprecated : Bool) : Method :=
  { name := "run", modifiers := .ofList [.publicAccess], deprecated }

/-- The class `Top`, which declares `run` as protected. -/
def top : Declaration :=
  { name := ⟨"Top"⟩
    modifiers := .ofList [.publicAccess, .abstract]
    methods := [protectedRun] }

/-- The class `Middle`, which overrides `run` as public. -/
def middle (deprecated : Bool) : Declaration :=
  { name := ⟨"Middle"⟩
    modifiers := .ofList [.publicAccess, .abstract]
    superclass := some (.named ⟨"Top"⟩)
    methods := [publicRun deprecated] }

/-- The class `Leaf`, which extends `Middle`. -/
def leaf : Declaration :=
  { name := ⟨"Leaf"⟩
    modifiers := .ofList [.publicAccess, .abstract]
    superclass := some (.named ⟨"Middle"⟩) }

/-- The generator over the three classes. -/
def generator (deprecated : Bool) : Generator := ⟨⟨[top, middle deprecated, leaf]⟩, {}⟩

theorem valid (deprecated : Bool) :
    Inheritance.validate (generator deprecated).registry = .ok () := by
  cases deprecated
  · exact Inheritance.validate_eq_ok_of_rank (by decide)
      (generator false).registry.names.reverse.idxOf (by decide)
  · exact Inheritance.validate_eq_ok_of_rank (by decide)
      (generator true).registry.names.reverse.idxOf (by decide)

/-- Each of the classes has nothing above it but its superclass. -/
theorem visited_leaf (deprecated : Bool) {next : Declaration → List TypeRef}
    (hnext : ∀ d ∈ [leaf, middle deprecated, top], next d = d.effectiveSuperclass.toList) :
    Hierarchy.visited (generator deprecated).registry next leaf =
      [leaf, middle deprecated, top] := by
  have hleaf : next leaf = [.named ⟨"Middle"⟩] := hnext leaf (by simp)
  have hmiddle : next (middle deprecated) = [.named ⟨"Top"⟩] :=
    hnext (middle deprecated) (by simp)
  have htop : next top = [.object] := hnext top (by simp)
  -- a superclass that is declared is entered, and the walk ends at the one that is not
  have hwalks : Hierarchy.Walks (generator deprecated).registry next [leaf.name]
      (Hierarchy.clauses next leaf)
      [⟨leaf, .named ⟨"Middle"⟩, some (middle deprecated), true⟩,
        ⟨middle deprecated, .named ⟨"Top"⟩, some top, true⟩, ⟨top, .object, none, false⟩] := by
    rw [Hierarchy.clauses, hleaf]
    refine .enter rfl (by simp [leaf, middle]) ?_
    rw [Hierarchy.clauses, hmiddle]
    refine .enter rfl (by simp [leaf, middle, top]) ?_
    rw [Hierarchy.clauses, htop]
    refine .pass rfl ?_ .done
    rintro p ⟨⟩
  rw [Hierarchy.visited, Hierarchy.steps, (Hierarchy.walks _ _).unique hwalks]
  rfl

theorem preorder_leaf (deprecated : Bool) :
    Hierarchy.preorder (generator deprecated).registry leaf = [leaf, middle deprecated, top] :=
  visited_leaf deprecated (by decide +revert)

theorem chain_leaf (deprecated : Bool) :
    Hierarchy.chain (generator deprecated).registry leaf = [leaf, middle deprecated, top] :=
  visited_leaf deprecated fun _ _ => rfl

theorem reachable_iff (deprecated : Bool) {d : Declaration} :
    ReflTransGen (Hierarchy.Parent (generator deprecated).registry) leaf d ↔
      d = leaf ∨ d = middle deprecated ∨ d = top := by
  have hleaf : (generator deprecated).registry.lookup leaf.name = some leaf := rfl
  rw [← Hierarchy.mem_visited_iff hleaf, ← Hierarchy.preorder, preorder_leaf]
  simp

theorem hasPublicMember_publicRun (deprecated : Bool) :
    (middle deprecated).hasPublicMember (publicRun deprecated) = true :=
  Declaration.hasPublicMember_iff.2 (.inl (by cases deprecated <;> decide))

theorem not_parent_top (deprecated : Bool) (d : Declaration) :
    ¬ Hierarchy.Parent (generator deprecated).registry top d := by
  rintro ⟨t, ht, hd⟩
  -- what extends the root class without saying so names nothing that is declared here
  rcases Declaration.mem_supertypes_iff.1 ht with h | ⟨-, -, -, rfl⟩ | h
  · cases h
  · cases hd
  · cases h

/-- `Middle` has `run` public, and nothing else overrides anything. -/
theorem overridesKeepAccess (deprecated : Bool) (s : Substitution) :
    Members.OverridesKeepAccess (generator deprecated).registry s leaf := by
  intro d m e m' hvis _ hvis' _ _ hsub
  rcases (reachable_iff deprecated).1 hvis.reachable with rfl | rfl | rfl
  · cases hvis.1
  · obtain rfl := List.mem_singleton.1 hvis.1
    rw [Members.openness_offered (hasPublicMember_publicRun deprecated)]
    exact Modifiers.openness_le_two _
  · obtain ⟨b, hb, -⟩ := TransGen.head'_iff.1 hsub
    exact absurd hb (not_parent_top deprecated b)

/-- A deprecated method of `Middle` makes way for the one of `Top`. -/
theorem resolveMethods_leaf (deprecated : Bool) (s : Substitution) :
    Members.resolveMethods (generator deprecated).registry s leaf =
      if deprecated then [Members.offered top protectedRun]
      else [Members.offered (middle deprecated) (publicRun deprecated)] := by
  rw [Members.resolveMethods, Members.offers, preorder_leaf, chain_leaf]
  cases deprecated with
  | false => cbv
  | true => cbv

theorem access_not_weakened_in_leaf :
    let r := (generator false).registry
    let s := Closure.substitution r leaf
    let c := Members.offered (middle false) (publicRun false)
    (r.lookup ⟨"Leaf"⟩ = some leaf ∧ Members.OverridesKeepAccess r s leaf ∧
      c ∈ Members.resolveMethods r s leaf) ∧
    ∃ d m, Members.Visible r leaf d m ∧ m.IsImplementable ∧ c = Members.offered d m ∧
      ∀ e m', Members.Visible r leaf e m' → m'.IsInstance →
        Signature.ofMethod s e.name m' = c.signature s →
        (e = d → e.hasPublicMember m' = true) →
        (m'.IsSkipped → TransGen (Hierarchy.Parent r) d e) →
        (Members.offered e m').method.modifiers.openness ≤ c.method.modifiers.openness := by
  intro r s c
  have hleaf : r.lookup ⟨"Leaf"⟩ = some leaf := rfl
  have hkeep := overridesKeepAccess false s
  have hmem : c ∈ Members.resolveMethods r s leaf := by
    rw [resolveMethods_leaf]
    exact List.mem_singleton.2 rfl
  exact ⟨⟨hleaf, hkeep, hmem⟩, Members.access_not_weakened hleaf hkeep hmem⟩

theorem method_protectedRun :
    ((generator true).stub leaf).method (Members.offered top protectedRun) =
      .ok "\n    @Override\n    protected void run() \x7b\n    \x7d\n" := by
  have hundeclared : (generator true).registry.lookup .void = none := by decide
  have hrender : ((generator true).stub leaf).scope.render .void = .ok "void" :=
    Scope.render_void hundeclared
  have hdefault : Stub.defaultValue .void = none := by decide
  have hoffered : Members.offered top protectedRun = ⟨protectedRun, ⟨"Top"⟩⟩ := by decide
  rw [hoffered]
  simp only [Stub.method, protectedRun, hdefault, hrender]
  rfl

/-- With the method of `Middle` deprecated, `Leaf` implements the protected one of `Top`. -/
theorem leaf_weakens_run :
    let g := generator true
    let s := g.substitution leaf
    let c := Members.offered top protectedRun
    Inheritance.validate g.registry = .ok () ∧ Members.OverridesKeepAccess g.registry s leaf ∧
      g.target (.named ⟨"Leaf"⟩) = .ok leaf ∧ leaf.kind = .classType ∧
      c ∈ Members.resolveMethods g.registry s leaf ∧
      Members.Visible g.registry leaf (middle true) (publicRun true) ∧
      (publicRun true).IsInstance ∧
      Signature.ofMethod s (middle true).name (publicRun true) = c.signature s ∧
      c.method.modifiers.openness <
        (Members.offered (middle true) (publicRun true)).method.modifiers.openness ∧
      (g.stub leaf).method c =
        .ok "\n    @Override\n    protected void run() \x7b\n    \x7d\n" := by
  intro g s c
  have hmem : c ∈ Members.resolveMethods g.registry s leaf := by
    rw [resolveMethods_leaf]
    exact List.mem_singleton.2 rfl
  have hvisible : Members.Visible g.registry leaf (middle true) (publicRun true) :=
    ⟨List.mem_singleton.2 rfl, .inl ⟨(reachable_iff true).2 (.inr (.inl rfl)), rfl⟩⟩
  have hsig : Signature.ofMethod s (middle true).name (publicRun true) = c.signature s := by
    rw [Members.signature_offered]
    rfl
  exact ⟨valid true, overridesKeepAccess true s, rfl, rfl, hmem, hvisible, ⟨rfl, rfl, rfl, rfl⟩,
    hsig, by decide, method_protectedRun⟩

end Narrowing

end StubGen
