import StubGen.Generator
import StubGen.Proofs.Precedence
import StubGen.Proofs.Render
import StubGen.Proofs.Scoping

/-!
# Implementations of overridden declarations

A subtype may declare an inherited method again, with a narrower return type or fewer exceptions.
The implementation has to be of the narrower declaration, and is where no type names a supertype
ahead of one of its subtypes. A type that does hides the narrower declaration, for the order of
precedence follows the order of the clauses and not the subtype order.

Main results:

* `Members.source_not_overridden` — when the implemented declaration is not an overridden one;
* `Covariance.both_implements_overridden_get` — a type that names its supertypes the other way.
-/

namespace StubGen

open Relation

namespace Members

variable {r : Registry}

/-- Over a valid registry, an implemented method is taken from a visible declaration that no other
one overrides, unless the other one makes a public method less than public or some type names the
overridden type ahead of the overriding one. -/
theorem source_not_overridden (hvalid : Inheritance.validate r = .ok ()) {n : BinaryName}
    {target : Declaration} (htarget : r.lookup n = some target) {c : Candidate}
    (hc : c ∈ resolveMethods r (Closure.substitution r target) target) :
    ∃ d m, Visible r target d m ∧ m.IsImplementable ∧ c = offered d m ∧
      ∀ e m', Visible r target e m' → m'.IsImplementable →
        Signature.ofMethod (Closure.substitution r target) e.name m' =
          c.signature (Closure.substitution r target) →
        (d.hasPublicMember m = true → e.hasPublicMember m' = true) →
        (∀ x, ReflTransGen (Hierarchy.Parent r) target x → ¬ Hierarchy.ListsFirst r x d e) →
        ¬ TransGen (Hierarchy.Parent r) e d := by
  obtain rfl := Registry.name_of_lookup htarget
  -- the declaration behind the candidate comes first among those that could take its place
  obtain ⟨d, m, hvis, himpl, rfl, hfirst⟩ := first_of_mem_resolveMethods htarget hc
  refine ⟨d, m, hvis, himpl, rfl, ?_⟩
  intro e m' hvis' himpl' hsig hpublic hlists hsub
  -- if it is public it comes first in pre-order, and then an overriding one was listed behind it
  rcases hfirst e m' hvis' himpl' hsig with ⟨hpub, hcomes⟩ | ⟨-, hpub', hcomes⟩
  · obtain ⟨x, hx, hlistsx⟩ := Hierarchy.exists_listsFirst_of_comesFirst hvalid htarget
      hvis'.reachable hsub (hcomes (hpublic hpub))
    exact hlists x hx hlistsx
  · -- along the superclasses a type comes before what it inherits from
    have hacyclic := Hierarchy.acyclic_parent hvalid
    have hne : d ≠ e := by
      rintro rfl
      exact hacyclic d hsub
    have hup : TransGen (Hierarchy.Superclass r) d e :=
      hcomes.rel (Hierarchy.pairwise_chain r target) (hvis'.mem_chain htarget hpub') hne
    have hup' : TransGen (Hierarchy.Parent r) d e :=
      TransGen.mono (fun _ _ => Hierarchy.parent_of_superclass) _ _ hup
    exact hacyclic d (hup'.trans hsub)

end Members

/-! ## An interface that narrows a return type -/

namespace Covariance

/-- A method `Object get()`. -/
def getObject : Method :=
  { name := "get", modifiers := .ofList [.publicAccess, .abstract], returns := .object }

/-- The same method with a narrower return type. -/
def getString : Method := { getObject with returns := .named ⟨"java.lang.String"⟩ }

/-- `Wide`, which declares `Object get()`. -/
def wide : Declaration := { Declaration.interface ⟨"Wide"⟩ with methods := [getObject] }

/-- `Narrow`, which extends `Wide` and declares `String get()`. -/
def narrow : Declaration :=
  { Declaration.interface ⟨"Narrow"⟩ with
    interfaces := [.named ⟨"Wide"⟩]
    methods := [getString] }

/-- `Both`, which extends the given interfaces. -/
def both (interfaces : List TypeRef) : Declaration :=
  { Declaration.interface ⟨"Both"⟩ with interfaces }

/-- The generator over the three types. -/
def generator (interfaces : List TypeRef) : Generator :=
  ⟨⟨[wide, narrow, both interfaces]⟩, {}⟩

/-- The supertypes of `Both`, the subtype first. -/
def narrowFirst : List TypeRef := [.named ⟨"Narrow"⟩, .named ⟨"Wide"⟩]

/-- The supertypes of `Both`, the subtype last. -/
def wideFirst : List TypeRef := [.named ⟨"Wide"⟩, .named ⟨"Narrow"⟩]

theorem valid_narrowFirst : Inheritance.validate (generator narrowFirst).registry = .ok () :=
  Inheritance.validate_eq_ok_of_rank (by decide)
    (generator narrowFirst).registry.names.reverse.idxOf (by decide)

theorem valid_wideFirst : Inheritance.validate (generator wideFirst).registry = .ok () :=
  Inheritance.validate_eq_ok_of_rank (by decide)
    (generator wideFirst).registry.names.reverse.idxOf (by decide)

theorem source_not_overridden_in_both :
    let r := (generator narrowFirst).registry
    let target := both narrowFirst
    let s := Closure.substitution r target
    (Inheritance.validate r = .ok () ∧ r.lookup ⟨"Both"⟩ = some target ∧
      Members.offered narrow getString ∈ Members.resolveMethods r s target) ∧
    ∃ d m, Members.Visible r target d m ∧ m.IsImplementable ∧
      Members.offered narrow getString = Members.offered d m ∧
      ∀ e m', Members.Visible r target e m' → m'.IsImplementable →
        Signature.ofMethod s e.name m' = (Members.offered narrow getString).signature s →
        (d.hasPublicMember m = true → e.hasPublicMember m' = true) →
        (∀ x, ReflTransGen (Hierarchy.Parent r) target x → ¬ Hierarchy.ListsFirst r x d e) →
        ¬ TransGen (Hierarchy.Parent r) e d := by
  intro r target s
  have htarget : r.lookup ⟨"Both"⟩ = some target := rfl
  have hmem : Members.offered narrow getString ∈ Members.resolveMethods r s target := by
    have hall : Members.resolveMethods r s target = [Members.offered narrow getString] := by cbv
    rw [hall]
    exact List.mem_singleton.2 rfl
  exact ⟨⟨valid_narrowFirst, htarget, hmem⟩,
    Members.source_not_overridden valid_narrowFirst htarget hmem⟩

theorem method_getObject :
    ((generator wideFirst).stub (both wideFirst)).method (Members.offered wide getObject) =
      .ok ("\n    @Override\n    public java.lang.Object get() \x7b\n" ++
        "        return null;\n    \x7d\n") := by
  have hrender : ((generator wideFirst).stub (both wideFirst)).scope.render .object =
      .ok "java.lang.Object" := by
    have hname : BinaryName.object.canonical = "java.lang.Object" := by decide
    have hundeclared : (generator wideFirst).registry.lookup .object = none := by decide
    rw [← hname]
    exact Scope.render_of_undeclared hundeclared
  have hdefault : Stub.defaultValue .object = some "null" := by decide
  have hoffered : Members.offered wide getObject =
      ⟨{ getObject with modifiers := getObject.modifiers.union (.single .publicAccess) },
        ⟨"Wide"⟩⟩ := rfl
  rw [hoffered]
  simp only [Stub.method, getObject, hdefault, hrender]
  rfl

/-- With `Wide` named first, `Both` implements the method of `Wide`, which `Narrow` overrides. -/
theorem both_implements_overridden_get :
    let g := generator wideFirst
    let target := both wideFirst
    let s := g.substitution target
    Inheritance.validate g.registry = .ok () ∧ g.registry.lookup ⟨"Both"⟩ = some target ∧
      Members.offered wide getObject ∈ Members.resolveMethods g.registry s target ∧
      Members.Visible g.registry target narrow getString ∧ getString.IsImplementable ∧
      Signature.ofMethod s narrow.name getString = (Members.offered wide getObject).signature s ∧
      TransGen (Hierarchy.Parent g.registry) narrow wide ∧
      (g.stub target).method (Members.offered wide getObject) =
        .ok ("\n    @Override\n    public java.lang.Object get() \x7b\n" ++
          "        return null;\n    \x7d\n") := by
  intro g target s
  have hall : Members.resolveMethods g.registry s target = [Members.offered wide getObject] := by
    cbv
  have hmem : Members.offered wide getObject ∈ Members.resolveMethods g.registry s target := by
    rw [hall]
    exact List.mem_singleton.2 rfl
  have hvisible : Members.Visible g.registry target narrow getString :=
    ⟨List.mem_singleton.2 rfl, .inl ⟨.single ⟨.named ⟨"Narrow"⟩, by decide, rfl⟩, rfl⟩⟩
  have himpl : getString.IsImplementable := ⟨⟨rfl, rfl, rfl, rfl⟩, rfl, by decide⟩
  have hsig : Signature.ofMethod s narrow.name getString =
      (Members.offered wide getObject).signature s := by
    rw [Members.signature_offered]
    rfl
  have hsub : TransGen (Hierarchy.Parent g.registry) narrow wide :=
    .single ⟨.named ⟨"Wide"⟩, by decide, rfl⟩
  exact ⟨valid_wideFirst, rfl, hmem, hvisible, himpl, hsig, hsub, method_getObject⟩

end Covariance

end StubGen
