import StubGen.Proofs.Hierarchy.Superclasses
import StubGen.Proofs.OfferOrder
import StubGen.Proofs.Precedence

/-!
# Where an implemented method comes from

A signature is implemented by the first acceptable method that is offered for it. The offers run
over the public members of all types in the order of the walk, which goes up the superclasses before
it turns to interfaces, and then over the other members along the superclasses. So a public member
of the nearest class wins, then a public member of the first interface, and a protected or package
member is taken only if no public member is there.

Main results:

* `find?_publicMembers`, `find?_restrictedMembers` — what one type offers first for a signature;
* `source_of_mem_resolveMethods` — the first offer as a search over types;
* `resolveMethods_provenance` — the declaration that an implemented method is taken from.
-/

namespace StubGen

open Relation

instance : DecidablePred Method.IsImplementable := fun _ =>
  decidable_of_iff _ (Members.isAcceptable_offered_iff (d := default))

namespace Members

variable {r : Registry} {s : Substitution} {σ : Signature} {d target : Declaration} {m : Method}
  {c : Candidate}

/-! ## What one type has for a signature -/

/-- The first public member of a type that may be implemented under a signature. -/
def publicSource? (s : Substitution) (σ : Signature) (d : Declaration) : Option Method :=
  d.methods.find? fun m => decide
    (d.hasPublicMember m = true ∧ m.IsImplementable ∧ Signature.ofMethod s d.name m = σ)

/-- The first member of a type that may be implemented under a signature and that is not public but
protected, or visible in a package. -/
def restrictedSource? (s : Substitution) (σ : Signature) (package : String) (d : Declaration) :
    Option Method :=
  d.methods.find? fun m => decide
    (d.hasPublicMember m = false ∧ (m.modifiers.isProtected = true ∨ d.package = package) ∧
      m.IsImplementable ∧ Signature.ofMethod s d.name m = σ)

theorem hasPublicMember_of_publicSource? (h : publicSource? s σ d = some m) :
    d.hasPublicMember m = true := by
  have hm := List.find?_some h
  simp only [decide_eq_true_eq] at hm
  exact hm.1

theorem hasPublicMember_of_restrictedSource? {package : String}
    (h : restrictedSource? s σ package d = some m) : d.hasPublicMember m = false := by
  have hm := List.find?_some h
  simp only [decide_eq_true_eq] at hm
  exact hm.1

/-- A public member is offered with its access written out. -/
theorem isPublic_offered (h : d.hasPublicMember m = true) :
    (offered d m).method.modifiers.isPublic = true := by
  simp [offered, h, Modifiers.isPublic]

theorem offered_of_restricted (h : d.hasPublicMember m = false) : offered d m = ⟨m, d.name⟩ := by
  simp [offered, h]

/-- Other members are not public. -/
theorem isPublic_eq_false_of_hasPublicMember (h : d.hasPublicMember m = false) :
    m.modifiers.isPublic = false := by
  refine Bool.eq_false_iff.2 fun hpublic => ?_
  rw [Declaration.hasPublicMember_iff.2 (.inl hpublic)] at h
  cases h

theorem offersFor_offered_iff :
    (offered d m).offersFor s σ = true ↔
      m.IsImplementable ∧ Signature.ofMethod s d.name m = σ := by
  rw [Candidate.offersFor, decide_eq_true_eq, Candidate.acceptable_iff, isAcceptable_offered_iff,
    signature_offered]

theorem find?_publicMembers (s : Substitution) (σ : Signature) (d : Declaration) :
    (publicMembers d).find? (Candidate.offersFor s σ) = (publicSource? s σ d).map (offered d) := by
  have hmap : publicMembers d = (d.methods.filter d.hasPublicMember).map (offered d) := by
    refine List.map_congr_left fun m hm => ?_
    have hpub : d.hasPublicMember m = true := (List.mem_filter.1 hm).2
    simp [offered, hpub]
  rw [hmap, List.find?_map, List.find?_filter, publicSource?]
  congr 2
  funext m
  rw [Function.comp_apply, decide_eq_decide, offersFor_offered_iff]

/-- A type's members that are not public answer an offer with the type's source of that kind. The
package and `private` are asked about by the filter and again by the source, so the two conditions
are the same. -/
theorem find?_restrictedMembers (s : Substitution) (σ : Signature) (package : String)
    (d : Declaration) :
    (restrictedMembers package d).find? (Candidate.offersFor s σ) =
      (restrictedSource? s σ package d).map (offered d) := by
  have hmap : restrictedMembers package d = (d.methods.filter fun m =>
      !d.hasPublicMember m && !m.modifiers.isPrivate &&
        (m.modifiers.isProtected || d.package == package)).map (offered d) := by
    refine List.map_congr_left fun m hm => ?_
    have hm' := (List.mem_filter.1 hm).2
    simp only [Bool.and_eq_true, Bool.not_eq_true'] at hm'
    exact (offered_of_restricted hm'.1.1).symm
  rw [hmap, List.find?_map, List.find?_filter, restrictedSource?]
  congr 2
  funext m
  rw [Function.comp_apply, decide_eq_decide, offersFor_offered_iff]
  simp only [Bool.and_eq_true, Bool.not_eq_true', Bool.or_eq_true, beq_iff_eq]
  constructor
  · rintro ⟨⟨⟨hpub, -⟩, haccess⟩, himpl, hsig⟩
    exact ⟨hpub, haccess, himpl, hsig⟩
  · rintro ⟨hpub, haccess, himpl, hsig⟩
    exact ⟨⟨⟨hpub, himpl.notPrivate⟩, haccess⟩, himpl, hsig⟩

/-! ## The first type that has a source -/

/-- A method comes from the first of the types that have one. -/
def FirstSource (source? : Declaration → Option Method) (ds : List Declaration) (d : Declaration)
    (m : Method) : Prop :=
  ∃ before after, ds = before ++ d :: after ∧ source? d = some m ∧ ∀ e ∈ before, source? e = none

/-- A method comes from the nearest class above a type, or from the type itself. -/
def NearestSource (r : Registry) (target : Declaration) (source? : Declaration → Option Method)
    (d : Declaration) (m : Method) : Prop :=
  ∃ k, Hierarchy.superclassAt? r k target = some d ∧ source? d = some m ∧
    ∀ j < k, ∀ e, Hierarchy.superclassAt? r j target = some e → source? e = none

variable {source? : Declaration → Option Method}

theorem firstSource_of_findSome? {ds : List Declaration}
    (h : ds.findSome? (fun d => (source? d).map (offered d)) = some c) :
    ∃ d m, FirstSource source? ds d m ∧ c = offered d m := by
  obtain ⟨before, d, after, rfl, hd, hbefore⟩ := List.findSome?_eq_some_iff.1 h
  obtain ⟨m, hm, rfl⟩ := Option.map_eq_some_iff.1 hd
  exact ⟨d, m, ⟨before, after, rfl, hm, fun e he => Option.map_eq_none_iff.1 (hbefore e he)⟩, rfl⟩

/-- The first class of the chain is the nearest one. -/
theorem nearestSource_of_firstSource
    (h : FirstSource source? (Hierarchy.chain r target) d m) :
    NearestSource r target source? d m := by
  obtain ⟨before, after, hsplit, hd, hbefore⟩ := h
  have hplace : (Hierarchy.chain r target)[before.length]? = some d := by simp [hsplit]
  refine ⟨before.length, Hierarchy.superclassAt?_of_getElem?_chain hplace, hd, ?_⟩
  intro j hj e he
  -- below this level the chain lists the class of every level
  have hplace' : (Hierarchy.chain r target)[j]? = some before[j] := by
    simp [hsplit, List.getElem?_append_left hj]
  have hlevel := Hierarchy.superclassAt?_of_getElem?_chain hplace'
  obtain rfl := Option.some.inj (he.symm.trans hlevel)
  exact hbefore _ (List.getElem_mem hj)

/-- The offer that decides a signature: the public members first, over all types, and only then the
others, along the chain. -/
theorem source_of_mem_resolveMethods (hc : c ∈ resolveMethods r s target) :
    ((Hierarchy.preorder r target).findSome? fun d =>
        (publicSource? s (c.signature s) d).map (offered d)).or
      ((Hierarchy.chain r target).findSome? fun d =>
        (restrictedSource? s (c.signature s) target.package d).map (offered d)) = some c := by
  rw [resolveMethods_eq_kept] at hc
  have hfirst := Collector.find?_of_mem_firsts (List.mem_filter.1 hc).1
  rw [offers, List.find?_append, List.find?_flatMap, List.find?_flatMap] at hfirst
  simpa only [find?_publicMembers, find?_restrictedMembers] using hfirst

/-- A signature that some class of the chain has a public source for is taken from the chain, also
in the walk over all types. -/
theorem firstSource_chain_of_preorder (h : FirstSource source? (Hierarchy.preorder r target) d m)
    (hchain : ∃ e ∈ Hierarchy.chain r target, source? e ≠ none) :
    FirstSource source? (Hierarchy.chain r target) d m := by
  obtain ⟨before, after, hsplit, hd, hbefore⟩ := h
  obtain ⟨rest, hrest⟩ := Hierarchy.chain_prefix_preorder r target
  rw [← hrest] at hsplit
  -- the source stands behind the chain, or the chain goes on behind what stands before it
  rcases List.append_eq_append_iff.1 hsplit with ⟨mid, rfl, -⟩ | ⟨mid, hmid, hafter⟩
  · -- the whole chain stands before the source
    obtain ⟨e, he, hne⟩ := hchain
    exact absurd (hbefore e (List.mem_append_left _ he)) hne
  · -- the chain ends where the source begins, or the source is the next type of it
    cases mid with
    | nil =>
      obtain ⟨e, he, hne⟩ := hchain
      rw [hmid, List.append_nil] at he
      exact absurd (hbefore e he) hne
    | cons e mid =>
      obtain ⟨rfl, -⟩ := List.cons.inj hafter
      exact ⟨before, mid, hmid, hd, hbefore⟩

/-- Over any registry: a signature that some class on the target's line of superclasses has a public
source for is taken from the nearest such class; otherwise, if any type that the target inherits
from has one, from the first such type in depth-first order; either way the method is public, also
where its declaration does not say so. A method that is not public is taken exactly if no type has
a public source, and then from the nearest class that has one. -/
theorem resolveMethods_provenance {n : BinaryName} (htarget : r.lookup n = some target)
    (s : Substitution) :
    ∃ below, Hierarchy.Explores r Declaration.supertypes [target.name] target.supertypes below ∧
      ∀ c ∈ resolveMethods r s target,
        ((∃ k d, Hierarchy.superclassAt? r k target = some d ∧
            publicSource? s (c.signature s) d ≠ none) →
          ∃ d m, NearestSource r target (publicSource? s (c.signature s)) d m ∧ c = offered d m ∧
            c.method.modifiers.isPublic = true) ∧
        ((∀ k d, Hierarchy.superclassAt? r k target = some d →
            publicSource? s (c.signature s) d = none) →
          (∃ d, ReflTransGen (Hierarchy.Parent r) target d ∧
            publicSource? s (c.signature s) d ≠ none) →
          ∃ d m, FirstSource (publicSource? s (c.signature s)) (target :: below) d m ∧
            c = offered d m ∧ c.method.modifiers.isPublic = true) ∧
        ((∀ d, ReflTransGen (Hierarchy.Parent r) target d →
            publicSource? s (c.signature s) d = none) ↔
          ∃ d m, NearestSource r target (restrictedSource? s (c.signature s) target.package) d m ∧
            c = ⟨m, d.name⟩) := by
  obtain rfl := Registry.name_of_lookup htarget
  refine ⟨_, Hierarchy.explores_visited r Declaration.supertypes target, fun c hc => ?_⟩
  have hpreorder : ∀ d, d ∈ Hierarchy.preorder r target ↔
      ReflTransGen (Hierarchy.Parent r) target d := fun d => Hierarchy.mem_visited_iff htarget
  have hsource := source_of_mem_resolveMethods hc
  -- a public source anywhere decides, since the public members are offered first
  have hpublic : (∃ d, ReflTransGen (Hierarchy.Parent r) target d ∧
      publicSource? s (c.signature s) d ≠ none) →
      ∃ d m, FirstSource (publicSource? s (c.signature s)) (Hierarchy.preorder r target) d m ∧
        c = offered d m ∧ c.method.modifiers.isPublic = true := by
    rintro ⟨e, he, hne⟩
    rcases Option.or_eq_some_iff.1 hsource with hfound | ⟨hnone, -⟩
    · obtain ⟨d, m, hfirst, rfl⟩ := firstSource_of_findSome? hfound
      obtain ⟨-, -, -, hd, -⟩ := id hfirst
      exact ⟨d, m, hfirst, rfl, isPublic_offered (hasPublicMember_of_publicSource? hd)⟩
    · have hnone' := List.findSome?_eq_none_iff.1 hnone e ((hpreorder e).2 he)
      exact absurd (Option.map_eq_none_iff.1 hnone') hne
  refine ⟨?_, fun _ => hpublic, ?_, ?_⟩
  · -- some class of the chain has a public source, so the first type that has one is a class
    rintro ⟨k, e, he, hne⟩
    have he' : ReflTransGen (Hierarchy.Parent r) target e :=
      ReflTransGen.mono (fun _ _ => Hierarchy.parent_of_superclass) _ _
        (Hierarchy.reachable_of_superclassAt? he)
    have hchain : e ∈ Hierarchy.chain r target := (Hierarchy.mem_chain_iff htarget).2 ⟨k, he⟩
    obtain ⟨d, m, hfirst, hcd, hpub⟩ := hpublic ⟨e, he', hne⟩
    have hfirst' := firstSource_chain_of_preorder hfirst ⟨e, hchain, hne⟩
    exact ⟨d, m, nearestSource_of_firstSource hfirst', hcd, hpub⟩
  · -- no public source is anywhere, so the offers that are not public are the first ones
    intro hnone
    have hnone' : (Hierarchy.preorder r target).findSome? (fun d =>
        (publicSource? s (c.signature s) d).map (offered d)) = none := by
      refine List.findSome?_eq_none_iff.2 fun d hd => ?_
      rw [hnone d ((hpreorder d).1 hd), Option.map_none]
    rw [hnone', Option.none_or] at hsource
    obtain ⟨d, m, hfirst, hcd⟩ := firstSource_of_findSome? hsource
    obtain ⟨-, -, -, hd, -⟩ := id hfirst
    rw [offered_of_restricted (hasPublicMember_of_restrictedSource? hd)] at hcd
    exact ⟨d, m, nearestSource_of_firstSource hfirst, hcd⟩
  · -- with a public source the method would be public
    rintro ⟨d, m, ⟨-, -, hd, -⟩, hcd⟩ e he
    by_contra hne
    obtain ⟨-, -, -, -, hpub⟩ := hpublic ⟨e, he, hne⟩
    have hrestricted :=
      isPublic_eq_false_of_hasPublicMember (hasPublicMember_of_restrictedSource? hd)
    rw [hcd] at hpub
    exact Bool.false_ne_true (hrestricted.symm.trans hpub)

end Members

/-! ## A class with a restricted method of its own -/

namespace Yielding

open Members

/-- A method that does not say that it is public. -/
def run : Method := { name := "run", modifiers := .ofList [.abstract] }

/-- The same method of a class, which its package and its subtypes see. -/
def protectedRun : Method := { run with modifiers := .ofList [.protectedAccess, .abstract] }

def api : Declaration := { Declaration.interface ⟨"Api"⟩ with methods := [run] }

/-- `Leaf`, whose superclass is not declared and which implements `Api`. -/
def leaf : Declaration where
  name := ⟨"Leaf"⟩
  superclass := some (.named ⟨"Missing"⟩)
  interfaces := [.named ⟨"Api"⟩]
  methods := [protectedRun]

def registry : Registry := ⟨[leaf, api]⟩

/-- `Leaf` is the nearest class that declares the method, and yet the interface's method is
implemented, and made public. -/
theorem resolveMethods_provenance_in_leaf :
    registry.lookup ⟨"Leaf"⟩ = some leaf ∧
    offered api run ∈ resolveMethods registry .empty leaf ∧
    ∃ below,
      Hierarchy.Explores registry Declaration.supertypes [leaf.name] leaf.supertypes below ∧
      ∃ d m, FirstSource (publicSource? .empty ((offered api run).signature .empty))
          (leaf :: below) d m ∧
        offered api run = offered d m ∧
        (offered api run).method.modifiers.isPublic = true := by
  have hleaf : registry.lookup ⟨"Leaf"⟩ = some leaf := rfl
  have hchain : Hierarchy.chain registry leaf = [leaf] := by cbv
  have hpreorder : Hierarchy.preorder registry leaf = [leaf, api] := by cbv
  have hmem : offered api run ∈ resolveMethods registry .empty leaf := by
    rw [resolveMethods, offers, hpreorder, hchain]
    exact List.mem_singleton.2 rfl
  obtain ⟨below, hexplores, hprovenance⟩ := resolveMethods_provenance hleaf .empty
  obtain ⟨-, hinterface, -⟩ := hprovenance _ hmem
  have hclasses : ∀ k d, Hierarchy.superclassAt? registry k leaf = some d →
      publicSource? .empty ((offered api run).signature .empty) d = none := by
    intro k d hd
    -- the only class of the chain is `Leaf` itself
    have hd' : d ∈ Hierarchy.chain registry leaf := (Hierarchy.mem_chain_iff hleaf).2 ⟨k, hd⟩
    rw [hchain, List.mem_singleton] at hd'
    rw [hd']
    cbv
  have hapi : publicSource? .empty ((offered api run).signature .empty) api ≠ none := by
    have hsource : publicSource? .empty ((offered api run).signature .empty) api = some run := by
      cbv
    simp [hsource]
  refine ⟨hleaf, hmem, below, hexplores, hinterface hclasses ⟨api, ?_, hapi⟩⟩
  exact .single ⟨.named ⟨"Api"⟩, by decide, rfl⟩

end Yielding

end StubGen
