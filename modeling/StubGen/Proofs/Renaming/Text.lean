import StubGen.Proofs.Render.Alike
import StubGen.Proofs.Renaming.Resolution
import StubGen.Proofs.Writing

/-!
# The text does not depend on the names of an ancestor's parameters

Renaming the parameters of a proper ancestor renames the methods that are offered and leaves their
signatures as they are, so the same methods are kept, in the same order. All that is written of them
are resolved references, which do not show the names either. So the text is the same, or the fault.

Main results:

* `Renaming.resolveMethods_registry` — the renamed methods are implemented;
* `Renaming.Agrees.alike` — references are written as before;
* `Renaming.text_registry` — the implementation is the same.
-/

namespace StubGen

namespace Renaming

open Relation

variable {ρ : Renaming} {r : Registry} {d target : Declaration} {v w : TypeVar} {t : TypeRef}

/-- The variables of references are kept apart by the new names. -/
def ApartIn (ρ : Renaming) (ts : List TypeRef) : Prop := ∀ t ∈ ts, ∀ v ∈ t.vars, ρ.Apart v

/-! ## Members -/

def candidate (ρ : Renaming) (c : Candidate) : Candidate := { c with method := ρ.method c.method }

def forwarding (ρ : Renaming) (f : Forwarding) : Forwarding :=
  { f with constructor := ρ.constructor f.constructor }

def members (ρ : Renaming) (ms : Members) : Members :=
  ⟨ms.constructors.map ρ.forwarding, ms.methods.map ρ.candidate⟩

/-- Constructors are resolved as before, with their references renamed: nothing that decides about
them mentions a variable. -/
theorem resolveConstructors_declaration (target : Declaration) :
    Members.resolveConstructors (ρ.declaration target) =
      (Members.resolveConstructors target).map (List.map ρ.forwarding) := by
  have heffective : (ρ.declaration target).effectiveConstructors =
      target.effectiveConstructors.map ρ.constructor := by
    have hconstructors :
        (ρ.declaration target).constructors = target.constructors.map ρ.constructor := rfl
    rw [Declaration.effectiveConstructors, Declaration.effectiveConstructors, hconstructors]
    cases target.constructors <;> rfl
  have hinterface : (ρ.declaration target).isInterface = target.isInterface := rfl
  have hprivate : (fun c : Constructor => !c.modifiers.isPrivate) ∘ ρ.constructor =
      fun c => !c.modifiers.isPrivate := rfl
  rw [Members.resolveConstructors, Members.resolveConstructors, heffective, hinterface,
    List.filter_map, hprivate]
  split
  · rfl
  · cases hcs : target.effectiveConstructors.filter fun c => !c.modifiers.isPrivate with
    | nil => rfl
    | cons c cs => simp [Except.map, forwarding, declaration]

theorem publicMembers_declaration (d : Declaration) :
    Members.publicMembers (ρ.declaration d) = (Members.publicMembers d).map ρ.candidate := by
  show ((d.methods.map ρ.method).filter d.hasPublicMember).map _ = _
  rw [List.filter_map, List.map_map, Members.publicMembers, List.map_map]
  rfl

theorem restrictedMembers_declaration (package : String) (d : Declaration) :
    Members.restrictedMembers package (ρ.declaration d) =
      (Members.restrictedMembers package d).map ρ.candidate := by
  show ((d.methods.map ρ.method).filter _).map _ = _
  rw [List.filter_map, List.map_map, Members.restrictedMembers, List.map_map]
  rfl

theorem offers_registry (r : Registry) (target : Declaration) :
    Members.offers (ρ.registry r) (ρ.declaration target) =
      (Members.offers r target).map ρ.candidate := by
  have hpackage : (ρ.declaration target).package = target.package := rfl
  rw [Members.offers, Members.offers, preorder_registry, chain_registry, hpackage, List.map_append,
    List.flatMap_map, List.flatMap_map, List.map_flatMap, List.map_flatMap]
  congr 1
  · exact congrArg (List.flatMap · _) (funext publicMembers_declaration)
  · exact congrArg (List.flatMap · _) (funext (restrictedMembers_declaration target.package))

/-- A renamed method has the signature that it had, if its parameters resolve alike. -/
theorem signature_candidate {s s' : Substitution} {c : Candidate}
    (h : ∀ t ∈ c.method.params, s'.resolve (ρ.ref t) = s.resolve t) :
    (ρ.candidate c).signature s' = c.signature s := by
  -- the parameters of the method keep their positions, whatever they are called
  have hindex : ∀ name,
      (ρ.method c.method).typeParamIndex? name = c.method.typeParamIndex? name := by
    intro name
    show (c.method.typeParams.map ρ.memberParam).findIdx? _ = c.method.typeParams.findIdx? _
    rw [List.findIdx?_map]
    rfl
  have hpositional : Signature.positional (ρ.method c.method) c.declaring =
      Signature.positional c.method c.declaring := by
    funext v
    rw [Signature.positional, Signature.positional, hindex]
    rfl
  -- so the parts of the signature are the same, one by one
  show Signature.mk c.method.name ((c.method.params.map ρ.ref).map _) =
    Signature.mk _ (List.map _ _)
  rw [List.map_map]
  refine congrArg (Signature.mk _) (List.map_congr_left fun t ht => ?_)
  show (s'.resolve (ρ.ref t)).bind (Signature.positional (ρ.method c.method) c.declaring) = _
  rw [h t ht, hpositional]

/-! ## Texts -/

/-- Two scopes call every type the same, and renamed references resolve in one as they do in the
other without the new names. -/
structure Agrees (ρ : Renaming) (scope scope' : Scope) : Prop where
  renderName : ∀ n, scope'.renderName n = scope.renderName n
  resolve : ∀ t, (∀ v ∈ t.vars, ρ.Apart v) →
    scope'.substitution.resolve (ρ.ref t) = scope.substitution.resolve t

theorem defaultValue_ref (t : TypeRef) : Stub.defaultValue (ρ.ref t) = Stub.defaultValue t := by
  cases t <;> rfl

theorem Agrees.alike {scope scope' : Scope} (h : ρ.Agrees scope scope') :
    Scope.Alike ρ.ref (fun t => ∀ v ∈ t.vars, ρ.Apart v) scope scope' where
  resolve := h.resolve
  renderName _ _ n _ := h.renderName n
  isObject := isObject_ref
  defaultValue := defaultValue_ref

/-- Only the bounds of the parameters change in the head of a type that is not the renamed one. -/
theorem typeParams_declaration {d : Declaration} (hother : d.name ≠ ρ.type.name) :
    (ρ.declaration d).typeParams = d.typeParams.map ρ.memberParam := by
  refine List.map_congr_left fun p _ => ?_
  have howner : ⟨p.name, .ofType d.name⟩ ∉ ρ.type.typeVars := fun hmem =>
    hother (VarOwner.mk.inj (Declaration.owner_of_mem_typeVars hmem)).1
  rw [typeParam, var_of_not_mem howner]
  rfl

/-- What a registry calls its types does not change. -/
theorem renderName_registry (s s' : Substitution) (n : BinaryName) :
    Scope.renderName ⟨ρ.registry r, s'⟩ n = Scope.renderName ⟨r, s⟩ n := by
  refine Scope.renderName_congr (P := fun _ => True) (fun _ _ _ _ => trivial) (fun m _ => ?_) n
    trivial
  show ((ρ.registry r).lookup m).map _ = (r.lookup m).map _
  rw [lookup_registry, Option.map_map]
  rfl

/-! ## The implementation -/

section

variable (hvalid : Inheritance.validate r = .ok ()) (hclauses : r.ClausesScoped)
  (hmethods : r.MethodsScoped) (htarget : r.lookup target.name = some target)
  (htype : TransGen (Hierarchy.Parent r) target ρ.type)
  (hdistinct : ∀ v ∈ ρ.type.typeVars, ρ.Apart v)

include hmethods htarget htype hdistinct in
theorem apartIn_of_mem_offers {c : Candidate} (hc : c ∈ Members.offers r target) :
    ρ.ApartIn c.method.references := by
  obtain ⟨d, m, hvis, rfl⟩ := (Members.mem_offers_iff htarget).1 hc
  have hlookup := Hierarchy.lookup_of_reachable htarget htype.to_reflTransGen
  have hd := Hierarchy.mem_declarations_of_reachable htarget hvis.reachable
  intro t ht v hv
  rw [Members.references_offered] at ht
  -- a method mentions parameters of its type, which are apart, and its own, which never collide
  rcases hmethods d hd m hvis.1 t ht v hv with hv | hv
  · exact apart_of_reachable hlookup hdistinct htarget hvis.reachable hv
  · refine apart_of_owner_ne ?_
    obtain ⟨p, -, rfl⟩ := List.mem_map.1 hv
    intro howner
    cases (VarOwner.mk.inj howner).2

include hvalid hclauses htarget htype hdistinct

theorem agrees_registry :
    ρ.Agrees ⟨r, Closure.substitution r target⟩
      ⟨ρ.registry r, Closure.substitution (ρ.registry r) (ρ.declaration target)⟩ where
  renderName := renderName_registry _ _
  resolve _ ht := resolve_ref_of_ancestor hvalid hclauses htarget htype hdistinct ht

include hmethods

/-- The renamed methods are implemented, in the same order. -/
theorem resolveMethods_registry :
    Members.resolveMethods (ρ.registry r)
        (Closure.substitution (ρ.registry r) (ρ.declaration target)) (ρ.declaration target) =
      (Members.resolveMethods r (Closure.substitution r target) target).map ρ.candidate := by
  rw [Members.resolveMethods_eq_kept, Members.resolveMethods_eq_kept, offers_registry]
  refine Collector.kept_map (fun _ => rfl) (fun _ => rfl) fun c hc => ?_
  refine signature_candidate fun t ht => ?_
  have hapart := apartIn_of_mem_offers hmethods htarget htype hdistinct hc
  exact resolve_ref_of_ancestor hvalid hclauses htarget htype hdistinct
    (hapart t (List.mem_append_left _ (List.mem_append_left _ ht)))

theorem resolve_registry :
    Members.resolve (ρ.registry r)
        (Closure.substitution (ρ.registry r) (ρ.declaration target)) (ρ.declaration target) =
      (Members.resolve r (Closure.substitution r target) target).map ρ.members := by
  rw [Members.resolve, Members.resolve, resolveConstructors_declaration,
    resolveMethods_registry hvalid hclauses hmethods htarget htype hdistinct]
  cases Members.resolveConstructors target <;> rfl

/-- What is written of the members of an implementation mentions variables that are kept apart. -/
theorem pieces_registry (suffix : String) (hown : ρ.ApartIn target.ownReferences) {ms : Members}
    (hms : Members.resolve r (Closure.substitution r target) target = .ok ms) :
    Stub.pieces ⟨ρ.declaration target, ⟨ρ.registry r,
        Closure.substitution (ρ.registry r) (ρ.declaration target)⟩, suffix⟩ (ρ.members ms) =
      Stub.pieces ⟨target, ⟨r, Closure.substitution r target⟩, suffix⟩ ms := by
  obtain ⟨fs, hfs, hmk⟩ := Except.bind_eq_ok_iff.1 hms
  cases hmk
  -- nothing that the members refer to mentions two variables that the renaming would confuse
  have hforwarded : ∀ f ∈ fs, ρ.ApartIn f.constructor.references :=
    fun f hf t ht => hown t (Members.mem_ownReferences_of_mem_resolveConstructors hfs hf ht)
  have hoverridden : ∀ c ∈ Members.resolveMethods r (Closure.substitution r target) target,
      ρ.ApartIn c.method.references := by
    intro c hc
    rw [Members.resolveMethods_eq_kept] at hc
    exact apartIn_of_mem_offers hmethods htarget htype hdistinct (Collector.mem_of_mem_kept hc)
  have hparams : (ρ.declaration target).typeParams = target.typeParams.map ρ.memberParam :=
    typeParams_declaration (name_ne_of_ancestor hvalid htarget htype)
  have hbounds : ρ.ApartIn (target.typeParams.flatMap (·.bounds)) :=
    fun t ht => hown t (List.mem_append_left _ ht)
  have halike := (agrees_registry hvalid hclauses htarget htype hdistinct).alike
  exact halike.pieces ⟨target, _, suffix⟩ ⟨ρ.declaration target, _, suffix⟩ rfl rfl rfl hparams
    (renderName_registry _ _ target.name) hbounds ⟨fs, _⟩ hforwarded hoverridden

end

end Renaming

/-! ## A new name that a method uses already -/

namespace Diamond

open Relation

/-- The parameter of `Base` is to be called like that of its method. -/
def toX : Renaming := ⟨base, fun _ => "X"⟩

example : (toX.declaration base).methods.map (·.params) =
    [[.var ⟨"X", .ofType ⟨"Base"⟩⟩, .var ⟨"X", .ofMember ⟨"Base"⟩ "put"⟩]] := by
  decide

end Diamond

end StubGen
