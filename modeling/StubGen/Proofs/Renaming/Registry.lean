import StubGen.Proofs.Closure
import StubGen.Proofs.Hierarchy.Mapping
import StubGen.Proofs.TypeRef

/-!
# New names for the parameters of a type

A type's parameters may be renamed throughout a registry: where the type declares them, and wherever
a variable that it owns occurs. The hierarchy is still the same, step by step, with every reference
renamed.

Main results:

* `Renaming.Apart.injective` — variables that the new names keep apart;
* `Renaming.mirrors_registry` — the renamed registry has the renamed hierarchy;
* `Renaming.steps_registry` — a walk over the renamed registry takes the renamed steps.
-/

namespace StubGen

open Relation

/-- New names for the parameters of a declared type. -/
structure Renaming where
  type : Declaration
  name : String → String

namespace Renaming

variable (ρ : Renaming)

/-! ## Renamed metadata -/

/-- A parameter of the type by its new name; other variables stay, also those of one name. -/
def var (v : TypeVar) : TypeVar :=
  if v ∈ ρ.type.typeVars then { v with name := ρ.name v.name } else v

/-- A reference with its variables renamed. -/
def ref (t : TypeRef) : TypeRef := t.bind fun v => .var (ρ.var v)

/-- A parameter of a member: its bounds may mention the type's parameters. -/
def memberParam (p : TypeParam) : TypeParam := { p with bounds := p.bounds.map ρ.ref }

/-- A parameter of the type of the given name. -/
def typeParam (declaring : BinaryName) (p : TypeParam) : TypeParam where
  name := (ρ.var ⟨p.name, .ofType declaring⟩).name
  bounds := p.bounds.map ρ.ref

def constructor (c : Constructor) : Constructor :=
  { c with
    typeParams := c.typeParams.map ρ.memberParam
    params := c.params.map ρ.ref
    throws := c.throws.map ρ.ref }

def method (m : Method) : Method :=
  { m with
    typeParams := m.typeParams.map ρ.memberParam
    params := m.params.map ρ.ref
    returns := ρ.ref m.returns
    throws := m.throws.map ρ.ref }

def declaration (d : Declaration) : Declaration :=
  { d with
    typeParams := d.typeParams.map (ρ.typeParam d.name)
    superclass := d.superclass.map ρ.ref
    interfaces := d.interfaces.map ρ.ref
    constructors := d.constructors.map ρ.constructor
    methods := d.methods.map ρ.method }

/-- The registry with the parameters of the type renamed wherever they occur. -/
def registry (r : Registry) : Registry := ⟨r.declarations.map ρ.declaration⟩

variable {ρ} {r : Registry} {d target : Declaration} {v w : TypeVar} {t : TypeRef}

/-! ## Variables -/

theorem var_of_not_mem (h : v ∉ ρ.type.typeVars) : ρ.var v = v := if_neg h

@[simp] theorem owner_var (ρ : Renaming) (v : TypeVar) : (ρ.var v).owner = v.owner := by
  unfold var
  split <;> rfl

/-- No parameter of the type gets the name of a variable that is another one. -/
def Apart (ρ : Renaming) (v : TypeVar) : Prop :=
  ∀ w ∈ ρ.type.typeVars, ρ.var w = ρ.var v → w = v

theorem Apart.injective (hv : ρ.Apart v) (hw : ρ.Apart w) (h : ρ.var v = ρ.var w) : v = w := by
  by_cases hmv : v ∈ ρ.type.typeVars
  · exact hw v hmv h
  by_cases hmw : w ∈ ρ.type.typeVars
  · exact (hv w hmw h.symm).symm
  · rwa [var_of_not_mem hmv, var_of_not_mem hmw] at h

/-- Variables that do not belong to the type are apart from those that do. -/
theorem apart_of_owner_ne (h : v.owner ≠ .ofType ρ.type.name) : ρ.Apart v := by
  intro w hw hvar
  refine absurd ?_ h
  rw [← owner_var ρ v, ← hvar, owner_var, Declaration.owner_of_mem_typeVars hw]

/-- The parameters of declared types are apart if those of the renamed type are. -/
theorem apart_of_mem_typeVars (htype : r.lookup ρ.type.name = some ρ.type)
    (hdistinct : ∀ v ∈ ρ.type.typeVars, ρ.Apart v) (hd : r.lookup d.name = some d)
    (hv : v ∈ d.typeVars) : ρ.Apart v := by
  by_cases howner : v.owner = .ofType ρ.type.name
  · -- one name has one declaration
    rw [Declaration.owner_of_mem_typeVars hv] at howner
    rw [(VarOwner.mk.inj howner).1, htype] at hd
    obtain rfl := Option.some.inj hd
    exact hdistinct v hv
  · exact apart_of_owner_ne howner

/-! ## References -/

theorem ref_parameterized (raw : BinaryName) (args : List TypeRef) :
    ρ.ref (.parameterized raw args) = .parameterized raw (args.map ρ.ref) := by
  rw [ref, TypeRef.bind, TypeRef.bindAll_eq_map]
  rfl

theorem ref_bind (f : TypeVar → TypeRef) (t : TypeRef) :
    ρ.ref (t.bind f) = t.bind fun v => ρ.ref (f v) := TypeRef.bind_bind t

theorem bind_ref (f : TypeVar → TypeRef) (t : TypeRef) :
    (ρ.ref t).bind f = t.bind fun v => f (ρ.var v) := TypeRef.bind_bind t

/-- A reference that mentions no parameter of the type stays as it is. -/
theorem ref_of_not_mem (h : ∀ v ∈ t.vars, v ∉ ρ.type.typeVars) : ρ.ref t = t := by
  have hbind : ρ.ref t = t.bind .var :=
    TypeRef.bind_congr fun v hv => congrArg TypeRef.var (var_of_not_mem (h v hv))
  rw [hbind, TypeRef.bind_var]

@[simp] theorem rawName?_ref (t : TypeRef) : (ρ.ref t).rawName? = t.rawName? := by
  cases t <;> rfl

@[simp] theorem isObject_ref (t : TypeRef) : (ρ.ref t).isObject = t.isObject := by
  cases t <;> rfl

/-! ## Declarations -/

@[simp] theorem name_declaration (d : Declaration) : (ρ.declaration d).name = d.name := rfl

theorem typeVars_declaration (d : Declaration) :
    (ρ.declaration d).typeVars = d.typeVars.map ρ.var := by
  show ((d.typeParams.map (ρ.typeParam d.name)).map fun p => _) =
    (d.typeParams.map fun p => _).map _
  rw [List.map_map, List.map_map]
  -- parameter by parameter: a variable keeps its owner, the declared type
  refine List.map_congr_left fun p _ => ?_
  show TypeVar.mk (ρ.var ⟨p.name, .ofType d.name⟩).name _ = ρ.var ⟨p.name, .ofType d.name⟩
  exact congrArg (TypeVar.mk _) (owner_var ρ ⟨p.name, .ofType d.name⟩).symm

theorem effectiveSuperclass_declaration (d : Declaration) :
    (ρ.declaration d).effectiveSuperclass = d.effectiveSuperclass.map ρ.ref := by
  -- the implicit `Object` mentions no variable, so it is the same for both
  have hsuperclass : (ρ.declaration d).superclass = d.superclass.map ρ.ref := rfl
  rw [Declaration.effectiveSuperclass, Declaration.effectiveSuperclass, hsuperclass]
  cases d.superclass with
  | some s => rfl
  | none =>
    rw [Option.map_none, apply_ite (Option.map ρ.ref)]
    rfl

theorem supertypes_declaration (d : Declaration) :
    (ρ.declaration d).supertypes = d.supertypes.map ρ.ref := by
  rw [Declaration.supertypes, Declaration.supertypes, effectiveSuperclass_declaration,
    List.map_append, Option.toList_map]
  rfl

theorem lookup_registry (r : Registry) (n : BinaryName) :
    (ρ.registry r).lookup n = (r.lookup n).map ρ.declaration :=
  Registry.lookup_map name_declaration r n

/-! ## Walks -/

open Hierarchy

def step (ρ : Renaming) (s : Step) : Step :=
  ⟨ρ.declaration s.type, ρ.ref s.supertype, s.parent?.map ρ.declaration, s.enters⟩

section

variable {next : Declaration → List TypeRef}
  (hnext : ∀ d, next (ρ.declaration d) = (next d).map ρ.ref)

include hnext

theorem mirrors_registry (r : Registry) (target : Declaration) :
    Mirrors r (ρ.registry r) next target ρ.declaration ρ.ref :=
  mirrors_map name_declaration rawName?_ref hnext r target

/-- A walk over the renamed registry takes the renamed steps. -/
theorem steps_registry (r : Registry) (target : Declaration) :
    steps (ρ.registry r) next (ρ.declaration target) = (steps r next target).map ρ.step :=
  (mirrors_registry hnext r target).steps

end

theorem preorder_registry (r : Registry) (target : Declaration) :
    preorder (ρ.registry r) (ρ.declaration target) = (preorder r target).map ρ.declaration :=
  (mirrors_registry supertypes_declaration r target).visited

theorem chain_registry (r : Registry) (target : Declaration) :
    chain (ρ.registry r) (ρ.declaration target) = (chain r target).map ρ.declaration := by
  refine (mirrors_registry (fun d => ?_) r target).visited
  rw [effectiveSuperclass_declaration, Option.toList_map]

end Renaming

end StubGen
