import StubGen.Stub
import Mathlib.Data.List.Permutation

/-!
# What can go wrong in a piece of an implementation

A piece is put together from the spellings of types, and a spelling fails only at a member type that
is private. So whatever piece a fault arises in, it names a member that cannot be accessed.

Main results:

* `Scope.renderName_of_undeclared` — a type that is not declared is spelt by its canonical name;
* `Scope.namingOnly_render` — a reference fails only at an inaccessible member;
* `Stub.header_of_renderName`, `Stub.method_of_void` — pieces in which no fault arises;
* `Stub.exists_inaccessible_of_takePieces` — every piece fails only at an inaccessible member.
-/

namespace StubGen

/-- Every fault of a result names an inaccessible member. -/
def NamingOnly {α : Type} (x : Except SynthesisFault α) : Prop :=
  ∀ e, x = .error e → ∃ n, e = .inaccessibleMember n

namespace NamingOnly

variable {α β : Type}

theorem ok (a : α) : NamingOnly (.ok a) := fun _ h => nomatch h

theorem bind {x : Except SynthesisFault α} {f : α → Except SynthesisFault β} (hx : NamingOnly x)
    (hf : ∀ a, NamingOnly (f a)) : NamingOnly (x >>= f) := by
  intro e he
  cases x with
  | error e' =>
    cases he
    exact hx e rfl
  | ok a => exact hf a e he

theorem mapM {f : α → Except SynthesisFault β} (hf : ∀ a, NamingOnly (f a)) (xs : List α) :
    NamingOnly (xs.mapM f) := by
  induction xs with
  | nil => exact ok []
  | cons x xs ih =>
    rw [List.mapM_cons]
    exact (hf x).bind fun _ => ih.bind fun _ => ok _

end NamingOnly

/-! ## References -/

namespace Scope

variable {scope : Scope}

theorem renderName_of_undeclared {n : BinaryName} (h : scope.registry.lookup n = none) :
    scope.renderName n = .ok n.canonical := by
  rw [renderName]
  split
  · rfl
  · rfl
  · rename_i hd _
    rw [h] at hd
    cases hd

/-- A type that nothing encloses can be named. -/
theorem renderName_of_topLevel {n : BinaryName} (h : n.enclosing? = none) :
    scope.renderName n = .ok n.canonical := by
  rw [renderName]
  split
  · rfl
  · rfl
  · rename_i hn
    rw [h] at hn
    cases hn

/-- A private member type cannot be named. -/
theorem renderName_of_isPrivate {n m : BinaryName} {d : Declaration}
    (hd : scope.registry.lookup n = some d) (hm : n.enclosing? = some m)
    (hprivate : d.modifiers.isPrivate = true) :
    scope.renderName n = .error (.inaccessibleMember n) := by
  rw [renderName]
  split
  · rename_i hn
    rw [hd] at hn
    cases hn
  · rename_i hn
    rw [hm] at hn
    cases hn
  · rename_i hd' _
    obtain rfl := Option.some.inj (hd.symm.trans hd')
    rw [if_pos hprivate]

/-- A member type is selected from the type that encloses it. -/
theorem renderName_of_not_isPrivate {n m : BinaryName} {d : Declaration}
    (hd : scope.registry.lookup n = some d) (hm : n.enclosing? = some m)
    (hprivate : d.modifiers.isPrivate = false) :
    scope.renderName n = do return (← scope.renderName m) ++ "." ++ n.simpleName := by
  -- of the three ways to write a name, only the last one is for a declared member
  rw [renderName]
  split
  · rename_i hn
    rw [hd] at hn
    cases hn
  · rename_i hn
    rw [hm] at hn
    cases hn
  · rename_i hd' hm'
    obtain rfl := Option.some.inj (hd.symm.trans hd')
    obtain rfl := Option.some.inj (hm.symm.trans hm')
    rw [if_neg (by rw [hprivate]; exact Bool.false_ne_true)]

theorem renderName_of_enclosing {n m : BinaryName} {d : Declaration} {text : String}
    (hd : scope.registry.lookup n = some d) (hm : n.enclosing? = some m)
    (hprivate : d.modifiers.isPrivate = false) (htext : scope.renderName m = .ok text) :
    scope.renderName n = .ok (text ++ "." ++ n.simpleName) := by
  rw [renderName_of_not_isPrivate hd hm hprivate, htext]
  rfl

theorem render_named (n : BinaryName) : scope.render (.named n) = scope.renderName n := by
  rw [render, Substitution.resolve, Substitution.resolveUnder, TypeRef.bind, renderResolved]

/-- A reference that resolves to a variable is written as the name of the variable. -/
theorem render_of_resolve {t : TypeRef} {v : TypeVar}
    (h : scope.substitution.resolve t = .var v) : scope.render t = .ok v.name := by
  rw [render, h, renderResolved]

theorem render_of_undeclared {n : BinaryName} (h : scope.registry.lookup n = none) :
    scope.render (.named n) = .ok n.canonical :=
  (render_named n).trans (renderName_of_undeclared h)

theorem render_void (h : scope.registry.lookup .void = none) :
    scope.render .void = .ok "void" := by
  have hname : BinaryName.void.canonical = "void" := by decide
  rw [← hname]
  exact render_of_undeclared h

theorem namingOnly_renderName (n : BinaryName) : NamingOnly (scope.renderName n) := by
  rw [renderName]
  split
  · exact .ok _
  · exact .ok _
  · -- the enclosing type is written first, and its fault is then the fault of the member
    rename_i enclosing _ _
    split
    · rintro e ⟨⟩
      exact ⟨n, rfl⟩
    · exact (namingOnly_renderName enclosing).bind fun _ => .ok _
termination_by n.chars.length
decreasing_by exact BinaryName.length_enclosing?_lt ‹_›

mutual

theorem namingOnly_renderResolved : ∀ t : TypeRef, NamingOnly (scope.renderResolved t)
  | .named n => by
    rw [renderResolved]
    exact namingOnly_renderName n
  | .array c => by
    rw [renderResolved]
    exact (namingOnly_renderResolved c).bind fun _ => .ok _
  | .var v => by
    rw [renderResolved]
    exact .ok _
  | .wildcard kind bounds => by
    rw [renderResolved]
    split
    · exact .ok _
    · exact (namingOnly_renderAll bounds).bind fun _ => .ok _
  | .parameterized raw args => by
    rw [renderResolved]
    refine (namingOnly_renderAll args).bind fun _ => ?_
    exact (namingOnly_renderName raw).bind fun _ => .ok _

theorem namingOnly_renderAll : ∀ ts : List TypeRef, NamingOnly (scope.renderAll ts)
  | [] => by
    rw [renderAll]
    exact .ok _
  | t :: ts => by
    rw [renderAll]
    refine (namingOnly_renderResolved t).bind fun _ => ?_
    exact (namingOnly_renderAll ts).bind fun _ => .ok _

end

theorem namingOnly_render (t : TypeRef) : NamingOnly (scope.render t) :=
  namingOnly_renderResolved _

theorem namingOnly_renderVariadic (t : TypeRef) : NamingOnly (scope.renderVariadic t) := by
  unfold renderVariadic
  split
  · exact (namingOnly_renderResolved _).bind fun _ => .ok _
  · exact namingOnly_renderResolved _

theorem namingOnly_renderList (ts : List TypeRef) (separator : String) :
    NamingOnly (scope.renderList ts separator) :=
  (NamingOnly.mapM namingOnly_render ts).bind fun _ => .ok _

theorem namingOnly_renderTypeParam (p : TypeParam) : NamingOnly (scope.renderTypeParam p) := by
  unfold renderTypeParam
  split
  · exact (namingOnly_renderList _ _).bind fun _ => .ok _
  · exact .ok _

theorem namingOnly_renderTypeParams (ps : List TypeParam) :
    NamingOnly (scope.renderTypeParams ps) := by
  unfold renderTypeParams
  split
  · exact .ok _
  · exact (NamingOnly.mapM namingOnly_renderTypeParam ps).bind fun _ => .ok _

end Scope

/-! ## Pieces -/

namespace Stub

variable {stub : Stub}

theorem header_of_renderName {name : String}
    (hname : stub.scope.renderName stub.target.name = .ok name)
    (hparams : stub.target.typeParams = []) :
    stub.header = .ok ((if stub.target.package.isEmpty then ""
        else "package " ++ stub.target.package ++ ";\n\n") ++ "public class " ++ stub.name ++ " " ++
      (if stub.target.isInterface then "implements" else "extends") ++ " " ++ name ++
      " \x7b\n") := by
  rw [header, hparams]
  simp only [hname]
  -- a target without parameters leaves both texts of parameters empty
  show Except.ok (_ ++ "" ++ " " ++ _ ++ " " ++ _ ++ "" ++ _) = _
  rw [String.append_empty, String.append_empty]

theorem method_of_void {c : Candidate} (hvoid : stub.scope.registry.lookup .void = none)
    (hreturns : c.method.returns = .void) (htypeParams : c.method.typeParams = [])
    (hparams : c.method.params = []) (hthrows : c.method.throws = []) :
    stub.method c = .ok ("\n" ++ indent ++ "@Override\n" ++ indent ++
      keywords (c.method.modifiers.without (.single .abstract)) ++ "void " ++ c.method.name ++
      "() \x7b\n" ++ indent ++ "\x7d\n") := by
  have hbody : defaultValue .void = none := rfl
  rw [method]
  simp only [hreturns, hparams, htypeParams, hthrows, Scope.render_void hvoid, hbody]
  -- of the optional texts none is left, and a void body has no statement
  show Except.ok (_ ++ "" ++ "void" ++ " " ++ _ ++ "(" ++ "" ++ ")" ++ "" ++ " \x7b\n" ++ "" ++
    _ ++ _) = _
  simp only [String.append_empty, String.append_assoc]
  rfl

theorem namingOnly_header : NamingOnly stub.header := by
  unfold header
  refine (Scope.namingOnly_renderTypeParams _).bind fun _ => ?_
  exact (Scope.namingOnly_renderName _).bind fun _ => .ok _

theorem namingOnly_typeParams (ps : List TypeParam) : NamingOnly (stub.typeParams ps) :=
  (Scope.namingOnly_renderTypeParams ps).bind fun _ => .ok _

theorem namingOnly_parameterTypes (varargs : Bool) (ts : List TypeRef) :
    NamingOnly (stub.parameterTypes varargs ts) := by
  fun_induction parameterTypes stub varargs ts with
  | case1 => exact .ok _
  | case2 t => exact (Scope.namingOnly_renderVariadic t).bind fun _ => .ok _
  | case3 t => exact (Scope.namingOnly_render t).bind fun _ => .ok _
  | case4 t ts _ ih => exact (Scope.namingOnly_render t).bind fun _ => ih.bind fun _ => .ok _

theorem namingOnly_parameters (ts : List TypeRef) (varargs : Bool) :
    NamingOnly (stub.parameters ts varargs) :=
  (namingOnly_parameterTypes varargs ts).bind fun _ => .ok _

theorem namingOnly_throwsClause (ts : List TypeRef) : NamingOnly (stub.throwsClause ts) := by
  unfold throwsClause
  split
  · exact .ok _
  · exact (Scope.namingOnly_renderList _ _).bind fun _ => .ok _

theorem namingOnly_constructor (f : Forwarding) : NamingOnly (stub.constructor f) := by
  unfold constructor
  refine (namingOnly_typeParams _).bind fun _ => ?_
  refine (namingOnly_parameters _ _).bind fun _ => ?_
  exact (namingOnly_throwsClause _).bind fun _ => .ok _

theorem namingOnly_method (c : Candidate) : NamingOnly (stub.method c) := by
  unfold method
  refine (namingOnly_typeParams _).bind fun _ => ?_
  refine (Scope.namingOnly_render _).bind fun _ => ?_
  refine (namingOnly_parameters _ _).bind fun _ => ?_
  exact (namingOnly_throwsClause _).bind fun _ => .ok _

theorem namingOnly_of_mem_pieces {members : Members} {p : Except SynthesisFault String}
    (hp : p ∈ stub.pieces members) : NamingOnly p := by
  simp only [pieces, List.mem_cons, List.mem_append, List.mem_map, List.not_mem_nil, or_false] at hp
  rcases hp with rfl | (⟨f, -, rfl⟩ | ⟨c, -, rfl⟩) | rfl
  · exact namingOnly_header
  · exact namingOnly_constructor f
  · exact namingOnly_method c
  · exact .ok _

theorem error_mem_of_takePieces {ps : List (Except SynthesisFault String)} {e : SynthesisFault}
    (h : (takePieces ps).2 = some e) : .error e ∈ ps := by
  fun_induction takePieces ps with
  | case1 => cases h
  | case2 e' ps =>
    cases h
    exact List.mem_cons_self
  | case3 t ps written fault hrest ih =>
    rw [hrest] at ih
    exact List.mem_cons_of_mem _ (ih h)

/-- The fault that ends the writing of an implementation names an inaccessible member. -/
theorem exists_inaccessible_of_takePieces {members : Members} {e : SynthesisFault}
    (h : (takePieces (stub.pieces members)).2 = some e) : ∃ n, e = .inaccessibleMember n :=
  namingOnly_of_mem_pieces (error_mem_of_takePieces h) e rfl

end Stub

end StubGen
