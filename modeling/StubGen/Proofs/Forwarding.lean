import StubGen.Proofs.Render.Spelling
import StubGen.Proofs.Signature
import StubGen.Proofs.Writing
import Mathlib

/-!
# Constructors that pass their arguments on

An implementation of a class has a constructor for each of the class that is not private, in the
same order. Its formal parameters are numbered and have the types of the parameters there, and they
are what the constructor of the class is called with. Of a variable number of arguments only the
type of the last parameter tells, and only if it is an array.

Main results:

* `Members.resolveConstructors_eq_error_iff` — a class without a usable constructor;
* `Stub.writes_of_parameterTypes` — how the types of parameters are written, position by position;
* `Stub.forwards_of_constructor` — what is written of one constructor;
* `Stub.source_forwards` — the constructors of an implementation, and why there may be none.
-/

namespace StubGen

/-- A formal parameter as it is written. -/
structure Formal where
  type : String
  name : String

/-- A constructor of an implementation, taken apart. -/
structure ForwardingText where
  keywords : String
  typeParams : String
  formals : List Formal
  throws : String
  /-- What the constructor of the superclass is called with. -/
  arguments : List String

def Formal.text (f : Formal) : String := f.type ++ " " ++ f.name

/-- The constructor of a class put together. -/
def ForwardingText.text (className : String) (w : ForwardingText) : String :=
  "\n" ++ Stub.indent ++ w.keywords ++ w.typeParams ++ className ++ "(" ++
    ", ".intercalate (w.formals.map Formal.text) ++ ")" ++ w.throws ++ " \x7b\n" ++
    Stub.indent ++ Stub.indent ++ "super(" ++ ", ".intercalate w.arguments ++ ");\n" ++
    Stub.indent ++ "\x7d\n"

/-- How the type of a parameter is written; `variadic` says that the parameter stands for any number
of arguments. -/
inductive Scope.WritesType (scope : Scope) (variadic : Prop) (t : TypeRef) : String → Prop
  /-- The brackets of the array make way for dots. -/
  | dots {component : TypeRef} {text : String} (hvariadic : variadic)
      (harray : scope.substitution.resolve t = .array component)
      (htext : scope.renderResolved component = .ok text) :
      WritesType scope variadic t (text ++ "...")
  | plain {text : String}
      (h : ¬ (variadic ∧ ∃ component, scope.substitution.resolve t = .array component))
      (htext : scope.render t = .ok text) : WritesType scope variadic t text

/-- `w` forwards to the constructor `c`. -/
structure Stub.Forwards (stub : Stub) (c : Constructor) (w : ForwardingText) : Prop where
  keywords : w.keywords = Stub.keywords (c.modifiers.without (.single .abstract))
  typeParams : stub.typeParams c.typeParams = .ok w.typeParams
  /-- There is a formal parameter for each parameter. -/
  arity : w.formals.length = c.params.length
  names : ∀ (i : Nat) (f : Formal), w.formals[i]? = some f → f.name = "arg" ++ toString i
  /-- Only the last parameter may stand for any number of arguments. -/
  types : ∀ (i : Nat) (t : TypeRef) (f : Formal), c.params[i]? = some t →
    w.formals[i]? = some f →
    stub.scope.WritesType (c.varargs = true ∧ i + 1 = c.params.length) t f.type
  distinct : (w.formals.map (·.name)).Nodup
  throws : stub.throwsClause c.throws = .ok w.throws
  /-- Every formal parameter is passed on, in its place. -/
  arguments : w.arguments = w.formals.map (·.name)

/-! ## The constructors of a class -/

namespace Members

variable {target : Declaration}

/-- A class forwards what is not private of it. -/
theorem resolveConstructors_of_class (h : target.isInterface = false) :
    resolveConstructors target =
      if ∀ c ∈ target.effectiveConstructors, c.modifiers.isPrivate = true then
        .error .noUsableConstructor
      else .ok ((target.effectiveConstructors.filter fun c => !c.modifiers.isPrivate).map
        fun c => ⟨c, target.name, false⟩) := by
  rw [resolveConstructors, if_neg (by simp [h])]
  split
  · rename_i hnil
    rw [if_pos fun c hc => by simpa using List.filter_eq_nil_iff.1 hnil c hc]
  · rename_i hne
    rw [if_neg fun hall => hne (List.filter_eq_nil_iff.2 fun c hc => by simpa using hall c hc)]

theorem resolveConstructors_eq_error_iff (h : target.isInterface = false) :
    resolveConstructors target = .error .noUsableConstructor ↔
      ∀ c ∈ target.effectiveConstructors, c.modifiers.isPrivate = true := by
  rw [resolveConstructors_of_class h]
  split
  · rename_i hall
    exact iff_of_true rfl hall
  · rename_i hall
    exact iff_of_false (by simp) hall

theorem exists_resolveConstructors_iff (h : target.isInterface = false) :
    (∃ fs, resolveConstructors target = .ok fs) ↔
      ∃ c ∈ target.effectiveConstructors, c.modifiers.isPrivate = false := by
  rw [resolveConstructors_of_class h]
  split
  · rename_i hall
    refine iff_of_false (fun hok => by cases hok.choose_spec) fun ⟨c, hc, hpublic⟩ => ?_
    rw [hall c hc] at hpublic
    cases hpublic
  · rename_i hnot
    exact iff_of_true ⟨_, rfl⟩ (by simpa using hnot)

/-- The implicit constructor is as accessible as its class. -/
theorem resolveConstructors_eq_error_iff_of_nil (h : target.isInterface = false)
    (hnil : target.constructors = []) :
    resolveConstructors target = .error .noUsableConstructor ↔
      target.modifiers.isPrivate = true := by
  rw [resolveConstructors_eq_error_iff h, Declaration.effectiveConstructors_of_nil hnil,
    List.forall_mem_singleton, Modifiers.isPrivate_access]

end Members

/-! ## Parameters -/

namespace Scope

variable {scope : Scope} {variadic : Prop} {t : TypeRef} {text : String}

theorem WritesType.of_render (h : ¬ variadic) (htext : scope.render t = .ok text) :
    scope.WritesType variadic t text :=
  .plain (fun hand => h hand.1) htext

theorem WritesType.of_renderVariadic (h : variadic) (htext : scope.renderVariadic t = .ok text) :
    scope.WritesType variadic t text := by
  rw [renderVariadic] at htext
  split at htext
  · rename_i component harray
    obtain ⟨text, hcomponent, htext⟩ := Except.bind_eq_ok_iff.1 htext
    cases htext
    exact .dots h harray hcomponent
  · rename_i hother
    exact .plain (fun hand => hand.2.elim hother) htext

end Scope

namespace Stub

variable {stub : Stub} {ms : Members} {text : String}

/-- The types of parameters are written one by one, and only the last may stand for any number of
arguments. -/
theorem writes_of_parameterTypes {varargs : Bool} {ts : List TypeRef} {types : List String}
    (h : stub.parameterTypes varargs ts = .ok types) :
    types.length = ts.length ∧
    ∀ (i : Nat) (t : TypeRef) (type : String), ts[i]? = some t → types[i]? = some type →
      stub.scope.WritesType (varargs = true ∧ i + 1 = ts.length) t type := by
  induction ts generalizing types with
  | nil =>
    cases h
    exact ⟨rfl, fun i t type ht => by cases ht⟩
  | cons t ts ih =>
    -- the last parameter is the only one that may be variadic
    cases ts with
    | nil =>
      obtain ⟨type, rfl, htype⟩ : ∃ type, types = [type] ∧
          stub.scope.WritesType (varargs = true ∧ 0 + 1 = [t].length) t type := by
        cases varargs with
        | true =>
          obtain ⟨type, htype, htypes⟩ := Except.bind_eq_ok_iff.1 h
          cases htypes
          exact ⟨type, rfl, .of_renderVariadic ⟨rfl, rfl⟩ htype⟩
        | false =>
          obtain ⟨type, htype, htypes⟩ := Except.bind_eq_ok_iff.1 h
          -- alone, the parameter is the last one
          cases htypes
          exact ⟨type, rfl, .of_render (fun hand => Bool.false_ne_true hand.1) htype⟩
      refine ⟨rfl, fun i t' type' ht' htype' => ?_⟩
      cases i with
      | zero =>
        cases ht'
        cases htype'
        exact htype
      | succ i => cases ht'
    | cons u ts =>
      -- the first of several parameters is not the last
      obtain ⟨type, htype, h⟩ := Except.bind_eq_ok_iff.1 h
      obtain ⟨rest, hrest, htypes⟩ := Except.bind_eq_ok_iff.1 h
      cases htypes
      obtain ⟨hlength, hwrites⟩ := ih hrest
      refine ⟨congrArg (· + 1) hlength, fun i t' type' ht' htype' => ?_⟩
      cases i with
      | zero =>
        cases ht'
        cases htype'
        exact .of_render (fun hand => by simpa using hand.2) htype
      | succ i =>
        -- what is last behind the first parameter is last
        have hlast : i + 1 + 1 = (t :: u :: ts).length ↔ i + 1 = (u :: ts).length := by
          rw [List.length_cons, Nat.add_right_cancel_iff]
        rw [hlast]
        exact hwrites i t' type' ht' htype'

/-- The formal parameters of types that have been written. -/
def formals (types : List String) : List Formal := types.mapIdx fun i type => ⟨type, argument i⟩

theorem argument_injective : Function.Injective argument := fun i j h =>
  toString_injective (by simpa [argument] using h)

@[simp] theorem length_formals (types : List String) : (formals types).length = types.length :=
  List.length_mapIdx

theorem getElem?_formals (types : List String) (i : Nat) :
    (formals types)[i]? = types[i]?.map fun type => ⟨type, argument i⟩ := by
  rw [formals, List.getElem?_mapIdx]

theorem map_text_formals (types : List String) :
    (formals types).map Formal.text = types.mapIdx fun i type => type ++ " " ++ argument i := by
  rw [formals, List.mapIdx_eq_zipIdx_map, List.mapIdx_eq_zipIdx_map, List.map_map]
  rfl

/-- Formal parameters are numbered from zero. -/
theorem map_name_formals (types : List String) :
    (formals types).map (·.name) = (List.range types.length).map argument := by
  refine List.ext_getElem? fun i => ?_
  rw [List.getElem?_map, getElem?_formals, List.getElem?_map]
  rcases Nat.lt_or_ge i types.length with h | h
  · rw [List.getElem?_eq_getElem h, List.getElem?_range h]
    rfl
  · rw [List.getElem?_eq_none h, List.getElem?_eq_none (by rwa [List.length_range])]
    rfl

/-- What is written of a constructor forwards to it. The arguments that are passed on are numbered
like the formal parameters, so that they are the same names in the same order. -/
theorem forwards_of_constructor {f : Forwarding} (h : stub.constructor f = .ok text) :
    ∃ w : ForwardingText, stub.Forwards f.constructor w ∧ w.text stub.name = text := by
  obtain ⟨params, hparams, h⟩ := Except.bind_eq_ok_iff.1 h
  obtain ⟨list, hlist, h⟩ := Except.bind_eq_ok_iff.1 h
  obtain ⟨throws, hthrows, h⟩ := Except.bind_eq_ok_iff.1 h
  obtain ⟨types, htypes, hjoined⟩ := Except.bind_eq_ok_iff.1 hlist
  obtain rfl := Except.ok.inj hjoined
  obtain rfl := Except.ok.inj h
  obtain ⟨hlength, hwrites⟩ := writes_of_parameterTypes htypes
  refine ⟨⟨keywords (f.constructor.modifiers.without (.single .abstract)), params, formals types,
    throws, (List.range f.constructor.params.length).map argument⟩, ?_, ?_⟩
  · exact {
      keywords := rfl
      typeParams := hparams
      arity := (length_formals types).trans hlength
      names := fun i formal hformal => by
        rw [getElem?_formals] at hformal
        obtain ⟨type, -, rfl⟩ := Option.map_eq_some_iff.1 hformal
        rfl
      types := fun i t formal ht hformal => by
        rw [getElem?_formals] at hformal
        obtain ⟨type, htype, rfl⟩ := Option.map_eq_some_iff.1 hformal
        exact hwrites i t type ht htype
      distinct := by
        rw [map_name_formals]
        exact List.nodup_range.map argument_injective
      throws := hthrows
      arguments := by rw [map_name_formals, hlength] }
  · unfold ForwardingText.text
    rw [map_text_formals]

theorem takePieces_eq_of_none {ps : List (Except SynthesisFault String)}
    (h : (takePieces ps).2 = none) : ps = (takePieces ps).1.map .ok := by
  fun_induction takePieces ps with
  | case1 => rfl
  | case2 => cases h
  | case3 t ps written fault hrest ih =>
    rw [hrest] at ih
    rw [List.map_cons, ← ih h]

/-- Texts that were written of something are written of it one by one. -/
theorem forall₂_of_map_eq {α : Type} {write : α → Except SynthesisFault String} {xs : List α}
    {texts : List String} (h : xs.map write = texts.map .ok) :
    List.Forall₂ (fun x text => write x = .ok text) xs texts := by
  rw [← List.forall₂_map_left_iff (R := fun r text => r = Except.ok text), h,
    List.forall₂_map_left_iff]
  exact List.forall₂_same.2 fun _ _ => rfl

theorem forwards_all {fs : List Forwarding} {texts : List String}
    (h : List.Forall₂ (fun f text => stub.constructor f = .ok text) fs texts) :
    ∃ ws, List.Forall₂ stub.Forwards (fs.map (·.constructor)) ws ∧
      texts = ws.map (ForwardingText.text stub.name) := by
  induction h with
  | nil => exact ⟨[], .nil, rfl⟩
  | cons hconstructor _ ih =>
    obtain ⟨w, hforwards, rfl⟩ := forwards_of_constructor hconstructor
    obtain ⟨ws, hall, rfl⟩ := ih
    exact ⟨w :: ws, .cons hforwards hall, rfl⟩

/-- The text of an implementation: its header, its constructors, its methods and a brace. -/
theorem source_eq_append (h : stub.source ms = .ok text) :
    ∃ header constructors methods,
      stub.header = .ok header ∧
      List.Forall₂ (fun f text => stub.constructor f = .ok text) (stub.writtenConstructors ms)
        constructors ∧
      List.Forall₂ (fun c text => stub.method c = .ok text) ms.methods methods ∧
      text = header ++ String.join constructors ++ String.join methods ++ "\x7d\n" := by
  obtain ⟨hnone, rfl⟩ := source_eq_ok_iff.1 h
  have hpieces := takePieces_eq_of_none hnone
  generalize (takePieces (stub.pieces ms)).1 = texts at hpieces ⊢
  -- the texts fall apart as the pieces do
  obtain ⟨header, rest, rfl, hheader, hrest⟩ := List.map_eq_cons_iff.1 hpieces.symm
  obtain ⟨members, brace, rfl, hmembers, hbrace⟩ := List.map_eq_append_iff.1 hrest
  obtain ⟨constructors, methods, rfl, hconstructors, hmethods⟩ := List.map_eq_append_iff.1 hmembers
  obtain ⟨last, beyond, rfl, hlast, hbeyond⟩ := List.map_eq_cons_iff.1 hbrace
  obtain rfl := List.map_eq_nil_iff.1 hbeyond
  obtain rfl := Except.ok.inj hlast
  refine ⟨header, constructors, methods, hheader.symm, forall₂_of_map_eq hconstructors.symm,
    forall₂_of_map_eq hmethods.symm, ?_⟩
  simp only [String.join_cons, String.join_append, String.join_nil, String.append_empty,
    String.append_assoc]

/-- A class has its constructors that are not private written, in their order. -/
theorem constructors_writtenConstructors (h : stub.target.isInterface = false)
    (hresolved : Members.resolveConstructors stub.target = .ok ms.constructors) :
    (stub.writtenConstructors ms).map (·.constructor) =
      stub.target.effectiveConstructors.filter fun c => !c.modifiers.isPrivate := by
  rw [Members.resolveConstructors_of_class h] at hresolved
  split at hresolved
  · cases hresolved
  · rw [writtenConstructors, if_neg (by simp [h]), ← Except.ok.inj hresolved,
      List.filter_eq_self.2, List.map_map]
    · exact List.map_id _
    · intro f hf
      obtain ⟨c, -, rfl⟩ := List.mem_map.1 hf
      rfl

/-- What forwards to the implicit constructor has the access of the class and nothing else to say. -/
theorem Forwards.eq_of_implicit {access : Modifiers} {w : ForwardingText}
    (h : stub.Forwards { modifiers := access } w) :
    w = { keywords := Stub.keywords (access.without (.single .abstract)), typeParams := ""
          formals := [], throws := "", arguments := [] } := by
  obtain ⟨hkeywords, hparams, harity, -, -, -, hthrows, harguments⟩ := h
  obtain ⟨keywords, typeParams, formals, throws, arguments⟩ := w
  obtain rfl := List.eq_nil_of_length_eq_zero harity
  obtain rfl : keywords = _ := hkeywords
  obtain rfl : "" = typeParams := Except.ok.inj hparams
  obtain rfl : "" = throws := Except.ok.inj hthrows
  obtain rfl : arguments = [] := harguments
  rfl

/-- A class has no usable constructor exactly if all its constructors are private, the implicit one
of a class that declares none included, which is private if the class is. If it has one, an
implementation that is written has between its header and its methods one constructor after the
other, for each that is not private and in their order: with as many formal parameters, of the types
there and of distinct numbered names, which are all passed on. For the implicit constructor that is
a constructor without parameters. An implementation of an interface has none. -/
theorem source_forwards (stub : Stub) :
    (stub.target.isInterface = false →
      (Members.resolveConstructors stub.target = .error .noUsableConstructor ↔
        ∀ c ∈ stub.target.effectiveConstructors, c.modifiers.isPrivate = true) ∧
      ((∃ fs, Members.resolveConstructors stub.target = .ok fs) ↔
        ∃ c ∈ stub.target.effectiveConstructors, c.modifiers.isPrivate = false) ∧
      (stub.target.constructors = [] →
        (Members.resolveConstructors stub.target = .error .noUsableConstructor ↔
          stub.target.modifiers.isPrivate = true)) ∧
      (stub.target.constructors ≠ [] →
        stub.target.effectiveConstructors = stub.target.constructors)) ∧
    ∀ (ms : Members) (text : String),
      Members.resolveConstructors stub.target = .ok ms.constructors →
      stub.source ms = .ok text →
      ∃ (header : String) (constructors : List ForwardingText) (methods : List String),
        text = header ++ String.join (constructors.map (ForwardingText.text stub.name)) ++
          String.join methods ++ "\x7d\n" ∧
        stub.header = .ok header ∧
        List.Forall₂ (fun c text => stub.method c = .ok text) ms.methods methods ∧
        (stub.target.isInterface = true → constructors = []) ∧
        (stub.target.isInterface = false →
          List.Forall₂ stub.Forwards
            (stub.target.effectiveConstructors.filter fun c => !c.modifiers.isPrivate)
            constructors) ∧
        (stub.target.isInterface = false → stub.target.constructors = [] →
          constructors =
            [{ keywords := keywords stub.target.modifiers.access, typeParams := ""
               formals := [], throws := "", arguments := [] }]) := by
  refine ⟨fun hclass => ⟨Members.resolveConstructors_eq_error_iff hclass,
    Members.exists_resolveConstructors_iff hclass,
    Members.resolveConstructors_eq_error_iff_of_nil hclass,
    Declaration.effectiveConstructors_of_ne_nil⟩, fun ms text hresolved hsource => ?_⟩
  obtain ⟨header, texts, methods, hheader, htexts, hmethods, rfl⟩ := source_eq_append hsource
  obtain ⟨constructors, hforwards, rfl⟩ := forwards_all htexts
  -- those of a class are matched one by one with what is written
  have hmatched (hclass : stub.target.isInterface = false) : List.Forall₂ stub.Forwards
      (stub.target.effectiveConstructors.filter fun c => !c.modifiers.isPrivate)
      constructors := by
    rwa [constructors_writtenConstructors hclass hresolved] at hforwards
  refine ⟨header, constructors, methods, rfl, hheader, hmethods, fun hinterface => ?_, hmatched,
    fun hclass hnil => ?_⟩
  · -- nothing is written of the constructors of an interface
    rw [writtenConstructors, if_pos hinterface] at hforwards
    exact List.forall₂_nil_left_iff.1 hforwards
  · -- the implicit constructor alone, for it is not private if there is one to forward to
    have hpublic : stub.target.modifiers.isPrivate = false := by
      refine Bool.eq_false_iff.2 fun hprivate => ?_
      rw [(Members.resolveConstructors_eq_error_iff_of_nil hclass hnil).2 hprivate] at hresolved
      cases hresolved
    have hone := hmatched hclass
    rw [Declaration.effectiveConstructors_of_nil hnil, List.filter_cons_of_pos (by
      rw [Modifiers.isPrivate_access, hpublic]; rfl), List.filter_nil] at hone
    obtain ⟨w, rest, hw, hrest, rfl⟩ := List.forall₂_cons_left_iff.1 hone
    obtain rfl := List.forall₂_nil_left_iff.1 hrest
    rw [hw.eq_of_implicit, Modifiers.access_without_abstract]

end Stub

/-! ## A class with a private constructor -/

namespace Pooling

/-- A class with a private constructor and one with a variable number of arguments, whose type is
the variable of a superclass. -/
def pool : Declaration where
  name := ⟨"Pool"⟩
  modifiers := .ofList [.publicAccess, .abstract]
  superclass := some (.parameterized ⟨"Store"⟩ [.array (.named ⟨"String"⟩)])
  constructors :=
    [{ modifiers := .ofList [.privateAccess] },
      { modifiers := .ofList [.protectedAccess]
        params := [.named ⟨"int"⟩, .var ⟨"E", .ofType ⟨"Store"⟩⟩]
        varargs := true }]

def stub : Stub where
  target := pool
  scope := ⟨.empty, ⟨[(⟨"E", .ofType ⟨"Store"⟩⟩, .array (.named ⟨"String"⟩))]⟩⟩
  suffix := "Impl"

def members : Members := ⟨[⟨pool.constructors[1], ⟨"Pool"⟩, false⟩], []⟩

def headerText : String := "public class PoolImpl extends Pool \x7b\n"

def constructorText : String :=
  "\n    protected PoolImpl(int arg0, String... arg1) \x7b\n" ++
    "        super(arg0, arg1);\n    \x7d\n"

theorem resolve : Members.resolveConstructors pool = .ok members.constructors := by cbv

theorem header : stub.header = .ok headerText := by
  refine (Stub.header_of_renderName (Scope.renderName_of_undeclared rfl) rfl).trans ?_
  exact congrArg Except.ok (by decide)

theorem constructor : stub.constructor members.constructors[0] = .ok constructorText := by cbv

theorem source : stub.source members = .ok (headerText ++ constructorText ++ "\x7d\n") := by
  refine Stub.source_eq_ok_iff.2 ?_
  have hpieces : stub.pieces members =
      [stub.header, stub.constructor members.constructors[0], .ok "\x7d\n"] := rfl
  rw [hpieces, header, constructor]
  exact ⟨rfl, by decide⟩

/-- The class has a usable constructor, to which its implementation forwards. -/
theorem source_forwards_of_pool :
    (Members.resolveConstructors stub.target = .ok members.constructors ∧
      stub.source members = .ok (headerText ++ constructorText ++ "\x7d\n")) ∧
    Members.resolveConstructors stub.target ≠ .error .noUsableConstructor ∧
    ∃ w, stub.Forwards pool.constructors[1] w ∧
      headerText ++ constructorText ++ "\x7d\n" =
        headerText ++ w.text "PoolImpl" ++ "\x7d\n" := by
  obtain ⟨hclass, hwritten⟩ := stub.source_forwards
  obtain ⟨header', constructors, methods, htext, hheader, hmethods, -, hforwards, -⟩ :=
    hwritten members _ resolve source
  refine ⟨⟨resolve, source⟩, fun hnone => ?_, ?_⟩
  · exact absurd ((hclass rfl).1.1 hnone) (by decide)
  · obtain rfl := Except.ok.inj (hheader.symm.trans header)
    obtain rfl := List.forall₂_nil_left_iff.1 hmethods
    have hone : List.Forall₂ stub.Forwards [pool.constructors[1]] constructors := hforwards rfl
    obtain ⟨w, rest, hw, hrest, rfl⟩ := List.forall₂_cons_left_iff.1 hone
    obtain rfl := List.forall₂_nil_left_iff.1 hrest
    refine ⟨w, hw, htext.trans ?_⟩
    rw [List.map_cons, List.map_nil, String.join_cons, String.join_nil, String.append_empty,
      String.append_empty]
    rfl

end Pooling

end StubGen
