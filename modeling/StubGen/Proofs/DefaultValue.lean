import Mathlib
import StubGen.Proofs.Closure
import StubGen.Proofs.Render
import StubGen.Proofs.Resolution

/-!
# The value that a method returns

A written method declares its return type as it is resolved, but the value it returns is chosen by
the type as it was declared. The two fit as long as variables stand for reference types only:
resolving then neither makes a primitive type of a reference type nor the reverse, however the
bindings lead on to each other, and all reference types have one default value.

Main results:

* `Substitution.isPrimitive_resolve` — a reference is primitive exactly if what it resolves to is;
* `Closure.bindsReferences_substitution` — variables stand for reference types if the clauses of the
  type and its ancestors have such types for arguments;
* `Stub.method_eq` — a method is its head, its body and the closing brace;
* `Stub.body_fits_returns` — the body fits the resolved return type.
-/

namespace StubGen

namespace TypeRef

/-- The type of truth values. -/
def boolean : TypeRef := named ⟨"boolean"⟩

/-- A primitive type or `void`. -/
def isPrimitive : TypeRef → Bool
  | named n => n.isPrimitive
  | _ => false

/-- Substitution of reference types leaves primitive types alone and makes no new ones. -/
theorem isPrimitive_bind {f : TypeVar → TypeRef} (hf : ∀ v, (f v).isPrimitive = false)
    (t : TypeRef) : (t.bind f).isPrimitive = t.isPrimitive := by
  cases t with
  | var v => exact hf v
  | named _ | array _ | wildcard _ _ | parameterized _ _ => rfl

end TypeRef

/-! ## Resolution keeps primitive types apart -/

namespace Substitution

variable {s : Substitution} {t : TypeRef}

/-- Variables stand for reference types. -/
def BindsReferences (s : Substitution) : Prop := ∀ v u, s.get? v = some u → u.isPrimitive = false

/-- However far the bindings of a variable lead, the last of them is a reference type like all the
others; and if they lead back, the variable stays. -/
theorem isPrimitive_resolveUnder (hs : s.BindsReferences) (expanding : List TypeVar)
    (t : TypeRef) : (s.resolveUnder expanding t).isPrimitive = t.isPrimitive := by
  induction expanding, t using resolveUnder.induct s with
  | case1 expanding t ih =>
    -- only variables are replaced, so what each of them leads to decides
    rw [resolveUnder_eq_bind]
    refine TypeRef.isPrimitive_bind (fun v => ?_) t
    rw [resolveUnder_var]
    split
    · -- the bindings have come back to a variable that is being expanded already
      rfl
    · rename_i hfree
      cases hbound : s.get? v with
      | none => rfl
      | some u => exact (ih v hfree u hbound).trans (hs v u hbound)

theorem isPrimitive_resolve (hs : s.BindsReferences) (t : TypeRef) :
    (s.resolve t).isPrimitive = t.isPrimitive :=
  isPrimitive_resolveUnder hs [] t

theorem resolve_of_isPrimitive (ht : t.isPrimitive = true) : s.resolve t = t := by
  cases t with
  | named n => rw [resolve, resolveUnder, TypeRef.bind]
  | array _ | var _ | wildcard _ _ | parameterized _ _ => cases ht

end Substitution

namespace Closure

open Relation

theorem bindsReferences_substitution {r : Registry} {target : Declaration}
    (htarget : r.lookup target.name = some target)
    (hargs : ∀ d, ReflTransGen (Hierarchy.Parent r) target d → ∀ raw args,
      .parameterized raw args ∈ d.supertypes → ∀ u ∈ args, u.isPrimitive = false) :
    (substitution r target).BindsReferences := by
  intro v u hu
  obtain ⟨d, p, hd, raw, args, hclause, -, hzip⟩ := exists_supplies_of_get? htarget hu
  exact hargs d hd raw args hclause u (List.of_mem_zip hzip).2

end Closure

namespace Stub

variable {t : TypeRef}

/-! ## Default values -/

/-- The four kinds of return types and their values. -/
theorem defaultValue_iff (t : TypeRef) :
    (defaultValue t = none ↔ t = .void) ∧
    (defaultValue t = some "false" ↔ t = .boolean) ∧
    (defaultValue t = some "0" ↔ t.isPrimitive = true ∧ t ≠ .void ∧ t ≠ .boolean) ∧
    (defaultValue t = some "null" ↔ t.isPrimitive = false) := by
  by_cases hvoid : t = .void
  · subst hvoid
    decide
  by_cases hboolean : t = .boolean
  · subst hboolean
    decide
  cases t with
  | array _ | var _ | wildcard _ _ | parameterized _ _ => simp [defaultValue, TypeRef.isPrimitive,
      TypeRef.void, TypeRef.boolean]
  | named n =>
    have hvoid' : n.isVoid = false := by
      rw [BinaryName.isVoid, beq_eq_false_iff_ne]
      exact fun hn => hvoid (congrArg TypeRef.named hn)
    have hboolean' : n.isBoolean = false := by
      rw [BinaryName.isBoolean, beq_eq_false_iff_ne]
      exact fun hn => hboolean (congrArg TypeRef.named (congrArg BinaryName.mk hn))
    simp only [TypeRef.isPrimitive, defaultValue, hvoid', hboolean']
    cases n.isPrimitive <;> simp [hvoid, hboolean]

theorem defaultValue_resolve {s : Substitution} (hs : s.BindsReferences) (t : TypeRef) :
    defaultValue (s.resolve t) = defaultValue t := by
  cases ht : t.isPrimitive with
  | true => rw [Substitution.resolve_of_isPrimitive ht]
  | false =>
    -- both are reference types, and which ones does not matter
    have hresolved : (s.resolve t).isPrimitive = false := by
      rw [Substitution.isPrimitive_resolve hs, ht]
    rw [(defaultValue_iff t).2.2.2.2 ht, (defaultValue_iff _).2.2.2.2 hresolved]

/-! ## The body of a method -/

/-- The statement that returns a value; nothing where there is none to return. -/
def returnStatement : Option String → String
  | some value => indent ++ indent ++ "return " ++ value ++ ";\n"
  | none => ""

theorem returnStatement_injective : Function.Injective returnStatement := by
  intro value? value'? h
  rw [← String.toList_inj] at h
  cases value? <;> cases value'? <;> simp [returnStatement, indent, String.toList_inj] at h ⊢
  exact h

/-- A method up to the parenthesis or the exceptions that its body follows. -/
def methodHead (stub : Stub) (c : Candidate) : Except SynthesisFault String := do
  let m := c.method
  let typeParams ← stub.typeParams m.typeParams
  let returns ← stub.scope.render m.returns
  let parameters ← stub.parameters m.params m.varargs
  let throws ← stub.throwsClause m.throws
  return "\n" ++ indent ++ "@Override\n" ++ indent ++
    keywords (m.modifiers.without (.single .abstract)) ++ typeParams ++ returns ++ " " ++ m.name ++
    "(" ++ parameters ++ ")" ++ throws

theorem method_eq (stub : Stub) (c : Candidate) :
    stub.method c = (fun head => head ++ " \x7b\n" ++
      returnStatement (defaultValue c.method.returns) ++ indent ++ "\x7d\n") <$>
        stub.methodHead c := by
  simp only [methodHead, map_bind, map_pure]
  rfl

/-- Where variables stand for reference types, the body of a method is empty exactly if the return
type resolves to `void`; it returns `false` exactly if that is `boolean`, `0` exactly if it is any
other primitive type, and `null` exactly if it is a reference type. -/
theorem body_fits_returns (stub : Stub) (c : Candidate)
    (hs : stub.scope.substitution.BindsReferences) :
    let r := stub.scope.substitution.resolve c.method.returns
    ∃ body : String,
      stub.method c =
        (fun head => head ++ " \x7b\n" ++ body ++ indent ++ "\x7d\n") <$> stub.methodHead c ∧
      (body = "" ↔ r = .void) ∧
      (body = "        return false;\n" ↔ r = .boolean) ∧
      (body = "        return 0;\n" ↔ r.isPrimitive = true ∧ r ≠ .void ∧ r ≠ .boolean) ∧
      (body = "        return null;\n" ↔ r.isPrimitive = false) := by
  intro r
  refine ⟨returnStatement (defaultValue c.method.returns), method_eq stub c, ?_⟩
  obtain ⟨hvoid, hboolean, hzero, hnull⟩ := defaultValue_iff r
  -- the value was chosen before resolving, but no other would have been chosen after it
  have hwritten : ∀ v?, returnStatement (defaultValue c.method.returns) = returnStatement v? ↔
      defaultValue r = v? := by
    intro v?
    rw [returnStatement_injective.eq_iff, defaultValue_resolve hs]
  exact ⟨(hwritten none).trans hvoid, (hwritten (some "false")).trans hboolean,
    (hwritten (some "0")).trans hzero, (hwritten (some "null")).trans hnull⟩

end Stub

/-! ## Bindings that lead back -/

namespace Winding

def e : TypeVar := ⟨"E", .ofType ⟨"Base"⟩⟩

def m : TypeVar := ⟨"M", .ofType ⟨"Middle"⟩⟩

def l : TypeVar := ⟨"L", .ofType ⟨"Leaf"⟩⟩

/-- `Base<E>`, which extends `Leaf<E[]>` and so inherits from itself. -/
def base : Declaration where
  name := ⟨"Base"⟩
  typeParams := [{ name := "E" }]
  superclass := some (.parameterized ⟨"Leaf"⟩ [.array (.var e)])
  methods := [{ name := "get", returns := .var e }]

/-- `Middle<M>`, which extends `Base<M>`. -/
def middle : Declaration where
  name := ⟨"Middle"⟩
  typeParams := [{ name := "M" }]
  superclass := some (.parameterized ⟨"Base"⟩ [.var m])

/-- `Leaf<L>`, which extends `Middle<L>`. -/
def leaf : Declaration where
  name := ⟨"Leaf"⟩
  typeParams := [{ name := "L" }]
  superclass := some (.parameterized ⟨"Middle"⟩ [.var l])

/-- For `Leaf`, `E` stands for `M`, `M` for `L`, and `L` for arrays over `E`. -/
def registry : Registry := ⟨[base, middle, leaf]⟩

def stub : Stub where
  target := leaf
  scope := ⟨registry, Closure.substitution registry leaf⟩
  suffix := "Impl"

/-- The method of `Base`, which returns an `E`. -/
def get : Candidate := ⟨base.methods[0], base.name⟩

theorem lookup_leaf : registry.lookup leaf.name = some leaf := rfl

/-- The arguments of all clauses are variables and arrays. -/
theorem bindsReferences : (Closure.substitution registry leaf).BindsReferences := by
  refine Closure.bindsReferences_substitution lookup_leaf fun d hd raw args hclause u hu => ?_
  have hdeclared : d ∈ [base, middle, leaf] :=
    Hierarchy.mem_declarations_of_reachable lookup_leaf hd
  simp only [List.mem_cons, List.not_mem_nil, or_false] at hdeclared
  -- no declaration has more than the clause of its superclass
  have hsuper : d.superclass = some (.parameterized raw args) := by
    rcases Declaration.mem_supertypes_iff.1 hclause with h | ⟨-, -, -, h⟩ | h
    · exact h
    · cases h
    · rcases hdeclared with rfl | rfl | rfl <;> cases h
  rcases hdeclared with rfl | rfl | rfl <;> cases hsuper <;> cases List.mem_singleton.1 hu <;> rfl

/-- The value fits what `E` resolves to, although the bindings of the hierarchy lead back. -/
theorem body_fits_returns_of_get :
    (Closure.substitution registry leaf).BindsReferences ∧
    stub.scope.substitution.resolve (.var e) = .array (.var e) ∧
    stub.method get =
      .ok "\n    @Override\n    E[] get() \x7b\n        return null;\n    \x7d\n" := by
  have hresolve : stub.scope.substitution.resolve (.var e) = .array (.var e) := by cbv
  have hhead : stub.methodHead get = .ok "\n    @Override\n    E[] get()" := by cbv
  obtain ⟨body, hmethod, -, -, -, hnull⟩ := Stub.body_fits_returns stub get bindsReferences
  have hbody : body = "        return null;\n" := hnull.2 (congrArg TypeRef.isPrimitive hresolve)
  refine ⟨bindsReferences, hresolve, ?_⟩
  rw [hmethod, hbody, hhead]
  rfl

/-- With a primitive type for an argument, the value does not fit the type. -/
example :
    let s : Substitution := ⟨[(e, .named ⟨"int"⟩)]⟩
    s.resolve (.var e) = .named ⟨"int"⟩ ∧ Stub.defaultValue (.var e) = some "null" := by
  exact ⟨by cbv, rfl⟩

end Winding

end StubGen
