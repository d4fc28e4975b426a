import StubGen.Members.Collector
import StubGen.Proofs.Scoping

/-!
# Signatures up to renaming

A method may call its own generic variables what it likes: in its signature they count by position.
So two methods have one signature exactly if they have one name, and the parameter types of the
second are those of the first with every variable of the first method replaced by the one at its
position in the second. Result, exceptions, bounds and parameters that no type mentions do not
matter.

Main results:

* `positional_eq_iff` — which variables of two methods a signature does not tell apart;
* `signature_eq_of_counterparts` — replacing the variables position by position;
* `signature_eq_iff` — and nothing else keeps a signature;
* `Unaware.resolve_renameRef` — bindings that know nothing of a method's own variables carry new
  names for them along.
-/

namespace StubGen

/-- The digits of a number give it back. -/
theorem toString_injective {i j : Nat} (h : toString i = toString j) : i = j := by
  have hdigits : Nat.toDigits 10 i = Nat.toDigits 10 j := by
    rw [← String.ofList_inj, ← Nat.toString_eq_ofList_toDigits, ← Nat.toString_eq_ofList_toDigits]
    exact h
  rw [← Nat.ofDigitChars_ten_toDigits (n := i), hdigits, Nat.ofDigitChars_ten_toDigits]

namespace Candidate

variable {s : Substitution} {c c' : Candidate} {v w : TypeVar} {ν : String → String}

/-- The owner of a method's own variables. -/
def owner (c : Candidate) : VarOwner := .ofMember c.declaring c.method.name

/-- A method's own parameters as variables. -/
def typeVars (c : Candidate) : List TypeVar := c.method.typeVars c.declaring

/-- The types of a method's parameters, resolved. -/
def paramTypes (s : Substitution) (c : Candidate) : List TypeRef := c.method.params.map s.resolve

/-- A variable that may occur in a method: one of its own, or one that belongs to no member. -/
def Admits (c : Candidate) (v : TypeVar) : Prop :=
  v.owner.isMemberScoped = true → v ∈ c.typeVars

instance (c : Candidate) (v : TypeVar) : Decidable (c.Admits v) :=
  inferInstanceAs (Decidable (v.owner.isMemberScoped = true → v ∈ c.typeVars))

/-- A method's variables have different names, and its resolved parameter types mention no variable
of a member but them. -/
structure WellScoped (s : Substitution) (c : Candidate) : Prop where
  distinct : c.typeVars.Nodup
  admits : ∀ v ∈ TypeRef.varsAll (c.paramTypes s), c.Admits v

/-- The variable that a method has in the place of a variable of another one. Variables that are not
that method's own stay. -/
def counterpart? (c c' : Candidate) (v : TypeVar) : Option TypeVar :=
  match c.typeVars.idxOf? v with
  | some i => c'.typeVars[i]?
  | none => some v

/-- What stands for a variable in the method's signature. -/
def positional (c : Candidate) : TypeVar → TypeRef := Signature.positional c.method c.declaring

/-! ## One variable -/

theorem owner_of_mem_typeVars (h : v ∈ c.typeVars) : v.owner = c.owner :=
  Method.owner_of_mem_typeVars h

theorem isMemberScoped_of_mem_typeVars (h : v ∈ c.typeVars) : v.owner.isMemberScoped = true := by
  rw [owner_of_mem_typeVars h]
  rfl

/-- In a signature a variable of the method is replaced by its place among the type parameters, and
any other variable stays. -/
theorem positional_eq (c : Candidate) (v : TypeVar) :
    c.positional v = match c.typeVars.idxOf? v with
      | some i => Signature.placeholder i
      | none => .var v := by
  rw [positional, Signature.positional]
  by_cases howner : v.owner = .ofMember c.declaring c.method.name
  · -- among variables of one owner the name decides
    have hindex : c.method.typeParamIndex? v.name = c.typeVars.idxOf? v := by
      rw [Method.typeParamIndex?, List.idxOf?, typeVars, Method.typeVars, List.findIdx?_map]
      congr 1
      funext p
      rw [Function.comp_apply, Bool.eq_iff_iff, beq_iff_eq, beq_iff_eq, ← howner]
      exact ⟨fun h => by rw [h], fun h => by rw [← h]⟩
    rw [if_pos howner]
    cases hi : c.typeVars.idxOf? v with
    | some i => rw [hindex, hi]
    | none => rw [hindex, hi]
  · -- a variable of another owner is none of the method's
    have hforeign : c.typeVars.idxOf? v = none :=
      List.idxOf?_eq_none_iff.2 fun hmem => howner (owner_of_mem_typeVars hmem)
    rw [if_neg howner, hforeign]

theorem placeholder_injective {i j : Nat}
    (h : Signature.placeholder i = Signature.placeholder j) : i = j := by
  rw [Signature.placeholder, Signature.placeholder, TypeRef.var.injEq, TypeVar.mk.injEq] at h
  exact toString_injective h.1

/-- No variable outside a method is taken for a position. -/
theorem placeholder_ne_var (h : v.owner.isMemberScoped = false) (i : Nat) :
    Signature.placeholder i ≠ .var v := by
  intro heq
  rw [Signature.placeholder, TypeRef.var.injEq] at heq
  rw [← heq] at h
  cases h

theorem exists_positional_eq_var (c : Candidate) (v : TypeVar) : ∃ x, c.positional v = .var x := by
  rw [positional_eq]
  cases c.typeVars.idxOf? v with
  | some i => exact ⟨_, rfl⟩
  | none => exact ⟨v, rfl⟩

theorem Admits.isMemberScoped (hv : c.Admits v) (h : c.typeVars.idxOf? v = none) :
    v.owner.isMemberScoped = false :=
  Bool.eq_false_iff.2 fun hscoped => List.idxOf?_eq_none_iff.1 h (hv hscoped)

/-- A signature does not tell apart a variable and its counterpart. A variable of the method has the
place that its counterpart has in the other one, and any other variable is its own counterpart. -/
theorem positional_of_counterpart? (hv : c.Admits v) (hdistinct : c'.typeVars.Nodup)
    (h : c.counterpart? c' v = some w) : c'.positional w = c.positional v := by
  rw [counterpart?] at h
  rw [positional_eq, positional_eq]
  cases hi : c.typeVars.idxOf? v with
  | some i =>
    -- the counterpart is at the same place, and nowhere else if the parameters have different names
    rw [hi] at h
    obtain ⟨hlt, rfl⟩ := List.getElem?_eq_some_iff.1 h
    have hplace : c'.typeVars.idxOf? c'.typeVars[i] = some i := by
      rw [List.idxOf?_eq_some_iff]
      refine ⟨hlt, rfl, fun j hj heq => ?_⟩
      have hji := (List.getElem_inj hdistinct).1 heq
      omega
    rw [hplace]
  | none =>
    rw [hi] at h
    obtain rfl := Option.some.inj h
    -- a variable of no method is not among those of the other method either
    have hscoped := hv.isMemberScoped hi
    have hforeign : c'.typeVars.idxOf? v = none := by
      refine List.idxOf?_eq_none_iff.2 fun hmem => ?_
      rw [isMemberScoped_of_mem_typeVars hmem] at hscoped
      cases hscoped
    rw [hforeign]

/-- And it tells apart all others. -/
theorem counterpart?_of_positional (hv : c.Admits v) (hw : c'.Admits w)
    (h : c.positional v = c'.positional w) : c.counterpart? c' v = some w := by
  rw [positional_eq, positional_eq] at h
  rw [counterpart?]
  cases hi : c.typeVars.idxOf? v with
  | some i =>
    -- two places are the same number
    rw [hi] at h
    cases hj : c'.typeVars.idxOf? w with
    | some j =>
      rw [hj] at h
      obtain rfl := placeholder_injective h
      obtain ⟨hlt, hw', -⟩ := List.idxOf?_eq_some_iff.1 hj
      exact List.getElem?_eq_some_iff.2 ⟨hlt, hw'⟩
    | none =>
      -- a place is not what stands for a variable that stays
      rw [hj] at h
      exact absurd h (placeholder_ne_var (hw.isMemberScoped hj) i)
  | none =>
    rw [hi] at h
    cases hj : c'.typeVars.idxOf? w with
    | some j =>
      rw [hj] at h
      exact absurd h.symm (placeholder_ne_var (hv.isMemberScoped hi) j)
    | none =>
      rw [hj] at h
      exact congrArg some (TypeRef.var.inj h)

/-! ## Whole signatures -/

theorem params_signature (s : Substitution) (c : Candidate) :
    (c.signature s).params = TypeRef.bindAll c.positional (c.paramTypes s) := by
  rw [TypeRef.bindAll_eq_map, paramTypes, List.map_map]
  rfl

theorem signature_eq_signature_iff :
    c.signature s = c'.signature s ↔ c.method.name = c'.method.name ∧
      TypeRef.bindAll c.positional (c.paramTypes s) =
        TypeRef.bindAll c'.positional (c'.paramTypes s) := by
  rw [← params_signature, ← params_signature]
  constructor
  · intro h
    exact ⟨congrArg Signature.name h, congrArg Signature.params h⟩
  · rintro ⟨hname, hparams⟩
    show Signature.mk c.method.name _ = Signature.mk c'.method.name _
    rw [hname]
    exact congrArg _ hparams

/-- Every variable may be replaced by its counterpart. -/
theorem signature_eq_of_counterparts (hc : ∀ v ∈ TypeRef.varsAll (c.paramTypes s), c.Admits v)
    (hdistinct : c'.typeVars.Nodup) (hname : c.method.name = c'.method.name)
    {ρ : TypeVar → TypeVar}
    (hρ : ∀ v ∈ TypeRef.varsAll (c.paramTypes s), c.counterpart? c' v = some (ρ v))
    (hparams : c'.paramTypes s = TypeRef.bindAll (fun v => .var (ρ v)) (c.paramTypes s)) :
    c.signature s = c'.signature s := by
  refine signature_eq_signature_iff.2 ⟨hname, ?_⟩
  rw [hparams, TypeRef.bindAll_bindAll]
  refine TypeRef.bindAll_congr fun v hv => ?_
  rw [TypeRef.bind, positional_of_counterpart? (hc v hv) hdistinct (hρ v hv)]

/-- In a signature nothing but counterparts falls together. -/
theorem counterparts_of_signature_eq (hc : c.WellScoped s) (hc' : c'.WellScoped s)
    (h : c.signature s = c'.signature s) :
    ∃ ρ : TypeVar → TypeVar,
      (∀ v ∈ TypeRef.varsAll (c.paramTypes s), c.counterpart? c' v = some (ρ v)) ∧
      c'.paramTypes s = TypeRef.bindAll (fun v => .var (ρ v)) (c.paramTypes s) := by
  have hparams := (signature_eq_signature_iff.1 h).2
  have htogether : ∀ v ∈ TypeRef.varsAll (c.paramTypes s),
      ∀ w ∈ TypeRef.varsAll (c'.paramTypes s), c.positional v = c'.positional w →
        c.counterpart? c' v = some w :=
    fun v hv w hw => counterpart?_of_positional (hc.admits v hv) (hc'.admits w hw)
  refine ⟨fun v => (c.counterpart? c' v).getD v, fun v hv => ?_, ?_⟩
  · -- what stands for `v` in the one signature stands for some `w` in the other
    obtain ⟨x, hx⟩ := exists_positional_eq_var c v
    have hmem : x ∈ TypeRef.varsAll (TypeRef.bindAll c'.positional (c'.paramTypes s)) := by
      rw [← hparams, TypeRef.mem_varsAll_bindAll]
      exact ⟨v, hv, by simp [hx, TypeRef.vars]⟩
    obtain ⟨w, hw, hxw⟩ := TypeRef.mem_varsAll_bindAll.1 hmem
    obtain ⟨y, hy⟩ := exists_positional_eq_var c' w
    rw [hy, TypeRef.vars, List.mem_singleton] at hxw
    have hvw : c.positional v = c'.positional w := by rw [hx, hy, hxw]
    show c.counterpart? c' v = some ((c.counterpart? c' v).getD v)
    rw [htogether v hv w hw hvw, Option.getD_some]
  · -- to rename every variable to its counterpart makes the one list of parameters the other
    refine (TypeRef.bindAll_eq_of_bindAll_eq_bindAll (exists_positional_eq_var c)
      (exists_positional_eq_var c') hparams fun v hv w hw hvw => ?_).symm
    show TypeRef.var ((c.counterpart? c' v).getD v) = .var w
    rw [htogether v hv w hw hvw, Option.getD_some]

/-! ## A method with other names for its variables -/

/-- One of a method's own variables by its new name; other variables stay. -/
def renameVar (ν : String → String) (c : Candidate) (v : TypeVar) : TypeVar :=
  if v ∈ c.typeVars then { v with name := ν v.name } else v

/-- A reference with a method's own variables renamed. -/
def renameRef (ν : String → String) (c : Candidate) (t : TypeRef) : TypeRef :=
  t.bind fun v => .var (c.renameVar ν v)

/-- The method with new names for its own variables wherever they occur. -/
def renamed (ν : String → String) (c : Candidate) : Candidate where
  declaring := c.declaring
  method :=
    { c.method with
      typeParams := c.method.typeParams.map fun p =>
        { name := ν p.name, bounds := p.bounds.map (c.renameRef ν) }
      params := c.method.params.map (c.renameRef ν)
      returns := c.renameRef ν c.method.returns
      throws := c.method.throws.map (c.renameRef ν) }

theorem typeVars_renamed (ν : String → String) (c : Candidate) :
    (c.renamed ν).typeVars = c.typeVars.map (c.renameVar ν) := by
  show ((c.method.typeParams.map _).map _) = (c.method.typeParams.map _).map _
  rw [List.map_map, List.map_map]
  refine List.map_congr_left fun p hp => ?_
  have hmem : ⟨p.name, .ofMember c.declaring c.method.name⟩ ∈ c.typeVars := List.mem_map_of_mem hp
  rw [Function.comp_apply, Function.comp_apply, renameVar, if_pos hmem]
  rfl

theorem counterpart?_renamed (ν : String → String) (c : Candidate) (v : TypeVar) :
    c.counterpart? (c.renamed ν) v = some (c.renameVar ν v) := by
  rw [counterpart?, typeVars_renamed]
  cases hi : c.typeVars.idxOf? v with
  | some i =>
    obtain ⟨hlt, hv, -⟩ := List.idxOf?_eq_some_iff.1 hi
    show (c.typeVars.map (c.renameVar ν))[i]? = some (c.renameVar ν v)
    rw [List.getElem?_map, List.getElem?_eq_getElem hlt, hv, Option.map_some]
  | none =>
    show some v = some (c.renameVar ν v)
    rw [renameVar, if_neg (List.idxOf?_eq_none_iff.1 hi)]

/-- New names that keep a method's variables apart, and that resolution carries along. -/
structure Consistent (s : Substitution) (ν : String → String) (c : Candidate) : Prop where
  distinct : (c.renamed ν).typeVars.Nodup
  resolve : ∀ t ∈ c.method.params, s.resolve (c.renameRef ν t) = c.renameRef ν (s.resolve t)

theorem signature_renamed (hc : ∀ v ∈ TypeRef.varsAll (c.paramTypes s), c.Admits v)
    (hν : Consistent s ν c) : (c.renamed ν).signature s = c.signature s := by
  have hparams : (c.renamed ν).paramTypes s =
      TypeRef.bindAll (fun v => .var (c.renameVar ν v)) (c.paramTypes s) := by
    rw [TypeRef.bindAll_eq_map]
    show (c.method.params.map (c.renameRef ν)).map s.resolve =
      (c.method.params.map s.resolve).map (c.renameRef ν)
    rw [List.map_map, List.map_map]
    exact List.map_congr_left hν.resolve
  exact (signature_eq_of_counterparts hc hν.distinct rfl
    (fun v _ => counterpart?_renamed ν c v) hparams).symm

/-- Bindings that know nothing of a method's own variables: they neither bind nor mention one. -/
def Unaware (s : Substitution) (c : Candidate) : Prop :=
  ∀ b ∈ s.bindings, b.1.owner ≠ c.owner ∧ ∀ w ∈ b.2.vars, w.owner ≠ c.owner

instance (s : Substitution) (c : Candidate) : Decidable (Unaware s c) :=
  inferInstanceAs (Decidable (∀ b ∈ s.bindings, _ ∧ ∀ w ∈ b.2.vars, _))

theorem Unaware.of_get? (hs : Unaware s c) {u : TypeRef} (h : s.get? v = some u) :
    v.owner ≠ c.owner ∧ ∀ w ∈ u.vars, w.owner ≠ c.owner := by
  obtain ⟨before, after, hb, -⟩ := List.lookup_eq_some_iff.1 h
  exact hs (v, u) (by simp [hb])

/-- Such bindings carry every renaming of these variables along. -/
theorem Unaware.resolve_renameRef (hs : Unaware s c) (t : TypeRef) :
    s.resolve (c.renameRef ν t) = c.renameRef ν (s.resolve t) := by
  rw [renameRef, renameRef, Substitution.resolve_eq_bind, TypeRef.bind_bind,
    Substitution.resolve_eq_bind t, TypeRef.bind_bind]
  refine TypeRef.bind_congr fun v _ => ?_
  rw [TypeRef.bind]
  by_cases hv : v ∈ c.typeVars
  · -- a variable of the method is unbound, by its old name and by its new one
    have hstays : ∀ w : TypeVar, w.owner = c.owner → s.resolve (.var w) = .var w := by
      intro w hw
      refine Substitution.resolve_var_of_none (Option.eq_none_iff_forall_ne_some.2 fun u hu => ?_)
      exact (hs.of_get? hu).1 hw
    have howner := owner_of_mem_typeVars hv
    have howner' : (c.renameVar ν v).owner = c.owner := by
      rw [renameVar, if_pos hv]
      exact howner
    rw [hstays v howner, hstays _ howner', TypeRef.bind]
  · -- and any other variable leads to none of the method's
    have hkept : ∀ w ∈ (s.resolve (.var v)).vars, c.renameVar ν w = w := by
      intro w hw
      refine if_neg fun hmem => ?_
      obtain ⟨⟨x, hx, hreach⟩, -⟩ := Substitution.mem_vars_resolve hw
      obtain rfl := List.mem_singleton.1 hx
      cases hreach with
      | refl => exact hv hmem
      | tail _ hlast =>
        obtain ⟨u, hu, hwu⟩ := hlast
        exact (hs.of_get? hu).2 w hwu (owner_of_mem_typeVars hmem)
    rw [renameVar, if_neg hv]
    have hbind : ((s.resolve (.var v)).bind fun w => .var (c.renameVar ν w)) =
        (s.resolve (.var v)).bind .var :=
      TypeRef.bind_congr fun w hw => congrArg TypeRef.var (hkept w hw)
    rw [hbind, TypeRef.bind_var]

/-- Under any bindings, two well-scoped methods have one signature exactly if they have one name and
the resolved parameter types of the second are those of the first, at any depth, with every variable
of the first method replaced by the one at its position in the second. So a method keeps its
signature under consistent new names for its variables. -/
theorem signature_eq_iff (s : Substitution) {c c' : Candidate} (hc : c.WellScoped s)
    (hc' : c'.WellScoped s) :
    (c.signature s = c'.signature s ↔ c.method.name = c'.method.name ∧
      ∃ ρ : TypeVar → TypeVar,
        (∀ v ∈ TypeRef.varsAll (c.paramTypes s), c.counterpart? c' v = some (ρ v)) ∧
        c'.paramTypes s = TypeRef.bindAll (fun v => .var (ρ v)) (c.paramTypes s)) ∧
    ∀ ν, Consistent s ν c → (c.renamed ν).signature s = c.signature s := by
  refine ⟨⟨fun h => ?_, ?_⟩, fun ν hν => signature_renamed hc.admits hν⟩
  · exact ⟨congrArg Signature.name h, counterparts_of_signature_eq hc hc' h⟩
  · rintro ⟨hname, ρ, hρ, hparams⟩
    exact signature_eq_of_counterparts hc.admits hc'.distinct hname hρ hparams

end Candidate

/-! ## Two generic methods -/

namespace Zipping

def owner (declaring : String) : VarOwner := .ofMember ⟨declaring⟩ "zip"

def own (declaring name : String) : TypeRef := .var ⟨name, owner declaring⟩

/-- `<T, U, X> zip(Map<? extends T, U[]>, E)` of a type with a parameter `E`. -/
def first : Candidate where
  declaring := ⟨"First"⟩
  method :=
    { name := "zip"
      typeParams := [{ name := "T" }, { name := "U" }, { name := "X" }]
      params := [.parameterized ⟨"Map"⟩
          [.wildcard .upper [own "First" "T"], .array (own "First" "U")],
        .var ⟨"E", .ofType ⟨"First"⟩⟩] }

/-- `<U, T> zip(Map<? extends U, T[]>, String)`. -/
def second : Candidate where
  declaring := ⟨"Second"⟩
  method :=
    { name := "zip"
      typeParams := [{ name := "U" }, { name := "T", bounds := [.named ⟨"Number"⟩] }]
      params := [.parameterized ⟨"Map"⟩
          [.wildcard .upper [own "Second" "U"], .array (own "Second" "T")],
        .named ⟨"String"⟩] }

/-- `E` stands for `String`. -/
def table : Substitution := ⟨[(⟨"E", .ofType ⟨"First"⟩⟩, .named ⟨"String"⟩)]⟩

def prime (name : String) : String := name ++ "1"

theorem paramTypes_first : first.paramTypes table = [.parameterized ⟨"Map"⟩
    [.wildcard .upper [own "First" "T"], .array (own "First" "U")],
    .named ⟨"String"⟩] := by cbv

theorem paramTypes_second : second.paramTypes table = second.method.params := by cbv

/-- The two methods have one signature, and the first has it by other names, too. -/
theorem signature_eq_iff_of_zip :
    first.WellScoped table ∧ second.WellScoped table ∧
    first.signature table = second.signature table ∧
    (first.renamed prime).signature table = first.signature table := by
  have hfirst : first.WellScoped table := by
    refine ⟨by decide, ?_⟩
    rw [paramTypes_first]
    decide
  have hsecond : second.WellScoped table := by
    refine ⟨by decide, ?_⟩
    rw [paramTypes_second]
    decide
  obtain ⟨hiff, hrenamed⟩ := Candidate.signature_eq_iff table hfirst hsecond
  have hunaware : Candidate.Unaware table first := by decide
  refine ⟨hfirst, hsecond, hiff.2 ⟨rfl, fun v => (first.counterpart? second v).getD v, ?_, ?_⟩,
    hrenamed prime ⟨by decide, fun t _ => hunaware.resolve_renameRef t⟩⟩
  · rw [paramTypes_first]
    decide
  · rw [paramTypes_first, paramTypes_second]
    decide

end Zipping

end StubGen
