import StubGen.Proofs.BinaryName
import StubGen.Proofs.Except
import StubGen.Proofs.Render

/-!
# Which types can be named

The name of a member type is put together from outside: its enclosing type is named, and the member
type selected from it. On the way outwards a private member type bars the way. A type that is not
declared ends the way, too, and is written as it stands, so nothing is known of what encloses it.

Main results:

* `Registry.bars_iff_of_enclosing` — one step outwards;
* `Scope.renderName_induction` — the whole way;
* `Scope.canonical_of_renderName` — a name that can be written is the canonical one;
* `Scope.renderName_outcome` — what can be named, and what bars the way to all else;
* `Concealed.renderName_beyond_hidden` — a private type passed by, behind one that is not declared.
-/

namespace StubGen

namespace Registry

variable {r : Registry} {n m e q : BinaryName} {d : Declaration}

/-- A declared member type that is private. -/
def IsPrivateMember (r : Registry) (n : BinaryName) : Prop :=
  n.enclosing? ≠ none ∧ ∃ d, r.lookup n = some d ∧ d.modifiers.isPrivate = true

/-- Among a type and what encloses it, `q` is the innermost private member type, and everything
inside it is declared. -/
def Bars (r : Registry) (n q : BinaryName) : Prop :=
  ∃ inner outer, n.levels = inner ++ q :: outer ∧ r.IsPrivateMember q ∧
    ∀ m ∈ inner, r.lookup m ≠ none ∧ ¬ r.IsPrivateMember m

/-! ## One step outwards -/

theorem IsPrivateMember.lookup_ne_none (h : r.IsPrivateMember n) : r.lookup n ≠ none := by
  obtain ⟨-, d, hd, -⟩ := h
  simp [hd]

/-- The innermost level is the type itself, and only declared types let the search go on. -/
theorem Bars.lookup_ne_none (h : r.Bars n q) : r.lookup n ≠ none := by
  obtain ⟨inner, outer, hlevels, hq, hinner⟩ := h
  obtain ⟨enclosing, hn⟩ := n.exists_levels
  rw [hn] at hlevels
  cases inner with
  | nil =>
    obtain ⟨rfl, -⟩ := List.cons.inj hlevels
    exact hq.lookup_ne_none
  | cons m inner =>
    obtain ⟨rfl, -⟩ := List.cons.inj hlevels
    exact (hinner n List.mem_cons_self).1

theorem not_bars_of_topLevel (h : n.enclosing? = none) : ¬ r.Bars n q := by
  rintro ⟨inner, outer, hlevels, ⟨hmember, -⟩, -⟩
  rw [BinaryName.levels_of_enclosing?_eq_none h] at hlevels
  rcases List.append_eq_singleton_iff.1 hlevels.symm with ⟨-, hq⟩ | ⟨-, hnil⟩
  · exact hmember ((List.cons.inj hq).1 ▸ h)
  · exact absurd hnil (List.cons_ne_nil _ _)

theorem bars_iff_of_isPrivateMember (h : r.IsPrivateMember n) : r.Bars n q ↔ q = n := by
  obtain ⟨enclosing, hn⟩ := n.exists_levels
  constructor
  · rintro ⟨inner, outer, hlevels, -, hinner⟩
    rw [hn] at hlevels
    cases inner with
    | nil => exact (List.cons.inj hlevels).1.symm
    | cons m inner =>
      obtain ⟨rfl, -⟩ := List.cons.inj hlevels
      exact absurd h (hinner n List.mem_cons_self).2
  · rintro rfl
    exact ⟨[], enclosing, hn, h, fun m hm => absurd hm List.not_mem_nil⟩

/-- A declared type that is not private leaves the question to the type that encloses it. -/
theorem bars_iff_of_enclosing (hd : r.lookup n ≠ none) (hn : ¬ r.IsPrivateMember n)
    (he : n.enclosing? = some e) : r.Bars n q ↔ r.Bars e q := by
  -- what bars the way is not `n`, so it is further out
  constructor
  · rintro ⟨inner, outer, hlevels, hq, hinner⟩
    rw [BinaryName.levels_of_enclosing? he] at hlevels
    cases inner with
    | nil =>
      obtain ⟨rfl, -⟩ := List.cons.inj hlevels
      exact absurd hq hn
    | cons m inner =>
      obtain ⟨-, hrest⟩ := List.cons.inj hlevels
      exact ⟨inner, outer, hrest, hq, fun m hm => hinner m (List.mem_cons_of_mem _ hm)⟩
  · -- `n` is declared and not private, so it does not end the way to what bars it
    rintro ⟨inner, outer, hlevels, hq, hinner⟩
    refine ⟨n :: inner, outer, ?_, hq, ?_⟩
    · rw [BinaryName.levels_of_enclosing? he, hlevels, List.cons_append]
    · intro m hm
      rcases List.mem_cons.1 hm with rfl | hm
      · exact ⟨hd, hn⟩
      · exact hinner m hm

end Registry

namespace Scope

variable {scope : Scope} {n q : BinaryName}

/-! ## Names that can be written -/

/-- The way outwards, from a type to the one that encloses it, and where it ends. Names are rendered
along it, so what holds of a rendered name is shown along it, too. -/
theorem renderName_induction (scope : Scope) {motive : BinaryName → Prop}
    (undeclared : ∀ n, scope.registry.lookup n = none → motive n)
    (topLevel : ∀ n, n.enclosing? = none → motive n)
    (hidden : ∀ n d e, scope.registry.lookup n = some d → n.enclosing? = some e →
      d.modifiers.isPrivate = true → motive n)
    (visible : ∀ n d e, scope.registry.lookup n = some d → n.enclosing? = some e →
      d.modifiers.isPrivate = false → motive e → motive n) (n : BinaryName) : motive n := by
  cases hd : scope.registry.lookup n with
  | none => exact undeclared n hd
  | some d =>
    cases he : n.enclosing? with
    | none => exact topLevel n he
    | some e =>
      cases hprivate : d.modifiers.isPrivate with
      | true => exact hidden n d e hd he hprivate
      | false =>
        have houter := renderName_induction scope undeclared topLevel hidden visible e
        exact visible n d e hd he hprivate houter
termination_by n.chars.length
decreasing_by exact BinaryName.length_enclosing?_lt he

/-- Whether a declared member type is private, as the renderer asks for it. -/
theorem isPrivateMember_iff {e : BinaryName} {d : Declaration}
    (hd : scope.registry.lookup n = some d) (he : n.enclosing? = some e) :
    scope.registry.IsPrivateMember n ↔ d.modifiers.isPrivate = true := by
  constructor
  · rintro ⟨-, d', hd', hprivate⟩
    obtain rfl := Option.some.inj (hd.symm.trans hd')
    exact hprivate
  · intro hprivate
    exact ⟨by simp [he], d, hd, hprivate⟩

/-- A name is not written exactly if something bars the way. -/
theorem renderName_eq_error_iff (scope : Scope) (n q : BinaryName) :
    scope.renderName n = .error (.inaccessibleMember q) ↔ scope.registry.Bars n q := by
  induction n using renderName_induction scope with
  | undeclared n hd =>
    rw [renderName_of_undeclared hd]
    exact iff_of_false (fun h => nomatch h) fun h => h.lookup_ne_none hd
  | topLevel n he =>
    rw [renderName_of_topLevel he]
    exact iff_of_false (fun h => nomatch h) (Registry.not_bars_of_topLevel he)
  | hidden n d e hd he hprivate =>
    -- what is private itself bars the way, and nothing is looked for further out
    have hmember := (isPrivateMember_iff hd he).2 hprivate
    rw [renderName_of_isPrivate hd he hprivate, Registry.bars_iff_of_isPrivateMember hmember]
    simp [eq_comm]
  | visible n d e hd he hprivate ih =>
    -- the way goes on outwards, and selecting the member adds no fault
    have hopen : ¬ scope.registry.IsPrivateMember n := by simp [isPrivateMember_iff hd he, hprivate]
    rw [renderName_of_not_isPrivate hd he hprivate,
      Registry.bars_iff_of_enclosing (by simp [hd]) hopen he, ← ih]
    cases scope.renderName e with
    | error f => exact Iff.rfl
    | ok text => exact iff_of_false (fun h => nomatch h) (fun h => nomatch h)

/-- A name that is written is written in full, level by level, or at once where the levels are not
known. -/
theorem canonical_of_renderName (hn : n.NestsLast) {text : String}
    (htext : scope.renderName n = .ok text) : text = n.canonical := by
  induction n using renderName_induction scope generalizing text with
  | undeclared n hd =>
    rw [renderName_of_undeclared hd] at htext
    exact (Except.ok.inj htext).symm
  | topLevel n he =>
    rw [renderName_of_topLevel he] at htext
    exact (Except.ok.inj htext).symm
  | hidden n d e hd he hprivate =>
    rw [renderName_of_isPrivate hd he hprivate] at htext
    cases htext
  | visible n d e hd he hprivate ih =>
    rw [renderName_of_not_isPrivate hd he hprivate] at htext
    obtain ⟨outer, houter, htext⟩ := Except.bind_eq_ok_iff.1 htext
    rw [BinaryName.canonical_of_enclosing? hn he, ← ih (hn.enclosing he) houter]
    exact (Except.ok.inj htext).symm

/-- A type cannot be named exactly if, among it and the types that enclose it, there is a private
member type and everything inside that one is declared; the fault names the innermost. In every
other case the name is the canonical one. -/
theorem renderName_outcome (scope : Scope) {n : BinaryName} (hn : n.NestsLast) :
    (∀ q, scope.renderName n = .error (.inaccessibleMember q) ↔ scope.registry.Bars n q) ∧
    ((∀ q, ¬ scope.registry.Bars n q) → scope.renderName n = .ok n.canonical) := by
  refine ⟨renderName_eq_error_iff scope n, fun hfree => ?_⟩
  cases hname : scope.renderName n with
  | error f =>
    obtain ⟨q, rfl⟩ := namingOnly_renderName n f hname
    exact absurd ((renderName_eq_error_iff scope n q).1 hname) (hfree q)
  | ok text => rw [canonical_of_renderName hn hname]

end Scope

/-! ## A type that is not declared inside a private one -/

namespace Concealed

def outer : Declaration := { name := ⟨"Outer"⟩, modifiers := .ofList [.publicAccess] }

/-- A private member type. -/
def hidden : Declaration := { name := ⟨"Outer$Hidden"⟩, modifiers := .ofList [.privateAccess] }

/-- A member type of the private one that is public itself. -/
def leaf : Declaration := { name := ⟨"Outer$Hidden$Leaf"⟩, modifiers := .ofList [.publicAccess] }

/-- The scope over `Outer`, `Hidden` and, if it is declared, `Leaf`. -/
def scope (leaves : List Declaration) : Scope := ⟨⟨outer :: hidden :: leaves⟩, .empty⟩

theorem enclosing?_leaf : leaf.name.enclosing? = some hidden.name := by decide

theorem isPrivateMember_hidden (leaves : List Declaration) :
    (scope leaves).registry.IsPrivateMember hidden.name := by
  have hmember : hidden.name.enclosing? = some outer.name := by decide
  have hlookup : (scope leaves).registry.lookup hidden.name = some hidden := rfl
  exact ⟨by simp [hmember], hidden, hlookup, by decide⟩

theorem renderName_outcome_of_leaf :
    leaf.name.NestsLast ∧ (scope [leaf]).registry.Bars leaf.name hidden.name ∧
    (scope [leaf]).renderName leaf.name = .error (.inaccessibleMember hidden.name) := by
  have hnests : leaf.name.NestsLast := by decide
  have hlookup : (scope [leaf]).registry.lookup leaf.name = some leaf := rfl
  have hopen : ¬ (scope [leaf]).registry.IsPrivateMember leaf.name := by
    rw [Scope.isPrivateMember_iff hlookup enclosing?_leaf]
    decide
  have hbars : (scope [leaf]).registry.Bars leaf.name hidden.name := by
    rw [Registry.bars_iff_of_enclosing (by simp [hlookup]) hopen enclosing?_leaf,
      Registry.bars_iff_of_isPrivateMember (isPrivateMember_hidden _)]
  exact ⟨hnests, hbars, ((Scope.renderName_outcome _ hnests).1 _).2 hbars⟩

/-- Without a declaration of `Leaf`, the private type that encloses it is passed by. -/
theorem renderName_beyond_hidden :
    leaf.name.NestsLast ∧ hidden.name ∈ leaf.name.levels ∧
    (scope []).registry.IsPrivateMember hidden.name ∧
    (∀ m ∈ leaf.name.levels, (scope []).registry.IsPrivateMember m → m = hidden.name) ∧
    (scope []).renderName leaf.name = .ok "Outer.Hidden.Leaf" := by
  have hmember : hidden.name.enclosing? = some outer.name := by decide
  have htop : outer.name.enclosing? = none := by decide
  have hlevels : leaf.name.levels = [leaf.name, hidden.name, outer.name] := by
    rw [BinaryName.levels_of_enclosing? enclosing?_leaf, BinaryName.levels_of_enclosing? hmember,
      BinaryName.levels_of_enclosing?_eq_none htop]
  have hundeclared : (scope []).registry.lookup leaf.name = none := rfl
  have hcanonical : leaf.name.canonical = "Outer.Hidden.Leaf" := by decide
  refine ⟨by decide, by simp [hlevels], isPrivateMember_hidden [], ?_, ?_⟩
  · intro m hm hprivate
    simp only [hlevels, List.mem_cons, List.not_mem_nil, or_false] at hm
    rcases hm with rfl | rfl | rfl
    · exact absurd hundeclared hprivate.lookup_ne_none
    · rfl
    · exact absurd htop hprivate.1
  · rw [Scope.renderName_of_undeclared hundeclared, hcanonical]

end Concealed

end StubGen
