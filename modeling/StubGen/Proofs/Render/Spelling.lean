import StubGen.Proofs.Except
import StubGen.Proofs.Render.Naming
import StubGen.Proofs.TypeRef

/-!
# What a text says about a reference

A reference in source text no longer says who owns a variable, whether a name belongs to a variable
or to a type, and where the packages of a type end. A wildcard with the upper bound of every type is
written as one without bounds. All else is its spelling, and the text follows from that.

Main results:

* `Scope.renderResolved_of_names` — a reference is written if its names are;
* `Scope.text_of_renderResolved` — and whenever it is written, it is written as its spelling.
-/

namespace StubGen

/-- A reference as source text shows it. -/
inductive Spelling
  /-- The name of a variable, or of a type with dots between all its parts. -/
  | name (text : String)
  | array (component : Spelling)
  /-- A wildcard that says nothing. -/
  | anything
  | wildcard (kind : BoundKind) (bounds : List Spelling)
  | parameterized (raw : String) (args : List Spelling)
deriving Inhabited

namespace Spelling

mutual

def text : Spelling → String
  | name text => text
  | array c => c.text ++ "[]"
  | anything => "?"
  | wildcard kind bounds => "? " ++ kind.word ++ " " ++ " & ".intercalate (textAll bounds)
  | parameterized raw args => raw ++ "<" ++ ", ".intercalate (textAll args) ++ ">"

def textAll : List Spelling → List String
  | [] => []
  | s :: ss => s.text :: textAll ss

end

end Spelling

namespace TypeRef

mutual

/-- The reference without what its text does not show. -/
def spelling : TypeRef → Spelling
  | named n => .name n.canonical
  | array c => .array c.spelling
  | var v => .name v.name
  | wildcard kind bounds =>
    if Scope.isUnbounded kind bounds then .anything else .wildcard kind (spellingAll bounds)
  | parameterized raw args => .parameterized raw.canonical (spellingAll args)

def spellingAll : List TypeRef → List Spelling
  | [] => []
  | t :: ts => t.spelling :: spellingAll ts

end

theorem spellingAll_eq_map (ts : List TypeRef) : spellingAll ts = ts.map spelling := by
  induction ts with
  | nil => rfl
  | cons t ts ih => rw [spellingAll, ih, List.map_cons]

end TypeRef

/-! ## References that can be written -/

/-- A character that may occur in a name: not one that structures a text. -/
def isNameChar (c : Char) : Bool := !" <>,?&[]".toList.contains c

/-- A text that can stand for a name. -/
def IsName (text : String) : Prop := text ≠ "" ∧ text.toList.all isNameChar = true

instance : DecidablePred IsName := fun text =>
  inferInstanceAs (Decidable (text ≠ "" ∧ text.toList.all isNameChar = true))

/-- A name of a type, with member types behind the packages. -/
structure BinaryName.IsTypeName (n : BinaryName) : Prop where
  isName : IsName n.text
  nestsLast : n.NestsLast

theorem BinaryName.IsTypeName.canonical {n : BinaryName} (h : n.IsTypeName) :
    IsName n.canonical := by
  obtain ⟨⟨hne, hchars⟩, -⟩ := h
  constructor
  · intro hempty
    rw [← String.toList_inj, toList_canonical, String.toList_empty, List.map_eq_nil_iff] at hempty
    exact hne (String.toList_inj.1 hempty)
  · rw [List.all_eq_true] at hchars ⊢
    intro c hc
    rw [toList_canonical] at hc
    obtain ⟨x, hx, rfl⟩ := List.mem_map.1 hc
    split
    · decide
    · exact hchars x hx

namespace TypeRef

/-- Where a reference stands. -/
inductive Position
  | whole
  /-- Among the arguments of a generic type. -/
  | argument
deriving DecidableEq

/-- A reference that has a text: its names are names, and wildcards stand only for arguments. -/
inductive Written : Position → TypeRef → Prop
  | named {p : Position} {n : BinaryName} (hn : n.IsTypeName) : Written p (.named n)
  | array {p : Position} {c : TypeRef} (hc : Written .whole c) : Written p (.array c)
  | var {p : Position} {v : TypeVar} (hv : IsName v.name) : Written p (.var v)
  | parameterized {p : Position} {raw : BinaryName} {args : List TypeRef} (hraw : raw.IsTypeName)
      (hargs : ∀ a ∈ args, Written .argument a) : Written p (.parameterized raw args)
  | wildcard {kind : BoundKind} {bounds : List TypeRef} (hbounds : ∀ b ∈ bounds, Written .whole b) :
      Written .argument (.wildcard kind bounds)

end TypeRef

namespace Scope

variable {scope : Scope} {t : TypeRef} {p : TypeRef.Position}

mutual

/-- A reference is written as its spelling if all its names are written in full. The proof goes
through the reference as rendering does, with the references inside it one after the other. -/
theorem renderResolved_of_names : ∀ {t : TypeRef},
    (∀ n ∈ t.names, scope.renderName n = .ok n.canonical) →
      scope.renderResolved t = .ok t.spelling.text
  | .named n, h => by
    rw [renderResolved]
    exact h n (List.mem_singleton.2 rfl)
  | .array c, h => by
    have hc : scope.renderResolved c = .ok c.spelling.text := renderResolved_of_names h
    rw [renderResolved, hc]
    rfl
  | .var v, _ => by
    rw [renderResolved]
    rfl
  | .wildcard kind bounds, h => by
    have hbounds : scope.renderAll bounds = .ok (Spelling.textAll (TypeRef.spellingAll bounds)) :=
      renderAll_of_names h
    rw [renderResolved, TypeRef.spelling]
    split
    · rfl
    · rw [hbounds]
      rfl
  | .parameterized raw args, h => by
    have hargs : scope.renderAll args = .ok (Spelling.textAll (TypeRef.spellingAll args)) :=
      renderAll_of_names fun n hn => h n (List.mem_cons_of_mem _ hn)
    rw [renderResolved, hargs, h raw List.mem_cons_self]
    rfl

theorem renderAll_of_names : ∀ {ts : List TypeRef},
    (∀ n ∈ TypeRef.namesAll ts, scope.renderName n = .ok n.canonical) →
      scope.renderAll ts = .ok (Spelling.textAll (TypeRef.spellingAll ts))
  | [], _ => by
    rw [renderAll]
    rfl
  | t :: ts, h => by
    have ht : scope.renderResolved t = .ok t.spelling.text :=
      renderResolved_of_names fun n hn => h n (List.mem_append_left _ hn)
    have hts : scope.renderAll ts = .ok (Spelling.textAll (TypeRef.spellingAll ts)) :=
      renderAll_of_names fun n hn => h n (List.mem_append_right _ hn)
    rw [renderAll, ht, hts]
    rfl

end

theorem texts_of_renderAll {ts : List TypeRef}
    (h : ∀ t ∈ ts, ∀ text, scope.renderResolved t = .ok text → text = t.spelling.text)
    {texts : List String} (htexts : scope.renderAll ts = .ok texts) :
    texts = Spelling.textAll (TypeRef.spellingAll ts) := by
  induction ts generalizing texts with
  | nil =>
    rw [renderAll] at htexts
    exact (Except.ok.inj htexts).symm
  | cons t ts ih =>
    rw [renderAll] at htexts
    obtain ⟨text, ht, htexts⟩ := Except.bind_eq_ok_iff.1 htexts
    obtain ⟨rest, hts, htexts⟩ := Except.bind_eq_ok_iff.1 htexts
    have hrest := ih (fun u hu => h u (List.mem_cons_of_mem _ hu)) hts
    rw [TypeRef.spellingAll, Spelling.textAll, ← h t List.mem_cons_self text ht, ← hrest]
    exact (Except.ok.inj htexts).symm

/-- Whatever is declared, a reference that can be written is written as its spelling. No part of it
is written if a name in it is at fault, so from the text of the whole come those of its parts. -/
theorem text_of_renderResolved (ht : t.Written p) {text : String}
    (htext : scope.renderResolved t = .ok text) : text = t.spelling.text := by
  induction ht generalizing text with
  | named hn =>
    rw [renderResolved] at htext
    exact canonical_of_renderName hn.nestsLast htext
  | array _ ih =>
    rw [renderResolved] at htext
    obtain ⟨component, hc, htext⟩ := Except.bind_eq_ok_iff.1 htext
    rw [TypeRef.spelling, Spelling.text, ← ih hc]
    exact (Except.ok.inj htext).symm
  | var hv =>
    rw [renderResolved] at htext
    exact (Except.ok.inj htext).symm
  | parameterized hraw _ ih =>
    rw [renderResolved] at htext
    obtain ⟨texts, hargs, htext⟩ := Except.bind_eq_ok_iff.1 htext
    obtain ⟨name, hname, htext⟩ := Except.bind_eq_ok_iff.1 htext
    rw [TypeRef.spelling, Spelling.text, ← texts_of_renderAll (fun a ha _ => ih a ha) hargs,
      ← canonical_of_renderName hraw.nestsLast hname]
    exact (Except.ok.inj htext).symm
  | wildcard _ ih =>
    rw [renderResolved] at htext
    rw [TypeRef.spelling]
    split at htext
    · rename_i hunbounded
      rw [if_pos hunbounded]
      exact (Except.ok.inj htext).symm
    · -- a wildcard with bounds is written with all of them
      rename_i hbounded
      obtain ⟨texts, hbounds, htext⟩ := Except.bind_eq_ok_iff.1 htext
      rw [if_neg hbounded, Spelling.text, ← texts_of_renderAll (fun b hb _ => ih b hb) hbounds]
      exact (Except.ok.inj htext).symm

end Scope

end StubGen
