import StubGen.Text.Split

/-!
# Binary names of declared types

A binary name such as `com.acme.Outer$Inner` puts `.` between the packages and `$` between a member
type and the type that encloses it. The package, the simple name and the enclosing type are read off
the name itself, for any text at all, well formed or not.

Main results:

* `length_enclosing?_lt` — the enclosing type has a shorter name, so walking outwards ends.
-/

namespace StubGen

/-- The name of a type as class files spell it. -/
structure BinaryName where
  text : String
deriving DecidableEq, Hashable, Inhabited

namespace BinaryName

/-- The names of the primitive types and `void`. -/
def primitives : List String :=
  ["boolean", "byte", "short", "char", "int", "long", "float", "double", "void"]

/-- The class every other class extends. -/
def object : BinaryName := ⟨"java.lang.Object"⟩

/-- The class every enumeration extends. -/
def enum : BinaryName := ⟨"java.lang.Enum"⟩

/-- The name `void`. -/
def void : BinaryName := ⟨"void"⟩

/-- The characters of a name. -/
def chars (n : BinaryName) : List Char := n.text.toList

def isEmpty (n : BinaryName) : Bool := n.text == ""

def isPrimitive (n : BinaryName) : Bool := primitives.contains n.text

def isVoid (n : BinaryName) : Bool := n == void

def isBoolean (n : BinaryName) : Bool := n.text == "boolean"

def isObject (n : BinaryName) : Bool := n == object

/-- The part of the name before any member type. -/
def topLevel (n : BinaryName) : List Char :=
  match Text.splitFirst? '$' n.chars with
  | some (p, _) => p
  | none => n.chars

/-- The package of the top-level type; empty for the unnamed package. -/
def package (n : BinaryName) : String :=
  match Text.splitLast? '.' n.topLevel with
  | some (p, _) => String.ofList p
  | none => ""

/-- The text after the last `c`, or all of it. -/
def afterLast (c : Char) (s : List Char) : List Char :=
  match Text.splitLast? c s with
  | some (_, q) => q
  | none => s

/-- The name without its package and its enclosing types. -/
def simpleName (n : BinaryName) : String :=
  String.ofList (afterLast '.' (afterLast '$' n.chars))

/-- The type that directly encloses a member type. -/
def enclosing? (n : BinaryName) : Option BinaryName :=
  (Text.splitLast? '$' n.chars).map fun (p, _) => ⟨String.ofList p⟩

/-- The spelling in source text, where member types are selected with `.` too. -/
def canonical (n : BinaryName) : String :=
  String.ofList (n.chars.map fun c => if c = '$' then '.' else c)

/-- The member type's name is its enclosing type's name, a `$` and a part without `$`. -/
theorem enclosing?_eq_some_iff {n e : BinaryName} :
    n.enclosing? = some e ↔ ∃ q, n.chars = e.chars ++ '$' :: q ∧ '$' ∉ q := by
  simp only [enclosing?, Option.map_eq_some_iff, Prod.exists, Text.splitLast?_eq_some_iff]
  constructor
  · rintro ⟨p, q, h, rfl⟩
    exact ⟨q, by simpa [chars] using h⟩
  · rintro ⟨q, h⟩
    exact ⟨e.chars, q, h, by simp [chars]⟩

theorem length_enclosing?_lt {n e : BinaryName} (h : n.enclosing? = some e) :
    e.chars.length < n.chars.length := by
  obtain ⟨q, hq, -⟩ := enclosing?_eq_some_iff.1 h
  simp only [hq, List.length_append, List.length_cons]
  omega

end BinaryName

end StubGen
