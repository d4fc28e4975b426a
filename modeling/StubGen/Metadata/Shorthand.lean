import StubGen.Text.Blank
import StubGen.TypeRef

/-!
# Shorthand type references

A plain type is written as its name, with `[]` once for every array dimension. Blanks are allowed
around the name and before each `[]`. A name with `<`, `>` or `?` is no plain name; such types have
to be written out as tables.
-/

namespace StubGen

/-- Why a document has no meaning. -/
inductive DecodeError
  /-- The document is not well formed, or not of the expected shape. -/
  | malformed
  | unknownModifier (keyword : String)
  /-- A shorthand with a character that only generic types have. -/
  | notPlainName (text : String)
  /-- A wildcard with a lower bound names no bound. -/
  | boundlessLower
deriving DecidableEq, Inhabited

namespace DecodeError

/-- The explanation of an error, where there is more to say than that the shape is wrong. -/
def explanation? : DecodeError → Option String
  | malformed => none
  | unknownModifier k => some ("unknown modifier `" ++ k ++ "`")
  | notPlainName t =>
    some ("`" ++ t ++ "` is not a plain type name; spell generic types as a table with " ++
      "`kind = \"parameterized\"` or `kind = \"wildcard\"`")
  | boundlessLower => some "a lower-bounded wildcard needs at least one bound"

end DecodeError

namespace Shorthand

theorem length_dropWhile_le (p : Char → Bool) (s : List Char) :
    (s.dropWhile p).length ≤ s.length := by
  induction s with
  | nil => simp
  | cons c s ih =>
    simp only [List.dropWhile_cons]
    split
    · simp only [List.length_cons]; omega
    · exact Nat.le_refl _

/-- Takes the dimensions off a shorthand: what is left, and how many there were. The argument and
the first result are written backwards. -/
def stripDimensions : List Char → List Char × Nat
  | ']' :: '[' :: s =>
    let (base, n) := stripDimensions (s.dropWhile Text.isBlank)
    (base, n + 1)
  | s => (s, 0)
termination_by s => s.length
decreasing_by
  have := length_dropWhile_le Text.isBlank s
  simp only [List.length_cons]
  omega

/-- The name and the number of dimensions of a shorthand. -/
def split (text : List Char) : List Char × Nat :=
  let (base, n) := stripDimensions (Text.trim text).reverse
  (base.reverse, n)

/-- The characters that only the written form of a generic type has. -/
def isGeneric (c : Char) : Bool := c == '<' || c == '>' || c == '?'

/-- Reads a shorthand. -/
def read (text : String) : Except DecodeError TypeRef :=
  let (base, n) := split text.toList
  if base.any isGeneric then .error (.notPlainName text)
  else .ok (TypeRef.ofDimensions (.named ⟨String.ofList base⟩) n)

end Shorthand

end StubGen
