import StubGen.BinaryName
import StubGen.Text.Category

/-!
# The grammar of declared names

A declared name is a list of identifiers between dots. An identifier starts with a letter, `_` or
`$` and goes on with letters, numbers, `_` and `$`.
-/

namespace StubGen.BinaryName

/-- The characters an identifier may start with. -/
def isIdentifierStart (c : Char) : Bool := c == '_' || c == '$' || Text.isLetter c

/-- The characters an identifier may go on with. -/
def isIdentifierPart (c : Char) : Bool := isIdentifierStart c || Text.isNumber c

def isIdentifier : List Char → Bool
  | [] => false
  | c :: cs => isIdentifierStart c && cs.all isIdentifierPart

/-- A dotted list of identifiers. -/
def isWellFormed (n : BinaryName) : Bool := (Text.pieces '.' n.chars).all isIdentifier

end StubGen.BinaryName
