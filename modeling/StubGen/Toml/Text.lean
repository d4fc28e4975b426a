/-!
# The characters of a TOML file

Blanks, comments, line ends, keys and strings. A reader takes the characters that are left and gives
what it read with the characters after it, or nothing if the text is not well formed. Readers that
loop take a bound on the number of rounds, for which the number of characters is always enough.
-/

namespace StubGen.Toml

/-- A reader of `α` from characters. -/
abbrev Reader (α : Type) := List Char → Option (α × List Char)

def isSpace (c : Char) : Bool := c == ' ' || c == '\t'

/-- Control characters stand neither in comments nor in strings; the tabulator does not count. -/
def isControl (c : Char) : Bool := (c.toNat < 0x20 && c != '\t') || c.toNat == 0x7F

def skipSpace (s : List Char) : List Char := s.dropWhile isSpace

/-- The text after a line end. -/
def newline? : List Char → Option (List Char)
  | '\n' :: s | '\r' :: '\n' :: s => some s
  | _ => none

/-- The text after a comment, if there is one. -/
def skipComment : List Char → List Char
  | '#' :: s => s.dropWhile fun c => !isControl c
  | s => s

/-- The text after the rest of a line that says nothing more. -/
def endOfLine? (s : List Char) : Option (List Char) :=
  match skipComment (skipSpace s) with
  | [] => some []
  | s => newline? s

/-- The text after blanks, comments and line ends. -/
def skipTrivia : Nat → List Char → List Char
  | 0, s => s
  | n + 1, s =>
    let s := skipComment (skipSpace s)
    match newline? s with
    | some s => skipTrivia n s
    | none => s

/-- The text after blanks and line ends. -/
def skipBlankLines : List Char → List Char
  | '\r' :: '\n' :: s => skipBlankLines s
  | c :: s => if isSpace c || c == '\n' then skipBlankLines s else c :: s
  | [] => []

/-! ## Strings -/

def hexDigit? (c : Char) : Option Nat :=
  if '0' ≤ c ∧ c ≤ '9' then some (c.toNat - 48)
  else if 'a' ≤ c ∧ c ≤ 'f' then some (c.toNat - 87)
  else if 'A' ≤ c ∧ c ≤ 'F' then some (c.toNat - 55)
  else none

/-- The character whose code point is written with `n` hexadecimal digits. -/
def codePoint (n : Nat) : Reader Char := fun s => do
  let digits ← (s.take n).mapM hexDigit?
  guard (digits.length = n)
  let code := digits.foldl (fun a d => 16 * a + d) 0
  guard code.isValidChar
  return (Char.ofNat code, s.drop n)

/-- The character that an escape stands for; the backslash has been read. -/
def escape : Reader Char
  | 'b' :: s => some ('\x08', s)
  | 't' :: s => some ('\t', s)
  | 'n' :: s => some ('\n', s)
  | 'f' :: s => some ('\x0c', s)
  | 'r' :: s => some ('\r', s)
  | 'e' :: s => some ('\x1b', s)
  | '"' :: s => some ('"', s)
  | '\\' :: s => some ('\\', s)
  | 'x' :: s => codePoint 2 s
  | 'u' :: s => codePoint 4 s
  | 'U' :: s => codePoint 8 s
  | _ => none

/-- A string on one line; the opening quote has been read. -/
def basicString : Nat → Reader (List Char)
  | 0, _ => none
  | n + 1, s =>
    match s with
    | [] => none
    | '"' :: s => some ([], s)
    | '\\' :: s => do
      let (c, s) ← escape s
      let (t, s) ← basicString n s
      return (c :: t, s)
    | c :: s => do
      guard !isControl c
      let (t, s) ← basicString n s
      return (c :: t, s)

/-- A string without escapes on one line; the opening quote has been read. -/
def literalString (s : List Char) : Option (List Char × List Char) :=
  match s.span fun c => c != '\'' && !isControl c with
  | (t, '\'' :: s) => some (t, s)
  | _ => none

/-- A run of quotes inside a string that three quotes end: the quotes that belong to the string,
and whether the string ends. -/
def closingQuotes (run : Nat) : Option (Nat × Bool) :=
  if run < 3 then some (run, false) else if run ≤ 5 then some (run - 3, true) else none

/-- Whether a character may stand in a string over several lines, before the text `rest`: a carriage
return only as a part of a line end. -/
def isLongStringChar (c : Char) (rest : List Char) : Bool :=
  !isControl c || c == '\n' || (c == '\r' && rest.head? == some '\n')

/-- A string over several lines; the opening quotes have been read. Line ends stay as they are
written, except after a backslash, which takes them and the blanks around them away. -/
def longString (quote : Char) (hasEscapes : Bool) : Nat → Reader (List Char)
  | 0, _ => none
  | n + 1, s =>
    match s with
    | [] => none
    | c :: rest =>
      if c = quote then do
        let (quotes, s) := s.span (· == quote)
        let (kept, isClosed) ← closingQuotes quotes.length
        if isClosed then return (List.replicate kept quote, s)
        else
          let (t, s) ← longString quote hasEscapes n s
          return (quotes ++ t, s)
      else if c = '\\' ∧ hasEscapes then
        match newline? (skipSpace rest) with
        | some s => longString quote hasEscapes n (skipBlankLines s)
        | none => do
          let (c, s) ← escape rest
          let (t, s) ← longString quote hasEscapes n s
          return (c :: t, s)
      else do
        guard (isLongStringChar c rest)
        let (t, s) ← longString quote hasEscapes n rest
        return (c :: t, s)

/-- A string of any form. -/
def string : Reader String
  | '"' :: '"' :: '"' :: s => do
    let (t, s) ← longString '"' true (s.length + 1) ((newline? s).getD s)
    return (String.ofList t, s)
  | '\'' :: '\'' :: '\'' :: s => do
    let (t, s) ← longString '\'' false (s.length + 1) ((newline? s).getD s)
    return (String.ofList t, s)
  | '"' :: s => do
    let (t, s) ← basicString (s.length + 1) s
    return (String.ofList t, s)
  | '\'' :: s => do
    let (t, s) ← literalString s
    return (String.ofList t, s)
  | _ => none

/-! ## Keys -/

def isBareKeyChar (c : Char) : Bool := c.isAlphanum || c == '_' || c == '-'

/-- One part of a key; the quotes of a quoted part stay on its line. -/
def keyPart : Reader String
  | '"' :: s => do
    let (t, s) ← basicString (s.length + 1) s
    return (String.ofList t, s)
  | '\'' :: s => do
    let (t, s) ← literalString s
    return (String.ofList t, s)
  | s => do
    let (t, s) := s.span isBareKeyChar
    guard !t.isEmpty
    return (String.ofList t, s)

/-- Parts with dots between them. -/
def keyParts : Nat → Reader (List String)
  | 0, _ => none
  | n + 1, s => do
    let (p, s) ← keyPart (skipSpace s)
    match skipSpace s with
    | '.' :: s =>
      let (ps, s) ← keyParts n s
      return (p :: ps, s)
    | s => return ([p], s)

/-- How many parts a key may have, and how many lists and inline tables may stand inside each
other. -/
def maxDepth : Nat := 80

/-- A key: parts with dots between them, not too many. -/
def key (s : List Char) : Option (List String × List Char) := do
  let (parts, s) ← keyParts s.length s
  guard (parts.length ≤ maxDepth)
  return (parts, s)

end StubGen.Toml
