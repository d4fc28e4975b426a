import StubGen.Toml.Scalar
import StubGen.Toml.Text
import StubGen.Toml.Tree

/-!
# Reading TOML

A TOML file is a sequence of lines: headers that open tables, and keys with their values. The
result is one table, or nothing if the file is not well formed.
-/

namespace StubGen.Toml

/-! ## Values -/

/-- The characters of a word; a date and a time may have one blank between them. -/
def word (s : List Char) : List Char × List Char :=
  let isWord (c : Char) := c.isAlphanum || c == '_' || c == '-' || c == '+' || c == '.' || c == ':'
  let (w, rest) := s.span isWord
  match rest with
  | ' ' :: t =>
    if (date? w == some []) && (digits 2 t).isSome then
      let (v, rest) := t.span isWord
      (w ++ ' ' :: v, rest)
    else (w, rest)
  | _ => (w, rest)

mutual

/-- A value, with `depth` lists and inline tables inside each other at most. -/
def value : Nat → Nat → Reader Document
  | 0, _, _ => none
  | n + 1, depth, s =>
    match s, depth with
    | '[' :: s, depth + 1 => do
      let (items, s) ← items n depth s
      return (.list items, s)
    | '{' :: s, depth + 1 => do
      let (es, s) ← inlineEntries n depth [] s
      return (.table (finishEntries es), s)
    | '"' :: _, _ | '\'' :: _, _ => do
      let (t, s) ← string s
      return (.text t, s)
    | s, _ => do
      let (w, s) := word s
      return (← scalar? w, s)

/-- The rest of a list. -/
def items : Nat → Nat → Reader (List Document)
  | 0, _, _ => none
  | n + 1, depth, s =>
    match skipTrivia s.length s with
    | ']' :: s => some ([], s)
    | s => do
      let (d, s) ← value n depth s
      match skipTrivia s.length s with
      | ',' :: s =>
        let (ds, s) ← items n depth s
        return (d :: ds, s)
      | ']' :: s => return ([d], s)
      | _ => none

/-- The rest of an inline table, after the entries in `es`; lines may end between its words. -/
def inlineEntries : Nat → Nat → Entries → Reader Entries
  | 0, _, _, _ => none
  | n + 1, depth, es, s =>
    match skipTrivia s.length s with
    | '}' :: s => some (es, s)
    | s => do
      let (k, s) ← key s
      let s ← expect '=' (skipTrivia s.length s)
      let (d, s) ← value n depth (skipTrivia s.length s)
      let es ← es.assign d true k
      match skipTrivia s.length s with
      | ',' :: s => inlineEntries n depth es s
      | '}' :: s => return (es, s)
      | _ => none

end

/-! ## Lines -/

/-- A file while it is read: its tables, and the path of the table that is open. -/
structure State where
  root : Entries := []
  current : List String := []

/-- A header that opens a table. -/
def tableHeader (st : State) (s : List Char) : Option (State × List Char) := do
  let (path, s) ← key s
  let s ← expect ']' (skipSpace s)
  return (⟨← st.root.openTable path, path⟩, s)

/-- A header that opens a further table of a list. -/
def itemHeader (st : State) (s : List Char) : Option (State × List Char) := do
  let (path, s) ← key s
  let s ← expect ']' (← expect ']' (skipSpace s))
  return (⟨← st.root.openItem path, path⟩, s)

/-- A key with its value. -/
def keyValue (st : State) (s : List Char) : Option (State × List Char) := do
  let (path, s) ← key s
  let s := skipSpace (← expect '=' (skipSpace s))
  let (d, s) ← value (s.length + 1) maxDepth s
  return ({ st with root := ← st.root.within (·.assign d true path) st.current }, s)

/-- The remaining lines of a file. -/
def lines : Nat → State → List Char → Option State
  | 0, _, _ => none
  | n + 1, st, s =>
    match skipTrivia (s.length + 1) s with
    | [] => some st
    | s => do
      let (st, s) ←
        match s with
        | '[' :: '[' :: s => itemHeader st s
        | '[' :: s => tableHeader st s
        | s => keyValue st s
      lines n st (← endOfLine? s)

/-- Reads a file; a byte order mark may come first. -/
def read (text : String) : Option Document := do
  let s :=
    match text.toList with
    | '\ufeff' :: s => s
    | s => s
  let st ← lines (s.length + 1) {} s
  return .table (finishEntries st.root)

end StubGen.Toml
