import StubGen.Metadata.Document

/-!
# Building the tables of a TOML file

A file names its tables piecemeal, by headers and by keys with dots, and a table remembers how it
came about, because that decides what may still be added to it. A table that only lies on the way to
another may get a header of its own once; one that has a header, or that keys with dots have made,
may not; inline values are complete.
-/

namespace StubGen.Toml

/-- How a table came about. -/
inductive Origin
  /-- It lies on the way to a table with a header. -/
  | passing
  | header
  /-- Keys with dots made it. -/
  | dotted
deriving DecidableEq, Inhabited

/-- A value while the file is read. -/
inductive Node
  | leaf (d : Document)
  | table (origin : Origin) (entries : List (String × Node))
  /-- Tables with one header in double brackets each. -/
  | tables (items : List (List (String × Node)))
deriving Inhabited

/-- The entries of a table while the file is read. -/
abbrev Entries := List (String × Node)

namespace Entries

/-- The entries with one entry set. -/
def set (key : String) (node : Node) : Entries → Entries
  | [] => [(key, node)]
  | (k, n) :: es => if k = key then (k, node) :: es else (k, n) :: set key node es

/-- Changes the table that `key` leads to; `absent` is the origin of a table that is not there. -/
def updateTable (key : String) (absent : Option Origin) (f : Entries → Option Entries)
    (es : Entries) : Option Entries :=
  match es.lookup key with
  | none => do
    let origin ← absent
    return es.set key (.table origin (← f []))
  | some (.table origin sub) => do return es.set key (.table origin (← f sub))
  | some (.tables items) =>
    match items.getLast? with
    | some last => do return es.set key (.tables (items.dropLast ++ [← f last]))
    | none => none
  | some (.leaf _) => none

/-- Opens the table of a header. -/
def openTable : List String → Entries → Option Entries
  | [], _ => none
  | [k], es =>
    match es.lookup k with
    | none => some (es.set k (.table .header []))
    | some (.table .passing sub) => some (es.set k (.table .header sub))
    | _ => none
  | k :: ks, es => updateTable k (some .passing) (openTable ks) es

/-- Opens a further table of a header in double brackets. -/
def openItem : List String → Entries → Option Entries
  | [], _ => none
  | [k], es =>
    match es.lookup k with
    | none => some (es.set k (.tables [[]]))
    | some (.tables items) => some (es.set k (.tables (items ++ [[]])))
    | _ => none
  | k :: ks, es => updateTable k (some .passing) (openItem ks) es

/-- Gives a key its value, in a table that takes values only if it is open. A key with dots goes
through tables without a header of their own and through the last table of a list, but it adds its
value only to a table that keys with dots have made. -/
def assign (value : Document) (isOpen : Bool) : List String → Entries → Option Entries
  | [], _ => none
  | [k], es =>
    match es.lookup k with
    | none => if isOpen then some (es.set k (.leaf value)) else none
    | some _ => none
  | k :: ks, es =>
    match es.lookup k with
    | none | some (.table .dotted _) => updateTable k (some .dotted) (assign value true ks) es
    | some (.table .passing _) | some (.tables _) => updateTable k none (assign value false ks) es
    | some (.table .header _) | some (.leaf _) => none

/-- Changes the table at a path of headers. -/
def within (f : Entries → Option Entries) : List String → Entries → Option Entries
  | [], es => f es
  | k :: ks, es => updateTable k none (within f ks) es

end Entries

mutual

/-- The finished value of a node. -/
def Node.finish : Node → Document
  | .leaf d => d
  | .table _ es => .table (finishEntries es)
  | .tables items => .list (finishItems items)

/-- The finished entries of a table, in ascending order. -/
def finishEntries : List (String × Node) → List (String × Document)
  | [] => []
  | (k, n) :: es => Document.setEntry k (Node.finish n) (finishEntries es)

/-- The finished tables of a header in double brackets. -/
def finishItems : List (List (String × Node)) → List Document
  | [] => []
  | es :: rest => .table (finishEntries es) :: finishItems rest

end

end StubGen.Toml
