/-!
# Documents

Metadata and settings arrive as documents: trees of texts, truth values, numbers, lists and tables.
Both the configuration language of the files and the requests of other programs are read into this
one type. A decoder has to know which of the two it reads, because files are held to slightly
different rules.
-/

namespace StubGen

/-- Where a document comes from. -/
inductive Dialect
  /-- A file in the configuration language. -/
  | file
  /-- A request of another program. -/
  | message
deriving DecidableEq, Inhabited

/-- How large a number is. -/
inductive Magnitude
  /-- A fraction, or a whole number of 64 bits. -/
  | ordinary
  /-- A whole number of 128 bits. -/
  | wide
  /-- A number that no machine number holds. -/
  | excessive
deriving DecidableEq, Inhabited

/-- A value as a document holds it, before it is given a meaning. -/
inductive Document
  /-- The absence of a value. -/
  | null
  | flag (b : Bool)
  /-- A number without sign. -/
  | natural (n : Nat)
  /-- A number of any other kind, which no field of a record accepts. -/
  | number (size : Magnitude)
  | text (s : String)
  | list (items : List Document)
  /-- A table; its entries are in ascending order of their keys. -/
  | table (entries : List (String × Document))
deriving Inhabited

namespace Document

/-- The entries of a table with one entry set, in ascending order of their keys. -/
def setEntry (key : String) (value : Document) :
    List (String × Document) → List (String × Document)
  | [] => [(key, value)]
  | (k, v) :: rest =>
    if key = k then (key, value) :: rest
    else if key < k then (key, value) :: (k, v) :: rest
    else (k, v) :: setEntry key value rest

mutual

/-- Whether the document holds only numbers of the sizes that `fits` admits. -/
def numbersFit (fits : Magnitude → Bool) : Document → Bool
  | number size => fits size
  | list items => itemsFit fits items
  | table entries => entriesFit fits entries
  | null | flag _ | natural _ | text _ => true

/-- Whether the items hold only numbers of the sizes that `fits` admits. -/
def itemsFit (fits : Magnitude → Bool) : List Document → Bool
  | [] => true
  | d :: ds => d.numbersFit fits && itemsFit fits ds

/-- Whether the entries hold only numbers of the sizes that `fits` admits. -/
def entriesFit (fits : Magnitude → Bool) : List (String × Document) → Bool
  | [] => true
  | (_, d) :: es => d.numbersFit fits && entriesFit fits es

end

/-- Whether every number is a machine number, so that a record may ignore the document. -/
def isReadable (d : Document) : Bool := d.numbersFit (· != .excessive)

/-- Whether every number is ordinary, so that the document may be part of a reference. -/
def isOrdinary (d : Document) : Bool := d.numbersFit (· == .ordinary)

end Document

end StubGen
