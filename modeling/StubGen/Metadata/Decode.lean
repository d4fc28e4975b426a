import StubGen.Declaration
import StubGen.Metadata.Document
import StubGen.Metadata.Shorthand

/-!
# Decoding declarations

What a document says about a declared type. A record is a table, whose unknown entries are ignored,
or the list of its fields in order; in a file such a list may go on after the last field, in a
message it may not. Absent fields have defaults, except the names. A type reference is a shorthand
or a table tagged by its `kind`; the tag may also be given by number, and the tagged table may be a
list that starts with its tag.

A number has no place in a record, but it has to be a machine number wherever a record looks at it,
be it only to ignore it. References are stricter still and admit no number of more than 64 bits.

An error inside a tagged table loses its explanation, because the table then has no meaning as a
reference at all.
-/

namespace StubGen

namespace Decode

/-! ## Plain values -/

def text : Document → Except DecodeError String
  | .text s => .ok s
  | _ => .error .malformed

def flag : Document → Except DecodeError Bool
  | .flag b => .ok b
  | _ => .error .malformed

/-- A list of values that `item` reads. -/
def list {α : Type} (item : Document → Except DecodeError α) :
    Document → Except DecodeError (List α)
  | .list items => items.mapM item
  | _ => .error .malformed

/-- A value that may be absent. -/
def optional {α : Type} (item : Document → Except DecodeError α) :
    Document → Except DecodeError (Option α)
  | .null => .ok none
  | d => some <$> item d

/-- How the absence of further parts is written: a message has a value for it, and a file leaves a
list or a table empty. -/
def isUnit : Dialect → Document → Bool
  | .message, .null | .file, .list [] | .file, .table [] => true
  | _, _ => false

/-- A word out of a fixed list, by itself or as the key of a table that says nothing else. -/
def word (dialect : Dialect) : Document → Except DecodeError String
  | .text s => .ok s
  | .table [(s, d)] => if isUnit dialect d then .ok s else .error .malformed
  | _ => .error .malformed

def path (d : Document) : Except DecodeError FilePath := FilePath.mk <$> text d

def name (d : Document) : Except DecodeError BinaryName := BinaryName.mk <$> text d

def owner (d : Document) : Except DecodeError VarOwner := VarOwner.parse <$> text d

def kind (dialect : Dialect) (d : Document) : Except DecodeError TypeKind := do
  let w ← word dialect d
  match TypeKind.all.find? fun k => k.keyword == w with
  | some k => return k
  | none => throw .malformed

def modifiers (d : Document) : Except DecodeError Modifiers := do
  let keywords ← list text d
  let ms ← keywords.mapM fun k =>
    match Modifier.ofKeyword? k with
    | some m => .ok m
    | none => .error (.unknownModifier k)
  return .ofList ms

/-! ## Type references -/

/-- The forms of a tagged reference. -/
inductive Tag
  | named
  | array
  | variable
  | wildcard
  | parameterized
deriving DecidableEq, Inhabited

namespace Tag

/-- The tags in the order of their numbers. -/
def all : List Tag := [named, array, .variable, wildcard, parameterized]

def keyword : Tag → String
  | named => "named"
  | array => "array"
  | .variable => "variable"
  | wildcard => "wildcard"
  | parameterized => "parameterized"

/-- Reads a tag, by name or by number. -/
def read? : Document → Option Tag
  | .text s => all.find? fun t => t.keyword == s
  | .natural n => all[n]?
  | _ => none

end Tag

def boundKind : Document → Except DecodeError BoundKind
  | .text "upper" | .table [("upper", .null)] | .table [("upper", .table [])] => .ok .upper
  | .text "lower" | .table [("lower", .null)] | .table [("lower", .table [])] => .ok .lower
  | _ => .error .malformed

/-- What a tagged table says, under every tag it might have. -/
structure TaggedParts where
  name : Except DecodeError String := .error .malformed
  owner : Except DecodeError VarOwner := .error .malformed
  raw : Except DecodeError String := .error .malformed
  bound : Except DecodeError BoundKind := .ok .upper
  component : Except DecodeError TypeRef := .error .malformed
  bounds : Except DecodeError (List TypeRef) := .ok []
  args : Except DecodeError (List TypeRef) := .error .malformed

/-- The reference that the parts make under a tag, before its own rules are checked. -/
def TaggedParts.assemble (p : TaggedParts) : Tag → Except DecodeError TypeRef
  | .named => do return .named ⟨← p.name⟩
  | .array => do return .array (← p.component)
  | .variable => do return .var ⟨← p.name, ← p.owner⟩
  | .wildcard => do return .wildcard (← p.bound) (← p.bounds)
  | .parameterized => do return .parameterized ⟨← p.raw⟩ (← p.args)

/-- A wildcard with a lower bound needs a bound. -/
def checkWildcard : TypeRef → Except DecodeError TypeRef
  | .wildcard .lower [] => .error .boundlessLower
  | t => .ok t

/-- The reference that the parts make under a tag. -/
def TaggedParts.build (p : TaggedParts) (tag : Option Tag) : Except DecodeError TypeRef :=
  match tag with
  | none => .error .malformed
  | some tag =>
    match p.assemble tag with
    | .ok t => checkWildcard t
    | .error _ => .error .malformed

/-- The number of fields that a tag has. -/
def Tag.arity : Tag → Nat
  | named | array => 1
  | .variable | wildcard | parameterized => 2

mutual

/-- Reads a type reference. -/
def type : Document → Except DecodeError TypeRef
  | .text s => Shorthand.read s
  | .table entries =>
    if Document.isOrdinary (.table entries) then
      (taggedEntries entries).build ((entries.lookup "kind").bind Tag.read?)
    else .error .malformed
  | .list (tag :: items) =>
    if Document.isOrdinary (.list items) then
      (taggedItems items).build ((Tag.read? tag).filter fun t => items.length ≤ t.arity)
    else .error .malformed
  | _ => .error .malformed

/-- Reads a list of type references. -/
def types : Document → Except DecodeError (List TypeRef)
  | .list items => typeAll items
  | _ => .error .malformed

/-- Reads every document as a type reference. -/
def typeAll : List Document → Except DecodeError (List TypeRef)
  | [] => .ok []
  | d :: ds => do return (← type d) :: (← typeAll ds)

/-- Reads the entries of a tagged table. -/
def taggedEntries : List (String × Document) → TaggedParts
  | [] => {}
  | (key, d) :: rest =>
    let parts := taggedEntries rest
    if key = "name" then { parts with name := text d }
    else if key = "owner" then { parts with owner := owner d }
    else if key = "raw" then { parts with raw := text d }
    else if key = "bound" then { parts with bound := boundKind d }
    else if key = "component" then { parts with component := type d }
    else if key = "bounds" then { parts with bounds := types d }
    else if key = "args" then { parts with args := types d }
    else parts

/-- Reads the fields of a tagged list. -/
def taggedItems : List Document → TaggedParts
  | [] => {}
  | first :: rest =>
    let parts := taggedSecond rest
    { parts with name := text first, raw := text first, bound := boundKind first,
                 component := type first }

/-- Reads the second field of a tagged list. -/
def taggedSecond : List Document → TaggedParts
  | [] => {}
  | second :: _ => { owner := owner second, bounds := types second, args := types second }

end

/-! ## Records -/

/-- A field of a record `σ`: how its value is read and where it goes. -/
structure Field (σ : Type) where
  key : String
  read : Document → Except DecodeError (σ → σ)
  isRequired : Bool := false

/-- A field that `item` reads and `store` puts into the record. -/
def field {σ α : Type} (key : String) (item : Document → Except DecodeError α) (store : α → σ → σ) :
    Field σ where
  key
  read d := store <$> item d

/-- A field that has to be present. -/
def required {σ α : Type} (key : String) (item : Document → Except DecodeError α)
    (store : α → σ → σ) : Field σ :=
  { field key item store with isRequired := true }

/-- A kind of record: its fields in order, its value without any, and whether it refuses entries
that are none of its fields. -/
structure Schema (σ : Type) where
  fields : List (Field σ)
  start : σ
  isClosed : Bool := false

namespace Schema

variable {σ : Type} (dialect : Dialect) (schema : Schema σ)

/-- Reads the entries of a table one after the other into `r`. -/
def readEntries (r : σ) : List (String × Document) → Except DecodeError σ
  | [] => .ok r
  | (key, d) :: rest =>
    match schema.fields.find? fun f => f.key == key with
    | some f => do readEntries ((← f.read d) r) rest
    | none => if schema.isClosed || !d.isReadable then .error .malformed else readEntries r rest

/-- Reads the fields of a record from as many values as there are. -/
def readItems (r : σ) : List (Field σ) → List Document → Except DecodeError σ
  | [], ds => if ds.isEmpty || dialect == .file then .ok r else .error .malformed
  | f :: fs, [] => if f.isRequired then .error .malformed else readItems r fs []
  | f :: fs, d :: ds => do readItems ((← f.read d) r) fs ds

/-- Reads a record. -/
def read : Document → Except DecodeError σ
  | .table entries => do
    let r ← schema.readEntries schema.start entries
    if schema.fields.all fun f => !f.isRequired || (entries.lookup f.key).isSome then return r
    else throw .malformed
  | .list items => readItems dialect schema.start schema.fields items
  | _ => .error .malformed

end Schema

/-! ## Declarations -/

def typeParam (dialect : Dialect) : Document → Except DecodeError TypeParam :=
  Schema.read dialect
    { start := { name := "" }
      fields := [
        required "name" text fun v r => { r with name := v },
        field "bounds" types fun v r => { r with bounds := v }] }

def constructor (dialect : Dialect) : Document → Except DecodeError Constructor :=
  Schema.read dialect
    { start := {}
      fields := [
        field "modifiers" modifiers fun v r => { r with modifiers := v },
        field "type-params" (list (typeParam dialect)) fun v r => { r with typeParams := v },
        field "params" types fun v r => { r with params := v },
        field "throws" types fun v r => { r with throws := v },
        field "varargs" flag fun v r => { r with varargs := v }] }

def method (dialect : Dialect) : Document → Except DecodeError Method :=
  Schema.read dialect
    { start := { name := "" }
      fields := [
        required "name" text fun v r => { r with name := v },
        field "modifiers" modifiers fun v r => { r with modifiers := v },
        field "type-params" (list (typeParam dialect)) fun v r => { r with typeParams := v },
        field "params" types fun v r => { r with params := v },
        field "returns" type fun v r => { r with returns := v },
        field "throws" types fun v r => { r with throws := v },
        field "varargs" flag fun v r => { r with varargs := v },
        field "deprecated" flag fun v r => { r with deprecated := v },
        field "synthetic" flag fun v r => { r with synthetic := v },
        field "bridge" flag fun v r => { r with bridge := v }] }

def declaration (dialect : Dialect) : Document → Except DecodeError Declaration :=
  Schema.read dialect
    { start := { name := ⟨""⟩ }
      fields := [
        required "name" name fun v r => { r with name := v },
        field "kind" (kind dialect) fun v r => { r with kind := v },
        field "modifiers" modifiers fun v r => { r with modifiers := v },
        field "type-params" (list (typeParam dialect)) fun v r => { r with typeParams := v },
        field "superclass" (optional type) fun v r => { r with superclass := v },
        field "interfaces" types fun v r => { r with interfaces := v },
        field "constructors" (list (constructor dialect)) fun v r => { r with constructors := v },
        field "methods" (list (method dialect)) fun v r => { r with methods := v },
        field "classpath" (optional path) fun v r => { r with classpath := v }] }

/-- The declarations of a metadata document, in order. -/
def declarations (dialect : Dialect) : Document → Except DecodeError (List Declaration) :=
  Schema.read dialect
    { start := []
      fields := [field "types" (list (declaration dialect)) fun v _ => v] }

end Decode

end StubGen
