import StubGen.TypeRef

/-!
# The order of type references

References are ordered by their form (raw names, arrays, variables, wildcards, applied types) and
then by their parts from left to right. Names compare by code point, an owner without a member
comes before one with a member, an upper bound before a lower one, and lists compare
lexicographically.
-/

namespace StubGen

namespace VarOwner

/-- Owners compare by type and then by member. -/
def compare (a b : VarOwner) : Ordering :=
  (Ord.compare a.type.text b.type.text).then <|
    match a.member, b.member with
    | none, none => .eq
    | none, some _ => .lt
    | some _, none => .gt
    | some x, some y => Ord.compare x y

end VarOwner

namespace TypeVar

/-- Variables compare by name and then by owner. -/
def compare (a b : TypeVar) : Ordering :=
  (Ord.compare a.name b.name).then (VarOwner.compare a.owner b.owner)

end TypeVar

namespace BoundKind

/-- Upper bounds come first. -/
def rank : BoundKind → Nat
  | upper => 0
  | lower => 1

end BoundKind

namespace TypeRef

/-- The position of a reference's form in the order. -/
def rank : TypeRef → Nat
  | named _ => 0
  | array _ => 1
  | var _ => 2
  | wildcard .. => 3
  | parameterized .. => 4

mutual

/-- The order of references. -/
def compare : TypeRef → TypeRef → Ordering
  | named a, named b => Ord.compare a.text b.text
  | array a, array b => compare a b
  | var a, var b => a.compare b
  | wildcard k as, wildcard l bs => (Ord.compare k.rank l.rank).then (compareAll as bs)
  | parameterized r as, parameterized s bs => (Ord.compare r.text s.text).then (compareAll as bs)
  | a, b => Ord.compare a.rank b.rank

/-- The lexicographic order of lists of references. -/
def compareAll : List TypeRef → List TypeRef → Ordering
  | [], [] => .eq
  | [], _ :: _ => .lt
  | _ :: _, [] => .gt
  | a :: as, b :: bs => (compare a b).then (compareAll as bs)

end

/-- The list without elements equal to the one before them. -/
def dropRepeats : List TypeRef → List TypeRef
  | [] => []
  | [t] => [t]
  | t :: u :: ts => if t = u then dropRepeats (u :: ts) else t :: dropRepeats (u :: ts)

/-- The distinct references of a list in ascending order. -/
def sorted (ts : List TypeRef) : List TypeRef :=
  dropRepeats (ts.mergeSort fun a b => (compare a b).isLE)

end TypeRef

end StubGen
