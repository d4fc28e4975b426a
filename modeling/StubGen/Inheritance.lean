import StubGen.Registry
import StubGen.Unseen

/-!
# The inheritance graph

Declared types form a graph with a link from each type to each of its declared supertypes. A
registry is valid if every supertype is a class or an interface and no type inherits from itself.

The check for cycles orders the types so that subtypes come first: a depth-first search lists them
by the time they are left, latest first. In that order every link of an acyclic graph leads
forward, so a walk from a type along the links backward only comes to types that were met already.
The first walk that gets further names the culprit. A type that extends itself is noticed during
the search.
-/

namespace StubGen

namespace Inheritance

/-- A link from a type to a declared supertype. -/
structure Link where
  subtype : BinaryName
  supertype : BinaryName
deriving DecidableEq, Inhabited

/-- The links of a declaration, in the order of its supertypes. -/
def linksOf (r : Registry) (d : Declaration) : List Link :=
  (d.supertypes.filterMap TypeRef.rawName?).filterMap fun s =>
    (r.lookup s).map fun _ => ⟨d.name, s⟩

/-- The links of a registry, in its order. -/
def links (r : Registry) : List Link := r.declarations.flatMap (linksOf r)

/-- A directed graph of names. -/
structure Graph where
  nodes : List BinaryName
  links : List Link

/-- The inheritance graph of a registry. -/
def graph (r : Registry) : Graph := ⟨r.names, links r⟩

namespace Graph

variable (g : Graph)

/-- The supertypes of a node, the latest link first. -/
def successors (n : BinaryName) : List BinaryName :=
  ((g.links.filter fun l => l.subtype == n).map (·.supertype)).reverse

/-- The subtypes of a node, the earliest link first. -/
def predecessors (n : BinaryName) : List BinaryName :=
  (g.links.filter fun l => l.supertype == n).map (·.subtype)

/-- How far a search has come: the nodes it has entered, and those it has left, latest first. -/
structure Search where
  entered : List BinaryName := []
  left : List BinaryName := []

/-- The depth-first search from a stack of nodes. A node is entered when it is first on top of the
stack and left when it is there again. It fails with a node that is its own supertype. -/
def search (s : Search) : List BinaryName → Except BinaryName Search
  | [] => .ok s
  | n :: stack =>
    if _ : n ∈ g.nodes ∧ n ∉ s.entered then
      if n ∈ g.successors n then .error n
      else
        -- The node stays on the stack below its supertypes, to be left after them.
        let entered := n :: s.entered
        let next := (g.successors n).filter fun m => m ∉ entered
        search { s with entered } (next.reverse ++ n :: stack)
    else search { s with left := if n ∈ s.left then s.left else n :: s.left } stack
termination_by stack => ((unseen g.nodes s.entered).length, stack.length)
decreasing_by
  · rename_i h _
    exact Prod.Lex.left _ _ (length_unseen_cons_lt h.1 h.2)
  · exact Prod.Lex.right _ (by simp)

/-- The search from a node, unless it is entered already. -/
def visit (s : Search) (n : BinaryName) : Except BinaryName Search :=
  if n ∈ s.entered then .ok s else g.search s [n]

/-- The search from every node in order. -/
def searchAll : Except BinaryName Search := g.nodes.foldlM g.visit {}

/-- The next node of a walk along the links backward, with the stack after it: the topmost node that
has not been met, in whose place its subtypes are put. -/
def next? (met : List BinaryName) : List BinaryName → Option (BinaryName × List BinaryName)
  | [] => none
  | n :: stack =>
    if n ∈ met then next? met stack
    else some (n, ((g.predecessors n).filter fun p => p ∉ n :: met) ++ stack)

/-- The second node of the first walk that has one, when walks start from the nodes in the given
order and none comes to a node that was met before. -/
def backward? (met : List BinaryName) : List BinaryName → Option BinaryName
  | [] => none
  | n :: rest =>
    match g.next? met [n] with
    | none => backward? met rest
    | some (first, stack) =>
      match g.next? (first :: met) stack with
      | some (second, _) => some second
      | none => backward? (first :: met) rest

/-- A node on a cycle, if there is a cycle. -/
def culprit? : Option BinaryName :=
  match g.searchAll with
  | .error n => some n
  | .ok s => g.backward? [] s.left

end Graph

/-! ## Validation -/

/-- Why a registry is not valid. -/
inductive Invalid
  | unnameableSupertype (type : BinaryName)
  | cyclic (type : BinaryName)
deriving DecidableEq, Inhabited

/-- The text of a verdict. -/
def Invalid.message : Invalid → String
  | unnameableSupertype t =>
    "Type '" ++ t.text ++ "' has a supertype that is not a class or interface"
  | cyclic t => "Cyclic inheritance involving '" ++ t.text ++ "'"

/-- What is odd about a supertype without being wrong. -/
inductive Remark
  | undeclared (supertype type : BinaryName)
  | arity (type supertype : BinaryName) (passed declared : Nat)
deriving DecidableEq, Inhabited

/-- The text of a remark. -/
def Remark.message : Remark → String
  | undeclared s t => "Supertype " ++ s.text ++ " of " ++ t.text ++ " is not declared"
  | arity t s passed declared =>
    t.text ++ " passes " ++ toString passed ++ " type arguments to " ++ s.text ++
      ", which declares " ++ toString declared

/-- The remarks on one supertype of a type. -/
def remarks (r : Registry) (type : BinaryName) (supertype : TypeRef) : List Remark :=
  match supertype.rawName? with
  | none => []
  | some raw =>
    match r.lookup raw, supertype with
    | none, _ => if raw.isObject then [] else [.undeclared raw type]
    | some d, .parameterized _ args =>
      if d.typeParams.length = args.length then []
      else [.arity type raw args.length d.typeParams.length]
    | some _, _ => []

/-- The supertype clauses of a registry: every type with each of its supertypes, in order. -/
def clauses (r : Registry) : List (BinaryName × TypeRef) :=
  r.declarations.flatMap fun d => d.supertypes.map fun s => (d.name, s)

/-- The clauses before the first one whose supertype is neither class nor interface. -/
def leadingClauses (r : Registry) : List (BinaryName × TypeRef) :=
  (clauses r).takeWhile fun c => c.2.rawName?.isSome

/-- The remarks on a registry, in order; they stop where the check stops. -/
def allRemarks (r : Registry) : List Remark :=
  (leadingClauses r).flatMap fun (t, s) => remarks r t s

/-- Checks the supertypes of a registry. -/
def validate (r : Registry) : Except Invalid Unit :=
  match (clauses r).find? fun c => c.2.rawName?.isNone with
  | some (t, _) => .error (.unnameableSupertype t)
  | none =>
    match (graph r).culprit? with
    | some n => .error (.cyclic n)
    | none => .ok ()

end Inheritance

end StubGen
