import StubGen.BinaryName.Grammar
import StubGen.Declaration

/-!
# The registry of declared types

The declared types of a run, in the order in which their names were first inserted. A later
declaration of a name takes the place of the earlier one.

Main results:

* `name_of_lookup`, `mem_of_lookup` — what is found under a name is declared and has that name;
* `lookup_put` — after a declaration is put, it is found under its name and all else is unchanged.
-/

namespace StubGen

/-- Why a declaration is refused. -/
inductive RegistryError
  | invalidName (name : BinaryName)
  | primitiveName (name : BinaryName)
deriving DecidableEq, Inhabited

/-- The text of a refusal. -/
def RegistryError.message : RegistryError → String
  | invalidName n => "Invalid type name '" ++ n.text ++ "'"
  | primitiveName n => "Primitive type '" ++ n.text ++ "' cannot be declared"

/-- The declared types in order of first insertion. -/
structure Registry where
  declarations : List Declaration
deriving DecidableEq, Inhabited

namespace Registry

/-- The registry without declarations. -/
def empty : Registry := ⟨[]⟩

/-- The number of declared types. -/
def size (r : Registry) : Nat := r.declarations.length

/-- The declared names in order. -/
def names (r : Registry) : List BinaryName := r.declarations.map (·.name)

/-- The declaration of a name. -/
def lookup (r : Registry) (name : BinaryName) : Option Declaration :=
  r.declarations.find? fun d => d.name == name

/-- The list with `d` in the place of the declaration of its name, or at the end. -/
def putIn (d : Declaration) : List Declaration → List Declaration
  | [] => [d]
  | e :: es => if e.name = d.name then d :: es else e :: putIn d es

/-- The registry with a declaration put in, whatever its name is. -/
def put (r : Registry) (d : Declaration) : Registry := ⟨putIn d r.declarations⟩

/-- Why a name cannot be declared, if it cannot. -/
def refusal? (name : BinaryName) : Option RegistryError :=
  if !name.isWellFormed then some (.invalidName name)
  else if name.isPrimitive then some (.primitiveName name)
  else none

/-- Adds a declaration. -/
def insert (r : Registry) (d : Declaration) : Except RegistryError Registry :=
  match refusal? d.name with
  | some e => .error e
  | none => .ok (r.put d)

/-- Adds declarations up to the first that is refused; those before it stay. -/
def insertAll (r : Registry) : List Declaration → Except RegistryError Unit × Registry
  | [] => (.ok (), r)
  | d :: ds =>
    match r.insert d with
    | .ok r' => insertAll r' ds
    | .error e => (.error e, r)

theorem name_of_lookup {r : Registry} {n : BinaryName} {d : Declaration}
    (h : r.lookup n = some d) : d.name = n := by
  simpa using List.find?_some h

theorem mem_of_lookup {r : Registry} {n : BinaryName} {d : Declaration}
    (h : r.lookup n = some d) : d ∈ r.declarations := List.mem_of_find?_eq_some h

theorem mem_names_iff {r : Registry} {n : BinaryName} :
    n ∈ r.names ↔ ∃ d, r.lookup n = some d := by
  constructor
  · intro h
    obtain ⟨d, hd, rfl⟩ := List.mem_map.1 h
    cases hl : r.lookup d.name with
    | some e => exact ⟨e, rfl⟩
    | none =>
      have := List.find?_eq_none.1 hl d hd
      simp at this
  · rintro ⟨d, hd⟩
    exact name_of_lookup hd ▸ List.mem_map_of_mem (mem_of_lookup hd)

theorem lookup_put (r : Registry) (d : Declaration) (n : BinaryName) :
    (r.put d).lookup n = if d.name = n then some d else r.lookup n := by
  simp only [put, lookup]
  induction r.declarations with
  | nil => by_cases h : d.name = n <;> simp [putIn, h]
  | cons e es ih =>
    by_cases hed : e.name = d.name
    · by_cases hn : d.name = n <;> simp [putIn, hed, hn]
    · by_cases hen : e.name = n
      · have hdn : n ≠ d.name := fun h => hed (hen.trans h)
        simp [putIn, hen, hdn, Ne.symm hdn]
      · simp [putIn, hed, hen, ih]

end Registry

end StubGen
