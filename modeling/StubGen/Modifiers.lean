/-!
# Modifiers

A declaration carries a set of modifiers. The set is a bit vector with one bit per modifier, in the
order in which source text writes them.

Main results:

* `ext_mem` — a set is determined by its members;
* `mem_union`, `mem_without`, `mem_ofList` — the members of the sets the operations build.
-/

namespace StubGen

/-- A modifier of a declaration, in the order in which source text writes them. -/
inductive Modifier
  | publicAccess
  | protectedAccess
  | privateAccess
  | abstract
  | static
  | final
  | transient
  | volatile
  | synchronized
  | native
  | strictfp
deriving DecidableEq, Inhabited

namespace Modifier

/-- Every modifier, in written order. -/
def all : List Modifier :=
  [publicAccess, protectedAccess, privateAccess, abstract, static, final, transient, volatile,
    synchronized, native, strictfp]

/-- The place of a modifier in the written order. -/
def index (m : Modifier) : Fin 11 :=
  match m with
  | publicAccess => 0
  | protectedAccess => 1
  | privateAccess => 2
  | abstract => 3
  | static => 4
  | final => 5
  | transient => 6
  | volatile => 7
  | synchronized => 8
  | native => 9
  | strictfp => 10

/-- The keyword of a modifier. -/
def keyword : Modifier → String
  | publicAccess => "public"
  | protectedAccess => "protected"
  | privateAccess => "private"
  | abstract => "abstract"
  | static => "static"
  | final => "final"
  | transient => "transient"
  | volatile => "volatile"
  | synchronized => "synchronized"
  | native => "native"
  | strictfp => "strictfp"

/-- The modifier with a given keyword. -/
def ofKeyword? (keyword : String) : Option Modifier := all.find? fun m => m.keyword == keyword

/-- Every place in the written order is that of some modifier. -/
theorem exists_index (j : Fin 11) : ∃ m ∈ all, m.index = j := by
  revert j
  decide

end Modifier

/-- A set of modifiers. -/
structure Modifiers where
  bits : BitVec 11
deriving DecidableEq, Inhabited

namespace Modifiers

/-- The set without members. -/
def empty : Modifiers := ⟨0⟩

/-- Whether a modifier is in the set. -/
def has (s : Modifiers) (m : Modifier) : Bool := s.bits.getLsbD m.index

/-- The set with one member. -/
def single (m : Modifier) : Modifiers := ⟨BitVec.twoPow 11 m.index⟩

/-- The members of either set. -/
def union (s t : Modifiers) : Modifiers := ⟨s.bits ||| t.bits⟩

/-- The members of `s` that are not in `t`. -/
def without (s t : Modifiers) : Modifiers := ⟨s.bits &&& ~~~t.bits⟩

/-- The members of both sets. -/
def inter (s t : Modifiers) : Modifiers := ⟨s.bits &&& t.bits⟩

/-- The set of the listed modifiers. -/
def ofList (ms : List Modifier) : Modifiers := ms.foldl (fun s m => s.union (single m)) empty

/-- Whether `s` has every member of `t`. -/
def contains (s t : Modifiers) : Bool := s.inter t == t

/-- The members in written order. -/
def toList (s : Modifiers) : List Modifier := Modifier.all.filter s.has

def isEmpty (s : Modifiers) : Bool := s == empty

def isPublic (s : Modifiers) : Bool := s.has .publicAccess

def isProtected (s : Modifiers) : Bool := s.has .protectedAccess

def isPrivate (s : Modifiers) : Bool := s.has .privateAccess

def isAbstract (s : Modifiers) : Bool := s.has .abstract

def isStatic (s : Modifiers) : Bool := s.has .static

def isFinal (s : Modifiers) : Bool := s.has .final

def isNative (s : Modifiers) : Bool := s.has .native

/-- The access modifiers of the set. -/
def access (s : Modifiers) : Modifiers :=
  s.inter (ofList [.publicAccess, .protectedAccess, .privateAccess])

/-- The keywords of the members in written order, separated by spaces. -/
def text (s : Modifiers) : String := " ".intercalate (s.toList.map Modifier.keyword)

/-! ## Members -/

@[simp]
theorem has_empty (m : Modifier) : empty.has m = false := by
  simp [has, empty]

@[simp]
theorem mem_union (s t : Modifiers) (m : Modifier) : (s.union t).has m = (s.has m || t.has m) := by
  simp [has, union]

@[simp]
theorem mem_inter (s t : Modifiers) (m : Modifier) : (s.inter t).has m = (s.has m && t.has m) := by
  simp [has, inter]

@[simp]
theorem mem_without (s t : Modifiers) (m : Modifier) :
    (s.without t).has m = (s.has m && !t.has m) := by
  simp [has, without]

@[simp]
theorem mem_single (m n : Modifier) : (single m).has n = decide (n = m) := by
  cases m <;> cases n <;> decide

theorem ext_mem {s t : Modifiers} (h : ∀ m, s.has m = t.has m) : s = t := by
  cases s with | mk a => cases t with | mk b =>
  simp only [mk.injEq]
  apply BitVec.eq_of_getLsbD_eq
  intro i hi
  obtain ⟨m, -, hm⟩ := Modifier.exists_index ⟨i, hi⟩
  have := h m
  simpa [has, hm] using this

theorem mem_ofList (ms : List Modifier) (m : Modifier) : (ofList ms).has m = decide (m ∈ ms) := by
  suffices h : ∀ s : Modifiers, (ms.foldl (fun s m => s.union (single m)) s).has m =
      (s.has m || decide (m ∈ ms)) by
    simpa [ofList] using h empty
  induction ms with
  | nil => simp
  | cons n ms ih =>
    intro s
    simp [ih, Bool.or_assoc]

/-! ## Access -/

theorem isPrivate_access (s : Modifiers) : s.access.isPrivate = s.isPrivate := by
  simp [access, isPrivate, mem_ofList]

/-- Access modifiers do not say that anything is abstract. -/
theorem access_without_abstract (s : Modifiers) :
    s.access.without (.single .abstract) = s.access := by
  refine ext_mem fun m => ?_
  cases m <;> simp [access, mem_ofList]

end Modifiers

end StubGen
