import StubGen.Proofs.Pieces
import StubGen.Registry

/-!
# The names that can be declared

A name can be declared if it is a list of identifiers with dots between them and not the name of a
primitive type. Cutting a name at its dots finds the identifiers, because no identifier holds a dot,
so the check that a registry makes is this grammar and nothing else.

Main results:

* `isWellFormed_iff` — the check of a name accepts exactly the dotted lists of identifiers;
* `IsDotted.isIdentifier_of_mem_package` — what a package consists of;
* `Registry.refusal?_eq_none_iff`, `Registry.exists_insert_iff` — what a registry accepts.
-/

namespace StubGen

namespace BinaryName

variable {n : BinaryName} {cs : List Char} {c : Char}

/-- A letter, `_` or `$`, and then letters, numbers, `_` and `$`. -/
def IsIdentifier (cs : List Char) : Prop :=
  ∃ first rest, cs = first :: rest ∧ (Text.isLetter first = true ∨ first = '_' ∨ first = '$') ∧
    ∀ c ∈ rest, Text.isLetter c = true ∨ Text.isNumber c = true ∨ c = '_' ∨ c = '$'

/-- A list of identifiers, at least one, with dots between them. -/
def IsDotted (n : BinaryName) : Prop :=
  ∃ ids, ids ≠ [] ∧ (∀ cs ∈ ids, IsIdentifier cs) ∧ n.chars = Text.join '.' ids

/-- A name that can be declared. -/
structure IsDeclarable (n : BinaryName) : Prop where
  dotted : n.IsDotted
  notPrimitive : n.text ∉ primitives

/-! ## Identifiers -/

theorem isIdentifierStart_iff :
    isIdentifierStart c = true ↔ Text.isLetter c = true ∨ c = '_' ∨ c = '$' := by
  rw [isIdentifierStart, Bool.or_eq_true, Bool.or_eq_true, beq_iff_eq, beq_iff_eq]
  exact or_comm

theorem isIdentifierPart_iff :
    isIdentifierPart c = true ↔
      Text.isLetter c = true ∨ Text.isNumber c = true ∨ c = '_' ∨ c = '$' := by
  rw [isIdentifierPart, Bool.or_eq_true, isIdentifierStart_iff, or_assoc]
  exact or_congr_right or_comm

theorem isIdentifier_iff : isIdentifier cs = true ↔ IsIdentifier cs := by
  cases cs with
  | nil =>
    constructor
    · intro h
      cases h
    · rintro ⟨_, _, hcs, -⟩
      cases hcs
  | cons c cs =>
    rw [isIdentifier, Bool.and_eq_true, isIdentifierStart_iff, List.all_eq_true]
    constructor
    · rintro ⟨hstart, hparts⟩
      exact ⟨c, cs, rfl, hstart, fun x hx => isIdentifierPart_iff.1 (hparts x hx)⟩
    · rintro ⟨_, _, hcs, hstart, hparts⟩
      obtain ⟨rfl, rfl⟩ := List.cons.inj hcs
      exact ⟨hstart, fun x hx => isIdentifierPart_iff.2 (hparts x hx)⟩

theorem IsIdentifier.ne_nil (h : IsIdentifier cs) : cs ≠ [] := by
  obtain ⟨_, _, rfl, -⟩ := h
  exact List.cons_ne_nil _ _

theorem IsIdentifier.isIdentifierPart (h : IsIdentifier cs) (hc : c ∈ cs) :
    isIdentifierPart c = true := by
  obtain ⟨first, rest, rfl, hfirst, hrest⟩ := h
  rcases List.mem_cons.1 hc with rfl | hc
  · exact isIdentifierPart_iff.2 (hfirst.imp_right .inr)
  · exact isIdentifierPart_iff.2 (hrest c hc)

theorem IsIdentifier.dot_not_mem (h : IsIdentifier cs) : '.' ∉ cs := by
  intro hdot
  have hpart : BinaryName.isIdentifierPart '.' = false := by decide +kernel
  exact Bool.false_ne_true (hpart.symm.trans (h.isIdentifierPart hdot))

theorem IsIdentifier.slash_not_mem (h : IsIdentifier cs) : '/' ∉ cs := by
  intro hslash
  have hpart : BinaryName.isIdentifierPart '/' = false := by decide +kernel
  exact Bool.false_ne_true (hpart.symm.trans (h.isIdentifierPart hslash))

/-! ## Whole names -/

/-- The identifiers of a name are its pieces between dots. -/
theorem IsDotted.isIdentifier (h : n.IsDotted) (hcs : cs ∈ Text.pieces '.' n.chars) :
    IsIdentifier cs := by
  obtain ⟨ids, hne, hids, hn⟩ := h
  rw [hn, Text.pieces_join hne fun p hp => (hids p hp).dot_not_mem] at hcs
  exact hids cs hcs

theorem isWellFormed_iff : n.isWellFormed = true ↔ n.IsDotted := by
  rw [isWellFormed, List.all_eq_true]
  constructor
  · -- the grammar's identifiers are the pieces of the name
    intro h
    exact ⟨Text.pieces '.' n.chars, Text.pieces_ne_nil _ _,
      fun cs hcs => isIdentifier_iff.1 (h cs hcs), (Text.join_pieces '.' n.chars).symm⟩
  · intro h cs hcs
    exact isIdentifier_iff.2 (h.isIdentifier hcs)

theorem isPrimitive_eq_false_iff : n.isPrimitive = false ↔ n.text ∉ primitives := by
  rw [isPrimitive, ← Bool.not_eq_true, List.contains_iff_mem]

/-! ## Parts of a name -/

theorem mem_of_mem_afterLast {x : Char} (h : x ∈ afterLast c cs) : x ∈ cs := by
  rw [afterLast] at h
  split at h
  · rename_i p q hsplit
    rw [(Text.splitLast?_eq_some_iff.1 hsplit).1]
    exact List.mem_append_right _ (List.mem_cons_of_mem _ h)
  · exact h

theorem mem_chars_of_mem_simpleName (h : c ∈ n.simpleName.toList) : c ∈ n.chars := by
  rw [simpleName, String.toList_ofList] at h
  exact mem_of_mem_afterLast (mem_of_mem_afterLast h)

/-- The package is what stands before some dot. -/
theorem exists_chars_eq_package (h : n.package ≠ "") :
    ∃ rest, n.chars = n.package.toList ++ '.' :: rest := by
  rw [package] at h ⊢
  split at h
  · rename_i p q hsplit
    obtain ⟨htop, -⟩ := Text.splitLast?_eq_some_iff.1 hsplit
    rw [String.toList_ofList]
    rw [topLevel] at htop
    -- member types stand behind the top-level type, so its dots come first
    split at htop
    · rename_i before after hfirst
      refine ⟨q ++ '$' :: after, ?_⟩
      rw [(Text.splitFirst?_eq_some_iff.1 hfirst).1, htop, List.append_assoc, List.cons_append]
    · exact ⟨q, htop⟩
  · exact absurd rfl h

theorem IsDotted.slash_not_mem (h : n.IsDotted) : '/' ∉ n.chars := by
  obtain ⟨ids, -, hids, hn⟩ := h
  intro hslash
  rw [hn] at hslash
  obtain hdot | ⟨cs, hcs, hslash⟩ := Text.mem_join hslash
  · exact absurd hdot (by decide)
  · exact (hids cs hcs).slash_not_mem hslash

/-- A package is a list of identifiers with dots between them. -/
theorem IsDotted.isIdentifier_of_mem_package (h : n.IsDotted) (hne : n.package ≠ "")
    (hcs : cs ∈ Text.pieces '.' n.package.toList) : IsIdentifier cs := by
  obtain ⟨rest, hrest⟩ := exists_chars_eq_package hne
  refine h.isIdentifier ?_
  rw [hrest, Text.pieces_append]
  exact List.mem_append_left _ hcs

theorem IsDotted.slash_not_mem_package (h : n.IsDotted) : '/' ∉ n.package.toList := by
  by_cases hne : n.package = ""
  · rw [hne]
    exact List.not_mem_nil
  · obtain ⟨rest, hrest⟩ := exists_chars_eq_package hne
    intro hslash
    refine h.slash_not_mem ?_
    rw [hrest]
    exact List.mem_append_left _ hslash

end BinaryName

namespace Registry

variable {n : BinaryName}

/-- A registry refuses no name but those that break the grammar and those of primitive types. -/
theorem refusal?_eq_none_iff : refusal? n = none ↔ n.IsDeclarable := by
  rw [refusal?]
  constructor
  · intro h
    split at h
    · cases h
    · rename_i hwf
      split at h
      · cases h
      · rename_i hprimitive
        rw [Bool.not_eq_true', Bool.not_eq_false] at hwf
        exact ⟨BinaryName.isWellFormed_iff.1 hwf,
          BinaryName.isPrimitive_eq_false_iff.1 (Bool.eq_false_iff.2 hprimitive)⟩
  · rintro ⟨hdotted, hprimitive⟩
    rw [BinaryName.isWellFormed_iff.2 hdotted, BinaryName.isPrimitive_eq_false_iff.2 hprimitive]
    rfl

instance : DecidablePred BinaryName.IsDeclarable := fun _ =>
  decidable_of_iff _ refusal?_eq_none_iff

theorem insert_of_isDeclarable (r : Registry) {d : Declaration} (h : d.name.IsDeclarable) :
    r.insert d = .ok (r.put d) := by
  rw [insert, refusal?_eq_none_iff.2 h]

/-- A name that cannot be declared is refused for one of two reasons. -/
theorem insert_of_not_isDeclarable (r : Registry) {d : Declaration}
    (h : ¬ d.name.IsDeclarable) : ∃ e, refusal? d.name = some e ∧ r.insert d = .error e := by
  obtain ⟨e, he⟩ := Option.ne_none_iff_exists'.1 (mt refusal?_eq_none_iff.1 h)
  exact ⟨e, he, by rw [insert, he]⟩

theorem exists_insert_iff {r : Registry} {d : Declaration} :
    (∃ r', r.insert d = .ok r') ↔ d.name.IsDeclarable := by
  constructor
  · rintro ⟨r', hr'⟩
    by_contra hnot
    obtain ⟨e, -, he⟩ := r.insert_of_not_isDeclarable hnot
    rw [he] at hr'
    cases hr'
  · exact fun h => ⟨_, r.insert_of_isDeclarable h⟩

end Registry

end StubGen
