/-!
# Cutting text at a separator

Three ways to cut a list of characters at a separator: at its first occurrence, at its last one,
and at every one. The cuts lose nothing: joining the parts with the separator gives the text back.

Main results:

* `splitLast?_eq_some_iff` — the last cut is the only one whose second part lacks the separator;
* `splitFirst?_eq_some_iff` — the first cut is the only one whose first part lacks it;
* `join_pieces` — the pieces joined by the separator are the text.
-/

namespace StubGen.Text

/-- The text before and after the first `c`, if `c` occurs. -/
def splitFirst? (c : Char) : List Char → Option (List Char × List Char)
  | [] => none
  | x :: xs =>
    if x = c then some ([], xs) else (splitFirst? c xs).map fun (p, q) => (x :: p, q)

/-- The text before and after the last `c`, if `c` occurs. -/
def splitLast? (c : Char) : List Char → Option (List Char × List Char)
  | [] => none
  | x :: xs =>
    match splitLast? c xs with
    | some (p, q) => some (x :: p, q)
    | none => if x = c then some ([], xs) else none

/-- The pieces of a text between separators; a text without separator is one piece. -/
def pieces (c : Char) : List Char → List (List Char)
  | [] => [[]]
  | x :: xs =>
    if x = c then [] :: pieces c xs
    else
      match pieces c xs with
      | [] => [[x]]
      | p :: ps => (x :: p) :: ps

/-- The texts `ps` with `c` between neighbours. -/
def join (c : Char) : List (List Char) → List Char
  | [] => []
  | [p] => p
  | p :: q :: ps => p ++ c :: join c (q :: ps)

/-! ## Where the cuts fall -/

theorem splitLast?_eq_none_iff {c : Char} {s : List Char} : splitLast? c s = none ↔ c ∉ s := by
  induction s with
  | nil => simp [splitLast?]
  | cons x xs ih =>
    rw [splitLast?, List.mem_cons, not_or, ← ih]
    cases splitLast? c xs with
    | none => simp [eq_comm]
    | some cut => simp

/-- What comes before the last `c` may hold others. -/
theorem splitLast?_append {c : Char} {p q : List Char} (hq : c ∉ q) :
    splitLast? c (p ++ c :: q) = some (p, q) := by
  induction p with
  | nil => simp [splitLast?, splitLast?_eq_none_iff.2 hq]
  | cons x p ih => rw [List.cons_append, splitLast?, ih]

theorem splitLast?_eq_some_iff {c : Char} {s p q : List Char} :
    splitLast? c s = some (p, q) ↔ s = p ++ c :: q ∧ c ∉ q := by
  constructor
  · intro h
    induction s generalizing p q with
    | nil => cases h
    | cons x xs ih =>
      rw [splitLast?] at h
      split at h
      · -- a cut further on is the last one
        rename_i hxs
        cases h
        obtain ⟨rfl, hq⟩ := ih hxs
        exact ⟨rfl, hq⟩
      · rename_i hxs
        split at h
        · rename_i hx
          cases h
          exact ⟨by rw [hx, List.nil_append], splitLast?_eq_none_iff.1 hxs⟩
        · cases h
  · rintro ⟨rfl, hq⟩
    exact splitLast?_append hq

theorem splitFirst?_eq_none_iff {c : Char} {s : List Char} : splitFirst? c s = none ↔ c ∉ s := by
  induction s with
  | nil => simp [splitFirst?]
  | cons x xs ih =>
    by_cases hx : x = c
    · simp [splitFirst?, hx]
    · simp [splitFirst?, hx, ih, Ne.symm hx]

theorem splitFirst?_append {c : Char} {p q : List Char} (hp : c ∉ p) :
    splitFirst? c (p ++ c :: q) = some (p, q) := by
  induction p with
  | nil => simp [splitFirst?]
  | cons x p ih =>
    rw [List.mem_cons, not_or] at hp
    rw [List.cons_append, splitFirst?, if_neg (Ne.symm hp.1), ih hp.2]
    rfl

theorem splitFirst?_eq_some_iff {c : Char} {s p q : List Char} :
    splitFirst? c s = some (p, q) ↔ s = p ++ c :: q ∧ c ∉ p := by
  constructor
  · intro h
    induction s generalizing p q with
    | nil => cases h
    | cons x xs ih =>
      rw [splitFirst?] at h
      split at h
      · rename_i hx
        cases h
        exact ⟨by rw [hx, List.nil_append], List.not_mem_nil⟩
      · rename_i hx
        obtain ⟨⟨p', q'⟩, hxs, hcut⟩ := Option.map_eq_some_iff.1 h
        cases hcut
        obtain ⟨rfl, hp⟩ := ih hxs
        exact ⟨rfl, by rw [List.mem_cons, not_or]; exact ⟨Ne.symm hx, hp⟩⟩
  · rintro ⟨rfl, hp⟩
    exact splitFirst?_append hp

theorem pieces_ne_nil (c : Char) (s : List Char) : pieces c s ≠ [] := by
  cases s with
  | nil => simp [pieces]
  | cons x xs =>
    simp only [pieces]
    split
    · simp
    · split <;> simp

theorem join_pieces (c : Char) (s : List Char) : join c (pieces c s) = s := by
  induction s with
  | nil => rfl
  | cons x xs ih =>
    rw [pieces]
    -- the first character is cut off, or goes to the front of the first piece
    cases hp : pieces c xs with
    | nil => exact absurd hp (pieces_ne_nil c xs)
    | cons p ps =>
      rw [hp] at ih
      split
      · rename_i hx
        rw [join, ih, hx, List.nil_append]
      · cases ps with
        | nil =>
          rw [join] at ih
          show join c [x :: p] = x :: xs
          rw [join, ih]
        | cons q ps =>
          rw [join] at ih
          show join c ((x :: p) :: q :: ps) = x :: xs
          rw [join, List.cons_append, ih]

end StubGen.Text
