import StubGen.Text.Split
import Mathlib.Data.List.Basic

/-!
# Pieces of text

Paths, names, classpaths and archive entries are all texts with a separator between their parts. A
text is cut into its pieces at every separator, so no piece has one in it, and parts without one are
found again after they have been joined. A text that was cut off has the pieces of the whole one, up
to the piece that was cut.

Main results:

* `pieces_append` — a separator parts the pieces before it from those behind it;
* `pieces_join` — joined texts are cut into what they were joined from;
* `pieces_of_prefix` — a text that was cut off is cut off within one piece.
-/

namespace StubGen.Text

/-! ## Cutting a text -/

theorem pieces_of_not_mem {c : Char} {s : List Char} (h : c ∉ s) : pieces c s = [s] := by
  induction s with
  | nil => rfl
  | cons x xs ih =>
    rw [List.mem_cons, not_or] at h
    rw [pieces, if_neg (Ne.symm h.1), ih h.2]

/-- A separator parts the pieces before it from those behind it. -/
theorem pieces_append (c : Char) (s t : List Char) :
    pieces c (s ++ c :: t) = pieces c s ++ pieces c t := by
  induction s with
  | nil => simp [pieces]
  | cons x xs ih =>
    rw [List.cons_append, pieces, pieces, ih]
    split
    · rw [List.cons_append]
    · cases h : pieces c xs with
      | nil => exact absurd h (pieces_ne_nil c xs)
      | cons p ps => rfl

/-- No piece has the character that a text was cut at. -/
theorem not_mem_of_mem_pieces {c : Char} {s q : List Char} (hq : q ∈ pieces c s) : c ∉ q := by
  induction s generalizing q with
  | nil =>
    obtain rfl := List.mem_singleton.1 hq
    exact List.not_mem_nil
  | cons x xs ih =>
    rw [pieces] at hq
    split at hq
    · -- the text is cut here
      rcases List.mem_cons.1 hq with rfl | hq
      · exact List.not_mem_nil
      · exact ih hq
    · -- the character goes to the front of the piece behind it
      rename_i hx
      cases h : pieces c xs with
      | nil => exact absurd h (pieces_ne_nil c xs)
      | cons p ps =>
        rw [h] at hq ih
        rcases List.mem_cons.1 hq with rfl | hq
        · rw [List.mem_cons, not_or]
          exact ⟨Ne.symm hx, ih List.mem_cons_self⟩
        · exact ih (List.mem_cons_of_mem _ hq)

/-- A text is cut where it was cut before, if the new separator was not in it. -/
theorem pieces_map_replace {c x : Char} {s : List Char} (hx : x ∉ s) :
    pieces x (s.map fun y => if y = c then x else y) = pieces c s := by
  induction s with
  | nil => rfl
  | cons y s ih =>
    rw [List.mem_cons, not_or] at hx
    rw [List.map_cons, pieces, pieces, ih hx.2]
    by_cases hy : y = c
    · rw [if_pos (if_pos hy), if_pos hy]
    · rw [if_neg hy, if_neg (Ne.symm hx.1), if_neg hy]

/-- A text that was cut off is cut off within one piece: the pieces before it are those of the whole
text, and the piece with the cut is a start of its own. -/
theorem pieces_of_prefix {c : Char} {p s : List Char} (h : p <+: s) :
    ∃ whole q rest cut, pieces c s = whole ++ q :: rest ∧ pieces c p = whole ++ [cut] ∧
      cut <+: q := by
  induction p generalizing s with
  | nil =>
    cases hs : pieces c s with
    | nil => exact absurd hs (pieces_ne_nil c s)
    | cons q rest => exact ⟨[], q, rest, [], rfl, rfl, List.nil_prefix⟩
  | cons x p ih =>
    obtain ⟨s, rfl⟩ : ∃ t, s = x :: t := by
      obtain ⟨t, rfl⟩ := h
      exact ⟨p ++ t, rfl⟩
    obtain ⟨whole, q, rest, cut, hs, hp, hcut⟩ := ih (List.cons_prefix_cons.1 h).2
    -- the piece that gets `x` is the one with the cut if none before the cut is whole
    rw [pieces, pieces, hs, hp]
    by_cases hx : x = c
    · rw [if_pos hx, if_pos hx]
      exact ⟨[] :: whole, q, rest, cut, rfl, rfl, hcut⟩
    · rw [if_neg hx, if_neg hx]
      cases whole with
      | nil => exact ⟨[], x :: q, rest, x :: cut, rfl, rfl, (List.prefix_cons_inj x).2 hcut⟩
      | cons w whole => exact ⟨(x :: w) :: whole, q, rest, cut, rfl, rfl, hcut⟩

/-! ## Joining what was cut -/

/-- Texts without the separator are found again after they have been joined. -/
theorem pieces_join {c : Char} {ps : List (List Char)} (hne : ps ≠ []) (hps : ∀ p ∈ ps, c ∉ p) :
    pieces c (join c ps) = ps := by
  induction ps with
  | nil => exact absurd rfl hne
  | cons p ps ih =>
    have hp := pieces_of_not_mem (hps p List.mem_cons_self)
    cases ps with
    | nil => exact hp
    | cons q ps =>
      have hrest := ih (List.cons_ne_nil q ps) fun x hx => hps x (List.mem_cons_of_mem _ hx)
      rw [join, pieces_append, hp, hrest, List.singleton_append]

theorem join_concat (c : Char) (ps : List (List Char)) (q : List Char) :
    join c (ps ++ [q]) = if ps = [] then q else join c ps ++ c :: q := by
  induction ps with
  | nil => rfl
  | cons p ps ih =>
    rw [if_neg (List.cons_ne_nil p ps)]
    cases ps with
    | nil => rfl
    | cons r ps =>
      rw [if_neg (List.cons_ne_nil r ps)] at ih
      show p ++ c :: join c (r :: ps ++ [q]) = p ++ c :: join c (r :: ps) ++ c :: q
      rw [ih, List.append_assoc, List.cons_append]

/-- What is in a joined text is in one of the texts, unless it is a separator. -/
theorem mem_join {c x : Char} {ps : List (List Char)} (hx : x ∈ join c ps) :
    x = c ∨ ∃ p ∈ ps, x ∈ p := by
  fun_induction join c ps with
  | case1 => cases hx
  | case2 p => exact .inr ⟨p, List.mem_cons_self, hx⟩
  | case3 p q ps ih =>
    rcases List.mem_append.1 hx with hx | hx
    · exact .inr ⟨p, List.mem_cons_self, hx⟩
    · rcases List.mem_cons.1 hx with rfl | hx
      · exact .inl rfl
      · obtain h | ⟨y, hy, hxy⟩ := ih hx
        · exact .inl h
        · exact .inr ⟨y, List.mem_cons_of_mem _ hy, hxy⟩

end StubGen.Text
