import StubGen.BinaryName

/-!
# Member types and what encloses them

A binary name writes a member type behind the type that encloses it, so walking outwards takes one
part off its end at a time. As long as the packages come before all member types, the part taken off
is the simple name, and the source spelling can be put together again level by level.

Main results:

* `nestsLast_iff` — packages before member types, as a condition on every `$`;
* `canonical_of_enclosing?` — the source spelling is that of the enclosing type, a dot, and the
  simple name.
-/

namespace StubGen.BinaryName

variable {n e : BinaryName}

/-- A name and those of the types that enclose it, innermost first. -/
def levels (n : BinaryName) : List BinaryName :=
  n :: match _ : n.enclosing? with
    | none => []
    | some e => e.levels
termination_by n.chars.length
decreasing_by exact length_enclosing?_lt ‹_›

/-- Member types stand behind the packages: no `.` follows a `$`. -/
def NestsLast (n : BinaryName) : Prop := '.' ∉ n.chars.dropWhile (· ≠ '$')

instance : DecidablePred NestsLast := fun n =>
  inferInstanceAs (Decidable ('.' ∉ n.chars.dropWhile (· ≠ '$')))

/-! ## Levels -/

/-- The innermost level is the name itself. -/
theorem exists_levels (n : BinaryName) : ∃ outer, n.levels = n :: outer := by
  rw [levels]
  exact ⟨_, rfl⟩

theorem levels_of_enclosing?_eq_none (h : n.enclosing? = none) : n.levels = [n] := by
  rw [levels]
  split
  · rfl
  · rename_i e he
    rw [h] at he
    cases he

theorem levels_of_enclosing? (h : n.enclosing? = some e) : n.levels = n :: e.levels := by
  rw [levels]
  split
  · rename_i hn
    rw [h] at hn
    cases hn
  · rename_i e' he'
    obtain rfl := Option.some.inj (h.symm.trans he')
    rfl

/-! ## Packages before member types -/

/-- Packages come before member types exactly if no dot follows a `$`, whichever one. -/
theorem nestsLast_iff :
    n.NestsLast ↔ ∀ p q, n.chars = p ++ '$' :: q → '.' ∉ q := by
  unfold NestsLast
  generalize n.chars = s
  induction s with
  | nil => simp
  | cons x s ih =>
    by_cases hx : x = '$'
    · -- from the first `$` on, everything has to be free of dots
      subst hx
      have hstop : ('$' :: s).dropWhile (· ≠ '$') = '$' :: s := by simp
      rw [hstop]
      constructor
      · intro hfree p q hs hq
        exact hfree (hs ▸ List.mem_append_right p (List.mem_cons_of_mem _ hq))
      · intro hfree hdot
        rcases List.mem_cons.1 hdot with hdollar | hdot
        · exact absurd hdollar (by decide)
        · exact hfree [] s rfl hdot
    · -- this character is not the first `$`, so it is part of what comes before it
      have hskip : (x :: s).dropWhile (· ≠ '$') = s.dropWhile (· ≠ '$') := by simp [hx]
      rw [hskip, ih]
      constructor
      · intro hfree p q hs
        cases p with
        | nil => exact absurd (List.cons.inj hs).1 hx
        | cons y p => exact hfree p q (List.cons.inj hs).2
      · intro hfree p q hs
        exact hfree (x :: p) q (by rw [hs, List.cons_append])

theorem NestsLast.enclosing (hn : n.NestsLast) (h : n.enclosing? = some e) : e.NestsLast := by
  obtain ⟨q, hq, -⟩ := enclosing?_eq_some_iff.1 h
  rw [nestsLast_iff] at hn ⊢
  intro p q' he hdot
  have hlater : '.' ∉ q' ++ '$' :: q := by
    refine hn p _ ?_
    rw [hq, he, List.append_assoc, List.cons_append]
  exact hlater (List.mem_append_left _ hdot)

/-! ## Source spelling -/

theorem toList_canonical (n : BinaryName) :
    n.canonical.toList = n.chars.map fun c => if c = '$' then '.' else c := by
  rw [canonical, String.toList_ofList]

/-- The simple name is the part behind the last `$`. -/
theorem toList_simpleName {q : List Char} (hn : n.NestsLast) (h : n.chars = e.chars ++ '$' :: q)
    (hq : '$' ∉ q) : n.simpleName.toList = q := by
  have hdollar : Text.splitLast? '$' n.chars = some (e.chars, q) :=
    Text.splitLast?_eq_some_iff.2 ⟨h, hq⟩
  have hdot : Text.splitLast? '.' q = none :=
    Text.splitLast?_eq_none_iff.2 (nestsLast_iff.1 hn _ _ h)
  rw [simpleName, String.toList_ofList]
  simp only [afterLast, hdollar, hdot]

/-- A member type is selected from the type that encloses it. -/
theorem canonical_of_enclosing? (hn : n.NestsLast) (h : n.enclosing? = some e) :
    n.canonical = e.canonical ++ "." ++ n.simpleName := by
  obtain ⟨q, hq, hfree⟩ := enclosing?_eq_some_iff.1 h
  have hkeep : q.map (fun c => if c = '$' then '.' else c) = q := by
    refine (List.map_congr_left (g := id) fun c hc => if_neg ?_).trans q.map_id
    rintro rfl
    exact hfree hc
  rw [← String.toList_inj, String.toList_append, String.toList_append, toList_canonical,
    toList_canonical, toList_simpleName hn hq hfree, hq, List.map_append, List.map_cons, hkeep]
  simp

end StubGen.BinaryName
