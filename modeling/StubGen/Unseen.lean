/-!
# What a search has not seen yet

A search over finitely many things ends because every thing it sees leaves fewer unseen. This is the
fact behind every such argument in this library.

Main results:

* `length_unseen_cons_lt` — seeing something new leaves fewer things unseen.
-/

namespace StubGen

/-- The things of `xs` that are not in `seen`. -/
def unseen {α : Type} [DecidableEq α] (xs seen : List α) : List α := xs.filter fun x => x ∉ seen

theorem unseen_cons {α : Type} [DecidableEq α] (x : α) (xs seen : List α) :
    unseen xs (x :: seen) = (unseen xs seen).filter fun y => y ≠ x := by
  rw [unseen, unseen, List.filter_filter]
  refine List.filter_congr fun y _ => ?_
  simp [List.mem_cons, not_or]

theorem length_unseen_cons_lt {α : Type} [DecidableEq α] {x : α} {xs seen : List α} (hx : x ∈ xs)
    (hs : x ∉ seen) : (unseen xs (x :: seen)).length < (unseen xs seen).length := by
  have hmem : x ∈ unseen xs seen := List.mem_filter.2 ⟨hx, decide_eq_true hs⟩
  rw [unseen_cons, List.length_filter_lt_length_iff_exists]
  exact ⟨x, hmem, by simp⟩

end StubGen
