import Mathlib.Data.List.Forall2
import Mathlib.Data.Option.Basic

/-!
# Computations that can fail

A computation made of stages succeeds exactly if every stage does, each on what the one before has
given, and so does one that goes over the members of a list. Which stage fails first is seen from
the definitions; here is what can be said without looking at them.

Main results:

* `Except.bind_eq_ok_iff` — a stage and the rest;
* `Except.mapM_eq_ok_iff`, `Except.mapM_eq_error_iff` — a list, member by member.
-/

namespace Except

variable {ε ε' α β γ : Type}

theorem bind_eq_ok_iff {x : Except ε α} {f : α → Except ε β} {b : β} :
    (x >>= f) = .ok b ↔ ∃ a, x = .ok a ∧ f a = .ok b := by
  cases x with
  | error e => simp [bind, Except.bind]
  | ok a => simp [bind, Except.bind]

theorem mapError_eq_ok_iff {x : Except ε α} {f : ε → ε'} {a : α} :
    x.mapError f = .ok a ↔ x = .ok a := by
  cases x with
  | error e => exact iff_of_false (fun h => nomatch h) fun h => nomatch h
  | ok b => rw [Except.mapError, ok.injEq, ok.injEq]

theorem exists_eq_error_iff {x : Except ε α} : (∃ e, x = .error e) ↔ ∀ a, x ≠ .ok a := by
  cases x with
  | error e => simp
  | ok a => simp

/-! ## Lists -/

section

variable {f : α → Except ε β} {xs : List α}

/-- A list succeeds as a whole if its members do, each with the result in its place. -/
theorem mapM_eq_ok_iff {ys : List β} :
    xs.mapM f = .ok ys ↔ List.Forall₂ (fun x y => f x = .ok y) xs ys := by
  induction xs generalizing ys with
  | nil => simp [pure, Except.pure, eq_comm]
  | cons x xs ih =>
    rw [List.mapM_cons]
    simp only [bind_eq_ok_iff, List.forall₂_cons_left_iff, ih]
    constructor
    · rintro ⟨y, hy, rest, hrest, ⟨⟩⟩
      exact ⟨y, rest, hy, hrest, rfl⟩
    · rintro ⟨y, rest, hy, hrest, rfl⟩
      exact ⟨y, hy, rest, hrest, rfl⟩

/-- A list fails as a whole exactly if one of its members does. -/
theorem mapM_eq_error_iff :
    (∃ e, xs.mapM f = .error e) ↔ ∃ x ∈ xs, ∃ e, f x = .error e := by
  induction xs with
  | nil => simp [pure, Except.pure]
  | cons x xs ih =>
    rw [List.mapM_cons, List.exists_mem_cons_iff, ← ih]
    -- a failure of the first member ends it all; after a success the others decide
    cases f x with
    | error e => simp [bind, Except.bind]
    | ok b => cases xs.mapM f <;> simp [bind, Except.bind, pure, Except.pure]

/-- The list of at most one member. -/
theorem mapM_toList_eq_ok_iff {a? : Option α} {bs : List β} :
    a?.toList.mapM f = .ok bs ↔
      ∃ b?, Option.Rel (fun a b => f a = .ok b) a? b? ∧ bs = b?.toList := by
  rw [mapM_eq_ok_iff]
  cases a? with
  | none =>
    rw [Option.toList_none, List.forall₂_nil_left_iff]
    constructor
    · rintro rfl
      exact ⟨none, .none, rfl⟩
    · rintro ⟨b?, hb, rfl⟩
      cases hb
      rfl
  | some a =>
    rw [Option.toList_some, List.forall₂_cons_left_iff]
    constructor
    · rintro ⟨b, rest, hb, hrest, rfl⟩
      cases hrest
      exact ⟨some b, .some hb, rfl⟩
    · rintro ⟨b?, hb, rfl⟩
      cases hb with
      | some hb => exact ⟨_, [], hb, .nil, rfl⟩

end

/-- Going over the image of a list is the same as going over the list, if it is so at every
member. -/
theorem mapM_map_congr {f : α → β} {g : β → Except ε γ} {k : α → Except ε γ} {xs : List α}
    (h : ∀ x ∈ xs, g (f x) = k x) : (xs.map f).mapM g = xs.mapM k := by
  induction xs with
  | nil => rfl
  | cons x xs ih =>
    rw [List.map_cons, List.mapM_cons, List.mapM_cons, h x List.mem_cons_self,
      ih fun y hy => h y (List.mem_cons_of_mem _ hy)]

end Except
