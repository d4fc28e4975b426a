import Mathlib.Logic.Function.Iterate
import StubGen.Proofs.BinaryName

/-!
# A binary name and the types that enclose it

The enclosing types of a binary name are read off its end, its package off its beginning, and the
simple name of each level off what stands between. Here the readings are brought together: there
are as many levels below the top one as there are `$` in the name, all of them have one package,
and if packages come before all member types, package and simple names give the name back, with
`$` between the levels as class files have it or with `.` as source text has it.

Main results:

* `topLevel_of_enclosing?` — a member type and what encloses it have one top-level type;
* `length_levels` — one level for every `$`, and the outermost;
* `spelling_of_levels` — a spelling that is put together level by level;
* `decomposes_at_levels` — all of this together.
-/

namespace StubGen.BinaryName

variable {n e m : BinaryName}

/-- From the top-level types inwards, one member type at a time. -/
theorem member_induction {motive : BinaryName → Prop}
    (topLevel : ∀ n, n.enclosing? = none → motive n)
    (member : ∀ n e, n.enclosing? = some e → motive e → motive n) (n : BinaryName) : motive n := by
  cases he : n.enclosing? with
  | none => exact topLevel n he
  | some e => exact member n e he (member_induction topLevel member e)
termination_by n.chars.length
decreasing_by exact length_enclosing?_lt he

/-! ## The top-level type -/

theorem enclosing?_eq_none_iff : n.enclosing? = none ↔ '$' ∉ n.chars := by
  rw [enclosing?, Option.map_eq_none_iff, Text.splitLast?_eq_none_iff]

theorem topLevel_of_not_mem (h : '$' ∉ n.chars) : n.topLevel = n.chars := by
  rw [topLevel, Text.splitFirst?_eq_none_iff.2 h]

/-- The last `$` is taken off the name, and the first one stays where it is unless it was the only
one. -/
theorem topLevel_of_enclosing? (h : n.enclosing? = some e) : n.topLevel = e.topLevel := by
  obtain ⟨q, hq, -⟩ := enclosing?_eq_some_iff.1 h
  by_cases hmem : '$' ∈ e.chars
  · -- the first `$` already stands in the enclosing type's name
    obtain ⟨⟨p, r⟩, hcut⟩ : ∃ cut, Text.splitFirst? '$' e.chars = some cut := by
      rw [← Option.ne_none_iff_exists']
      exact fun hnone => Text.splitFirst?_eq_none_iff.1 hnone hmem
    obtain ⟨hsplit, hfree⟩ := Text.splitFirst?_eq_some_iff.1 hcut
    have hcut' : Text.splitFirst? '$' n.chars = some (p, r ++ '$' :: q) := by
      refine Text.splitFirst?_eq_some_iff.2 ⟨?_, hfree⟩
      rw [hq, hsplit, List.append_assoc, List.cons_append]
    rw [topLevel, topLevel, hcut, hcut']
  · have hcut : Text.splitFirst? '$' n.chars = some (e.chars, q) :=
      Text.splitFirst?_eq_some_iff.2 ⟨hq, hmem⟩
    rw [topLevel_of_not_mem hmem, topLevel, hcut]

theorem package_of_enclosing? (h : n.enclosing? = some e) : n.package = e.package := by
  rw [package, package, topLevel_of_enclosing? h]

/-! ## The levels -/

theorem length_levels (n : BinaryName) : n.levels.length = n.chars.count '$' + 1 := by
  induction n using member_induction with
  | topLevel n h =>
    have hcount : n.chars.count '$' = 0 := List.count_eq_zero.2 (enclosing?_eq_none_iff.1 h)
    rw [levels_of_enclosing?_eq_none h, hcount]
    rfl
  | member n e h ih =>
    obtain ⟨q, hq, hfree⟩ := enclosing?_eq_some_iff.1 h
    have hcount : q.count '$' = 0 := List.count_eq_zero.2 hfree
    rw [levels_of_enclosing? h, List.length_cons, ih, hq, List.count_append, List.count_cons_self,
      hcount]

/-- Going outwards step by step gives one level after the other, and nothing after the last. -/
theorem iterate_enclosing? (n : BinaryName) (k : Nat) :
    (fun m? => m?.bind enclosing?)^[k] (some n) = n.levels[k]? := by
  induction n using member_induction generalizing k with
  | topLevel n h =>
    rw [levels_of_enclosing?_eq_none h]
    cases k with
    | zero => rfl
    | succ k =>
      -- outside a top-level type there is nothing, and outside nothing neither
      have hstay : (fun m? => m?.bind enclosing?)^[k] (none : Option BinaryName) = none :=
        Function.iterate_fixed rfl k
      rw [Function.iterate_succ_apply, Option.bind_some, h, hstay]
      rfl
  | member n e h ih =>
    rw [levels_of_enclosing? h]
    cases k with
    | zero => rfl
    | succ k => rw [Function.iterate_succ_apply, Option.bind_some, h, ih, List.getElem?_cons_succ]

theorem package_of_mem_levels (hm : m ∈ n.levels) : m.package = n.package := by
  induction n using member_induction with
  | topLevel n h =>
    rw [levels_of_enclosing?_eq_none h, List.mem_singleton] at hm
    rw [hm]
  | member n e h ih =>
    rw [levels_of_enclosing? h] at hm
    rcases List.mem_cons.1 hm with rfl | hm
    · rfl
    · rw [ih hm, package_of_enclosing? h]

/-! ## Putting a name together -/

/-- What stands before the simple name of the top-level type: the package and a dot, or nothing if
the top-level type's name has no dot. -/
def qualifier (n : BinaryName) : String := if '.' ∈ n.topLevel then n.package ++ "." else ""

theorem qualifier_of_enclosing? (h : n.enclosing? = some e) : n.qualifier = e.qualifier := by
  rw [qualifier, qualifier, topLevel_of_enclosing? h, package_of_enclosing? h]

/-- A top-level type is its package and its simple name. -/
theorem text_of_topLevel (h : n.enclosing? = none) : n.text = n.qualifier ++ n.simpleName := by
  have hfree : '$' ∉ n.chars := enclosing?_eq_none_iff.1 h
  have htop : n.topLevel = n.chars := topLevel_of_not_mem hfree
  have hlast : afterLast '$' n.chars = n.chars := by
    rw [afterLast, Text.splitLast?_eq_none_iff.2 hfree]
  -- package and simple name are cut at the same dot now, the last of the name
  rw [qualifier, package, simpleName, htop, hlast, afterLast]
  cases hcut : Text.splitLast? '.' n.chars with
  | none =>
    -- there is no package
    have hdot : '.' ∉ n.chars := Text.splitLast?_eq_none_iff.1 hcut
    rw [if_neg hdot]
    simp [chars]
  | some cut =>
    -- the package goes up to that dot, which is part of the qualifier
    obtain ⟨p, q⟩ := cut
    have hsplit : n.chars = p ++ '.' :: q := (Text.splitLast?_eq_some_iff.1 hcut).1
    have hdot : '.' ∈ n.chars := by simp [hsplit]
    rw [if_pos hdot, ← String.toList_inj]
    simpa [chars] using hsplit

theorem canonical_of_topLevel (h : n.enclosing? = none) : n.canonical = n.text := by
  have hkeep : n.chars.map (fun c => if c = '$' then '.' else c) = n.chars := by
    refine (List.map_congr_left (g := id) fun c hc => if_neg ?_).trans n.chars.map_id
    rintro rfl
    exact enclosing?_eq_none_iff.1 h hc
  rw [canonical, hkeep, chars, String.ofList_toList]

theorem text_of_enclosing? (hn : n.NestsLast) (h : n.enclosing? = some e) :
    n.text = e.text ++ "$" ++ n.simpleName := by
  obtain ⟨q, hq, hfree⟩ := enclosing?_eq_some_iff.1 h
  rw [← String.toList_inj, String.toList_append, String.toList_append,
    toList_simpleName hn hq hfree]
  simpa [chars] using hq

/-- A spelling that writes a top-level type in full, and a member type behind the type that encloses
it, writes the simple names of all levels from the outside in. Class files and source text differ in
the separator and in how they write a single level, so both come from this by what the two
hypotheses say of them. -/
theorem spelling_of_levels {spelling : BinaryName → String} {separator : String}
    (topLevel : ∀ n, n.enclosing? = none → spelling n = n.qualifier ++ n.simpleName)
    (member : ∀ n e, n.NestsLast → n.enclosing? = some e →
      spelling n = spelling e ++ separator ++ n.simpleName) (hn : n.NestsLast) :
    spelling n =
      n.qualifier ++ separator.intercalate (n.levels.reverse.map simpleName) := by
  induction n using member_induction with
  | topLevel n h =>
    rw [topLevel n h, levels_of_enclosing?_eq_none h]
    simp
  | member n e h ih =>
    -- the enclosing type has a level of its own, so a separator comes before the new name
    have houter : e.levels.reverse.map simpleName ≠ [] := by
      obtain ⟨outer, houter⟩ := e.exists_levels
      simp [houter]
    calc spelling n
        = spelling e ++ separator ++ n.simpleName := member n e hn h
      _ = e.qualifier ++ separator.intercalate (e.levels.reverse.map simpleName) ++
            separator ++ n.simpleName := by rw [ih (hn.enclosing h)]
      _ = n.qualifier ++ (separator.intercalate (e.levels.reverse.map simpleName) ++
            separator ++ separator.intercalate [n.simpleName]) := by
        rw [qualifier_of_enclosing? h, String.intercalate_singleton]
        simp only [String.append_assoc]
      _ = n.qualifier ++ separator.intercalate (n.levels.reverse.map simpleName) := by
        rw [← String.intercalate_append_of_ne_nil houter (List.cons_ne_nil _ _),
          levels_of_enclosing? h, List.reverse_cons, List.map_append, List.map_singleton]

/-- Going outwards from a name passes one level for every `$` of the name and ends there, and all
levels have one package. If packages come before all member types, the name is the package, if
there is one, and the simple names of all levels from the outside in with `$` between them; its
spelling in source text is the same with dots. -/
theorem decomposes_at_levels (n : BinaryName) :
    (∀ k, (fun m? => m?.bind enclosing?)^[k] (some n) = n.levels[k]?) ∧
    n.levels.length = n.chars.count '$' + 1 ∧
    (∀ m ∈ n.levels, m.package = n.package) ∧
    (n.NestsLast →
      n.text = (if '.' ∈ n.topLevel then n.package ++ "." else "") ++
        "$".intercalate (n.levels.reverse.map simpleName) ∧
      n.canonical = (if '.' ∈ n.topLevel then n.package ++ "." else "") ++
        ".".intercalate (n.levels.reverse.map simpleName)) := by
  refine ⟨iterate_enclosing? n, length_levels n, fun m hm => package_of_mem_levels hm, ?_⟩
  intro hn
  constructor
  · exact spelling_of_levels (fun n h => text_of_topLevel h) (fun n e => text_of_enclosing?) hn
  · refine spelling_of_levels (fun n h => ?_) (fun n e => canonical_of_enclosing?) hn
    rw [canonical_of_topLevel h, text_of_topLevel h]

/-- A name that starts with a dot, with empty identifiers between its `$` and behind the last. -/
theorem decomposes_at_levels_of_degenerate :
    let n : BinaryName := ⟨".a$$B$"⟩
    n.NestsLast ∧ n.levels = [n, ⟨".a$$B"⟩, ⟨".a$"⟩, ⟨".a"⟩] ∧
      n.text = "." ++ "$".intercalate ["a", "", "B", ""] ∧
      n.canonical = "." ++ ".".intercalate ["a", "", "B", ""] := by
  intro n
  have hnests : n.NestsLast := by decide
  have hlevels : n.levels = [n, ⟨".a$$B"⟩, ⟨".a$"⟩, ⟨".a"⟩] := by
    rw [levels_of_enclosing? (e := ⟨".a$$B"⟩) (by decide),
      levels_of_enclosing? (e := ⟨".a$"⟩) (by decide),
      levels_of_enclosing? (e := ⟨".a"⟩) (by decide), levels_of_enclosing?_eq_none (by decide)]
  have hqualified : '.' ∈ n.topLevel := by decide
  have hpackage : n.package = "" := by decide
  have hsimple : n.levels.reverse.map simpleName = ["a", "", "B", ""] := by
    rw [hlevels]
    decide
  obtain ⟨-, -, -, hjoined⟩ := decomposes_at_levels n
  obtain ⟨htext, hcanonical⟩ := hjoined hnests
  rw [if_pos hqualified, hpackage, hsimple, String.empty_append] at htext hcanonical
  exact ⟨hnests, hlevels, htext, hcanonical⟩

/-- A dot behind a `$` does not come back: it is cut off as if it ended a package. -/
example : let n : BinaryName := ⟨"a$b.c"⟩
    ¬ n.NestsLast ∧ n.simpleName = "c" ∧ n.package = "" := by
  decide

end StubGen.BinaryName
