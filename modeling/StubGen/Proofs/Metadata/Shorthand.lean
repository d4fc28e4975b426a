import Mathlib
import StubGen.Metadata.Decode

/-!
# What a shorthand says

A shorthand is a base and any number of dimensions. Taking the dimensions off one by one, with the
blanks before each, comes to an end at a base that has none, and there is only one way to get there.
So the base and the number of dimensions are all that a shorthand says: blanks around it and between
its dimensions do not matter, and the tables for arrays say the same at greater length.

Main results:

* `Text.trim_append` — trimming takes off what blanks there are, and no more;
* `Shorthand.spells_strip`, `Shorthand.strip_of_spells` — what is taken off spells the text, and a
  text is spelt in one way only;
* `Shorthand.read_of_spells` — what a shorthand is read as;
* `Decode.type_nestedArrays` — tables for arrays inside each other;
* `Shorthand.type_text` — all of this together.
-/

namespace StubGen

/-! ## Trimming -/

namespace Text

variable {s t blanks : List Char} {c : Char}

/-- Text that does not start with a blank. -/
def IsTrimmedStart (s : List Char) : Prop := ∀ c, s.head? = some c → isBlank c = false

/-- Text that does not end with a blank. -/
def IsTrimmedEnd (s : List Char) : Prop := ∀ c, s.getLast? = some c → isBlank c = false

/-- Text of nothing but blanks. -/
def IsBlankText (s : List Char) : Prop := ∀ c ∈ s, isBlank c = true

theorem isTrimmedStart_reverse : IsTrimmedStart s.reverse ↔ IsTrimmedEnd s := by
  rw [IsTrimmedStart, List.head?_reverse, IsTrimmedEnd]

theorem isBlankText_nil : IsBlankText [] := fun _ hc => absurd hc List.not_mem_nil

theorem IsBlankText.append (hs : IsBlankText s) (ht : IsBlankText t) : IsBlankText (s ++ t) :=
  List.forall_mem_append.2 ⟨hs, ht⟩

theorem isBlankText_reverse : IsBlankText s.reverse ↔ IsBlankText s := by
  simp only [IsBlankText, List.mem_reverse]

theorem IsTrimmedStart.of_append (h : IsTrimmedStart (s ++ t)) : IsTrimmedStart s := by
  intro c hc
  refine h c ?_
  rw [List.head?_append, hc, Option.some_or]

theorem trimEnd_eq_reverse (s : List Char) : trimEnd s = (trimStart s.reverse).reverse := rfl

theorem isTrimmedStart_trimStart (s : List Char) : IsTrimmedStart (trimStart s) := by
  intro c hc
  have hstop := List.head?_dropWhile_not isBlank s
  rw [trimStart] at hc
  rw [hc] at hstop
  simpa using hstop

theorem isTrimmedEnd_trimEnd (s : List Char) : IsTrimmedEnd (trimEnd s) := by
  rw [← isTrimmedStart_reverse, trimEnd_eq_reverse, List.reverse_reverse]
  exact isTrimmedStart_trimStart s.reverse

theorem trimStart_append (hblanks : IsBlankText blanks) (hs : IsTrimmedStart s) :
    trimStart (blanks ++ s) = s := by
  rw [trimStart, List.dropWhile_append_of_pos hblanks]
  cases s with
  | nil => rfl
  | cons c s => rw [List.dropWhile_cons_of_neg (by rw [hs c rfl]; exact Bool.false_ne_true)]

theorem trimEnd_append (hs : IsTrimmedEnd s) (hblanks : IsBlankText blanks) :
    trimEnd (s ++ blanks) = s := by
  rw [trimEnd_eq_reverse, List.reverse_append,
    trimStart_append (isBlankText_reverse.2 hblanks) (isTrimmedStart_reverse.2 hs),
    List.reverse_reverse]

/-- What trimming takes off at the start is blank. -/
theorem exists_eq_append_trimStart (s : List Char) :
    ∃ blanks, IsBlankText blanks ∧ s = blanks ++ trimStart s :=
  ⟨s.takeWhile isBlank, fun _ hc => List.mem_takeWhile_imp hc,
    List.takeWhile_append_dropWhile.symm⟩

/-- What trimming takes off at the end is blank. -/
theorem exists_eq_trimEnd_append (s : List Char) :
    ∃ blanks, IsBlankText blanks ∧ s = trimEnd s ++ blanks := by
  obtain ⟨blanks, hblanks, hs⟩ := exists_eq_append_trimStart s.reverse
  refine ⟨blanks.reverse, isBlankText_reverse.2 hblanks, ?_⟩
  rw [trimEnd_eq_reverse, ← List.reverse_append, ← hs, List.reverse_reverse]

theorem exists_eq_append_trim_append (s : List Char) :
    ∃ lead trail, IsBlankText lead ∧ IsBlankText trail ∧ s = lead ++ trim s ++ trail := by
  obtain ⟨lead, hlead, hs⟩ := exists_eq_append_trimStart s
  obtain ⟨trail, htrail, hstart⟩ := exists_eq_trimEnd_append (trimStart s)
  refine ⟨lead, trail, hlead, htrail, ?_⟩
  rw [trim, List.append_assoc, ← hstart, ← hs]

theorem isTrimmedEnd_trim (s : List Char) : IsTrimmedEnd (trim s) := isTrimmedEnd_trimEnd _

theorem isTrimmedStart_trim (s : List Char) : IsTrimmedStart (trim s) := by
  obtain ⟨trail, -, hs⟩ := exists_eq_trimEnd_append (trimStart s)
  have hstart := isTrimmedStart_trimStart s
  rw [hs] at hstart
  exact hstart.of_append

theorem trim_append {lead trail : List Char} (hlead : IsBlankText lead)
    (htrail : IsBlankText trail) (hstart : IsTrimmedStart s) (hend : IsTrimmedEnd s) :
    trim (lead ++ s ++ trail) = s := by
  cases s with
  | nil =>
    -- nothing but blanks, and all of them go at the start
    have hnone : trimStart (lead ++ trail) = [] :=
      List.dropWhile_eq_nil_iff.2 (hlead.append htrail)
    rw [List.append_nil, trim, hnone]
    rfl
  | cons c s =>
    have hrest : IsTrimmedStart (c :: s ++ trail) := fun d hd => hstart d hd
    rw [trim, List.append_assoc, trimStart_append hlead hrest, trimEnd_append hend htrail]

/-- Trimming takes nothing off but blanks. -/
theorem mem_trim_iff (hc : isBlank c = false) : c ∈ trim s ↔ c ∈ s := by
  obtain ⟨lead, trail, hlead, htrail, hs⟩ := exists_eq_append_trim_append s
  have hfree : ∀ {blanks}, IsBlankText blanks → c ∉ blanks := by
    intro blanks hblanks hmem
    rw [hblanks c hmem] at hc
    cases hc
  -- written as an equivalence, since the text occurs in its own trimmed form
  have hmem : c ∈ s ↔ c ∈ lead ++ trim s ++ trail := by rw [← hs]
  rw [hmem, List.mem_append, List.mem_append]
  simp [hfree hlead, hfree htrail]

end Text

namespace Shorthand

open Text

variable {b s : List Char} {n : Nat} {gaps : List (List Char)}

/-! ## Bases and dimensions -/

/-- One dimension. -/
def dimension : List Char := ['[', ']']

/-- Dimensions as they may be written: each has some text before it, which should be blank. -/
def dimensions (gaps : List (List Char)) : List Char := gaps.flatMap (· ++ dimension)

/-- What is left when no blanks and no dimensions can be taken off. -/
structure IsBase (b : List Char) : Prop where
  starts : IsTrimmedStart b
  ends : IsTrimmedEnd b
  plain : ¬ dimension <:+ b

/-- A text is a base and behind it `n` dimensions with blanks before each. -/
def Spells (b : List Char) (n : Nat) (s : List Char) : Prop :=
  IsBase b ∧ ∃ gaps : List (List Char),
    gaps.length = n ∧ (∀ g ∈ gaps, IsBlankText g) ∧ s = b ++ dimensions gaps

theorem dimensions_concat (gaps : List (List Char)) (gap : List Char) :
    dimensions (gaps ++ [gap]) = dimensions gaps ++ gap ++ dimension := by
  simp [dimensions]

theorem isTrimmedEnd_dimension (s : List Char) : IsTrimmedEnd (s ++ dimension) := by
  intro c hc
  have hlast : (s ++ dimension).getLast? = some ']' := by simp [dimension]
  obtain rfl := Option.some.inj (hlast.symm.trans hc)
  decide

theorem Spells.isTrimmedEnd (h : Spells b n s) : IsTrimmedEnd s := by
  obtain ⟨hb, gaps, -, -, rfl⟩ := h
  rcases List.eq_nil_or_concat gaps with rfl | ⟨gaps, gap, rfl⟩
  · rw [dimensions, List.flatMap_nil, List.append_nil]
    exact hb.ends
  · rw [List.concat_eq_append, dimensions_concat, ← List.append_assoc]
    exact isTrimmedEnd_dimension _

/-- Only blanks and brackets stand behind the base. -/
theorem Spells.mem_iff {c : Char} (h : Spells b n s) (hblank : isBlank c = false)
    (hopen : c ≠ '[') (hclose : c ≠ ']') : c ∈ s ↔ c ∈ b := by
  obtain ⟨-, gaps, -, hgaps, rfl⟩ := h
  have hfree : c ∉ dimensions gaps := by
    intro hc
    obtain ⟨g, hg, hc⟩ := List.mem_flatMap.1 hc
    rcases List.mem_append.1 hc with hc | hc
    · rw [hgaps g hg c hc] at hblank
      cases hblank
    · simp [dimension, hopen, hclose] at hc
  simp [hfree]

/-! ## Taking dimensions off -/

/-- The base of a text and the number of dimensions behind it. -/
def strip (s : List Char) : List Char × Nat :=
  ((stripDimensions s.reverse).1.reverse, (stripDimensions s.reverse).2)

theorem split_eq_strip (text : List Char) : split text = strip (trim text) := rfl

theorem strip_append_dimension (s : List Char) :
    strip (s ++ dimension) = ((strip (trimEnd s)).1, (strip (trimEnd s)).2 + 1) := by
  have hreverse : (s ++ dimension).reverse = ']' :: '[' :: s.reverse := by simp [dimension]
  rw [strip, hreverse, stripDimensions, strip, trimEnd, List.reverse_reverse]

theorem strip_of_plain (h : ¬ dimension <:+ s) : strip s = (s, 0) := by
  have hstop : stripDimensions s.reverse = (s.reverse, 0) := by
    rw [stripDimensions]
    intro t ht
    refine h ⟨t.reverse, ?_⟩
    rw [← List.reverse_inj, ht]
    simp [dimension]
  rw [strip, hstop, List.reverse_reverse]

/-- The dimensions that are taken off leave a base, and with it they spell the text. The dimensions
are taken off the end, each with the blanks before it, until what is left does not end in one. -/
theorem spells_strip {s : List Char} (hstart : IsTrimmedStart s) (hend : IsTrimmedEnd s) :
    Spells (strip s).1 (strip s).2 s := by
  -- on the length of the text, which a dimension and the blanks before it are part of
  by_cases h : dimension <:+ s
  · obtain ⟨t, rfl⟩ := h
    obtain ⟨gap, hgap, ht⟩ := exists_eq_trimEnd_append t
    have hshorter : (trimEnd t).length < (t ++ dimension).length := by
      have hlength := congrArg List.length ht
      rw [List.length_append] at hlength ⊢
      simp only [dimension, List.length_cons, List.length_nil]
      omega
    have hstart' : IsTrimmedStart (trimEnd t) := by
      rw [ht, List.append_assoc] at hstart
      exact hstart.of_append
    obtain ⟨hb, gaps, hlength, hgaps, hspelt⟩ := spells_strip hstart' (isTrimmedEnd_trimEnd t)
    rw [strip_append_dimension]
    refine ⟨hb, gaps ++ [gap], ?_, ?_, ?_⟩
    · rw [List.length_append, hlength, List.length_singleton]
    · exact List.forall_mem_append.2 ⟨hgaps, List.forall_mem_singleton.2 hgap⟩
    · rw [dimensions_concat, ← List.append_assoc, ← List.append_assoc, ← hspelt, ← ht]
  · -- there is no dimension, so the text is the base
    rw [strip_of_plain h]
    exact ⟨⟨hstart, hend, h⟩, [], rfl, by simp, by simp [dimensions]⟩
termination_by s.length

/-- A text is spelt in one way only. -/
theorem strip_of_spells (h : Spells b n s) : strip s = (b, n) := by
  obtain ⟨hb, gaps, rfl, hgaps, rfl⟩ := h
  induction gaps using List.reverseRecOn with
  | nil =>
    rw [dimensions, List.flatMap_nil, List.append_nil]
    exact strip_of_plain hb.plain
  | append_singleton gaps gap ih =>
    have hblank : ∀ g ∈ gaps, IsBlankText g := fun g hg => hgaps g (List.mem_append_left _ hg)
    have hgap : IsBlankText gap := hgaps gap (List.mem_append_right _ (List.mem_singleton.2 rfl))
    have hspelt : Spells b gaps.length (b ++ dimensions gaps) := ⟨hb, gaps, rfl, hblank, rfl⟩
    -- the blanks before the last dimension go, and what is left ends in none
    rw [dimensions_concat, ← List.append_assoc, ← List.append_assoc, strip_append_dimension,
      trimEnd_append hspelt.isTrimmedEnd hgap, ih hblank, List.length_append, List.length_singleton]

theorem spells_trim_iff (text : List Char) : Spells b n (trim text) ↔ split text = (b, n) := by
  rw [split_eq_strip]
  constructor
  · exact strip_of_spells
  · intro h
    have hspelt := spells_strip (isTrimmedStart_trim text) (isTrimmedEnd_trim text)
    rwa [h] at hspelt

/-- The blanks around a spelt text are trimmed, and those before the first dimension if the base is
empty. -/
theorem spells_trim_append {lead trail : List Char} (hb : IsBase b)
    (hgaps : ∀ g ∈ gaps, IsBlankText g) (hlead : IsBlankText lead) (htrail : IsBlankText trail) :
    Spells b gaps.length (trim (lead ++ b ++ dimensions gaps ++ trail)) := by
  -- a spelt text that starts with no blank is what is left of it with blanks around
  have htrimmed : ∀ {lead gaps}, IsBlankText lead → (∀ g ∈ gaps, IsBlankText g) →
      IsTrimmedStart (b ++ dimensions gaps) →
      Spells b gaps.length (trim (lead ++ (b ++ dimensions gaps) ++ trail)) := by
    intro lead gaps hlead hgaps hstart
    have hspelt : Spells b gaps.length (b ++ dimensions gaps) := ⟨hb, gaps, rfl, hgaps, rfl⟩
    rw [trim_append hlead htrail hstart hspelt.isTrimmedEnd]
    exact hspelt
  cases b with
  | cons c b =>
    rw [List.append_assoc lead]
    exact htrimmed hlead hgaps fun d hd => hb.starts d hd
  | nil =>
    cases gaps with
    | nil =>
      rw [List.append_assoc lead]
      exact htrimmed hlead hgaps fun d hd => by cases hd
    | cons gap gaps =>
      -- the blanks before the first dimension are at the front of the text, as those before the
      -- base were
      have hmoved : lead ++ [] ++ dimensions (gap :: gaps) ++ trail =
          (lead ++ gap) ++ ([] ++ dimensions ([] :: gaps)) ++ trail := by simp [dimensions]
      obtain ⟨hgap, hgaps⟩ := List.forall_mem_cons.1 hgaps
      have hrest : ∀ g ∈ [] :: gaps, IsBlankText g :=
        List.forall_mem_cons.2 ⟨isBlankText_nil, hgaps⟩
      rw [hmoved]
      refine htrimmed (hlead.append hgap) hrest fun c hc => ?_
      obtain rfl := Option.some.inj (show some '[' = some c from hc)
      decide

/-! ## Reading -/

theorem isGeneric_iff {c : Char} : isGeneric c = true ↔ c ∈ ['<', '>', '?'] := by
  simp [isGeneric, or_assoc]

theorem any_isGeneric_eq_false_iff :
    s.any isGeneric = false ↔ ∀ c ∈ s, c ∉ ['<', '>', '?'] := by
  rw [List.any_eq_false]
  simp only [isGeneric_iff]

/-- The characters of generic types are part of the base. -/
theorem any_isGeneric_iff {text : List Char} (h : Spells b n (trim text)) :
    b.any isGeneric = true ↔ ∃ c ∈ text, c ∈ ['<', '>', '?'] := by
  -- these characters are no blanks and no brackets, and nothing else is taken off
  have hmem : ∀ c ∈ ['<', '>', '?'], (c ∈ text ↔ c ∈ b) := by
    intro c hc
    have hother : isBlank c = false ∧ c ≠ '[' ∧ c ≠ ']' := by
      simp only [List.mem_cons, List.not_mem_nil, or_false] at hc
      rcases hc with rfl | rfl | rfl <;> decide
    rw [← mem_trim_iff hother.1, h.mem_iff hother.1 hother.2.1 hother.2.2]
  rw [List.any_eq_true]
  constructor
  · rintro ⟨c, hc, hgeneric⟩
    have hgeneric := isGeneric_iff.1 hgeneric
    exact ⟨c, (hmem c hgeneric).2 hc, hgeneric⟩
  · rintro ⟨c, hc, hgeneric⟩
    exact ⟨c, (hmem c hgeneric).1 hc, isGeneric_iff.2 hgeneric⟩

/-- A shorthand is read by its base and the number of its dimensions. -/
theorem read_of_spells {text : String} (h : Spells b n (trim text.toList)) :
    read text = if b.any isGeneric then .error (.notPlainName text)
      else .ok (.ofDimensions (.named ⟨String.ofList b⟩) n) := by
  have hsplit : split text.toList = (b, n) := (spells_trim_iff _).1 h
  rw [read, hsplit]

theorem existsUnique_spells (text : List Char) :
    ∃! spelling : List Char × Nat, Spells spelling.1 spelling.2 (trim text) :=
  ⟨split text, (spells_trim_iff text).2 rfl, fun _ h => ((spells_trim_iff text).1 h).symm⟩

theorem read_eq_error_iff (text : String) (e : DecodeError) :
    read text = .error e ↔
      e = .notPlainName text ∧ ∃ c ∈ text.toList, c ∈ ['<', '>', '?'] := by
  obtain ⟨⟨b, n⟩, h, -⟩ := existsUnique_spells text.toList
  rw [read_of_spells h, ← any_isGeneric_iff h]
  cases b.any isGeneric with
  | true => simp [eq_comm]
  | false => simp

theorem read_of_plain {text : String} (h : Spells b n (trim text.toList))
    (hplain : ∀ c ∈ text.toList, c ∉ ['<', '>', '?']) :
    read text = .ok (.ofDimensions (.named ⟨String.ofList b⟩) n) := by
  have hany : ¬ b.any isGeneric = true := by
    rw [any_isGeneric_iff h]
    rintro ⟨c, hc, hgeneric⟩
    exact hplain c hc hgeneric
  rw [read_of_spells h, if_neg hany]

/-- What is read does not depend on the text but for its base and the number of its dimensions. -/
theorem toOption_read_congr {text text' : String} (h : Spells b n (trim text.toList))
    (h' : Spells b n (trim text'.toList)) : (read text).toOption = (read text').toOption := by
  rw [read_of_spells h, read_of_spells h']
  cases b.any isGeneric <;> rfl

/-- Dimensions without blanks. -/
theorem dimensions_replicate (n : Nat) :
    dimensions (List.replicate n []) = (List.replicate n ['[', ']']).flatten := by
  rw [dimensions, List.flatMap_def, List.map_replicate, List.nil_append, dimension]

theorem spells_copies (hb : IsBase b) (n : Nat) :
    Spells b n (trim (b ++ (List.replicate n ['[', ']']).flatten)) := by
  have hgaps : ∀ g ∈ List.replicate n [], IsBlankText g := by
    intro g hg
    rw [List.eq_of_mem_replicate hg]
    exact isBlankText_nil
  have h := spells_trim_append hb hgaps isBlankText_nil isBlankText_nil
  rwa [List.length_replicate, List.nil_append, List.append_nil, dimensions_replicate] at h

theorem read_copies (hb : IsBase b) (hplain : ∀ c ∈ b, c ∉ ['<', '>', '?']) (n : Nat) :
    read (String.ofList (b ++ (List.replicate n ['[', ']']).flatten)) =
      .ok (.ofDimensions (.named ⟨String.ofList b⟩) n) := by
  have h : Spells b n
      (trim (String.ofList (b ++ (List.replicate n ['[', ']']).flatten)).toList) := by
    rw [String.toList_ofList]
    exact spells_copies hb n
  rw [read_of_spells h, any_isGeneric_eq_false_iff.2 hplain, if_neg Bool.false_ne_true]

end Shorthand

/-! ## Tables for arrays -/

namespace Decode

/-- The table that says "array of". -/
def arrayTable (component : Document) : Document :=
  .table [("component", component), ("kind", .text "array")]

/-- The table that names a type. -/
def namedTable (name : String) : Document := .table [("kind", .text "named"), ("name", .text name)]

/-- Tables for arrays inside each other, around something else. -/
def nestedArrays (inner : Document) : Nat → Document
  | 0 => inner
  | n + 1 => arrayTable (nestedArrays inner n)

theorem type_namedTable (name : String) : type (namedTable name) = .ok (.named ⟨name⟩) := rfl

theorem isOrdinary_arrayTable (d : Document) : (arrayTable d).isOrdinary = d.isOrdinary := by
  rw [Document.isOrdinary, arrayTable, Document.numbersFit, Document.entriesFit,
    Document.entriesFit, Document.entriesFit, Document.numbersFit, Bool.and_true, Bool.and_true]
  rfl

/-- A table for an array is read if its component is. -/
theorem type_arrayTable {d : Document} {t : TypeRef} (hd : d.isOrdinary = true)
    (ht : type d = .ok t) : type (arrayTable d) = .ok (.array t) := by
  have hordinary : (arrayTable d).isOrdinary = true := (isOrdinary_arrayTable d).trans hd
  have hparts : taggedEntries [("component", d), ("kind", .text "array")] =
      { component := .ok t } := by
    simp [taggedEntries, ht]
  rw [arrayTable] at hordinary ⊢
  rw [type, if_pos hordinary, hparts]
  rfl

theorem isOrdinary_nestedArrays {inner : Document} (h : inner.isOrdinary = true) (n : Nat) :
    (nestedArrays inner n).isOrdinary = true := by
  induction n with
  | zero => exact h
  | succ n ih => rw [nestedArrays, isOrdinary_arrayTable, ih]

theorem type_nestedArrays {inner : Document} {t : TypeRef} (hinner : inner.isOrdinary = true)
    (ht : type inner = .ok t) (n : Nat) :
    type (nestedArrays inner n) = .ok (.ofDimensions t n) := by
  induction n with
  | zero => exact ht
  | succ n ih => exact type_arrayTable (isOrdinary_nestedArrays hinner n) ih

end Decode

namespace Shorthand

open Text

/-- Every shorthand is spelt with one base and one number of dimensions. It is refused exactly if it
has a character that only generic types have, and is read as the type named by the base under so
many array dimensions else. So the same is read whatever blanks there are around the base and its
dimensions, and whether they are written out as tables or not. -/
theorem type_text :
    (∀ text : String,
      (∃! spelling : List Char × Nat, Spells spelling.1 spelling.2 (trim text.toList)) ∧
      (∀ e, Decode.type (.text text) = .error e ↔
        e = .notPlainName text ∧ ∃ c ∈ text.toList, c ∈ ['<', '>', '?']) ∧
      (∀ b n, Spells b n (trim text.toList) → (∀ c ∈ text.toList, c ∉ ['<', '>', '?']) →
        Decode.type (.text text) = .ok (.ofDimensions (.named ⟨String.ofList b⟩) n))) ∧
    (∀ b, IsBase b →
      (∀ lead gaps trail, IsBlankText lead → (∀ g ∈ gaps, IsBlankText g) → IsBlankText trail →
        (Decode.type (.text (String.ofList (lead ++ b ++ dimensions gaps ++ trail)))).toOption =
          (Decode.type (.text (String.ofList
            (b ++ (List.replicate gaps.length ['[', ']']).flatten)))).toOption) ∧
      ((∀ c ∈ b, c ∉ ['<', '>', '?']) → ∀ n,
        let t := TypeRef.ofDimensions (.named ⟨String.ofList b⟩) n
        Decode.type (.text (String.ofList (b ++ (List.replicate n ['[', ']']).flatten))) = .ok t ∧
          Decode.type (Decode.nestedArrays (.text (String.ofList b)) n) = .ok t ∧
          Decode.type (Decode.nestedArrays (Decode.namedTable (String.ofList b)) n) = .ok t)) := by
  constructor
  · intro text
    exact ⟨existsUnique_spells text.toList, read_eq_error_iff text,
      fun b n h hplain => read_of_plain h hplain⟩
  · intro b hb
    constructor
    · intro lead gaps trail hlead hgaps htrail
      -- both texts are spelt with `b` and as many dimensions
      refine toOption_read_congr (b := b) (n := gaps.length) ?_ ?_
      · rw [String.toList_ofList]
        exact spells_trim_append hb hgaps hlead htrail
      · rw [String.toList_ofList]
        exact spells_copies hb gaps.length
    · intro hplain n t
      -- without dimensions, the base alone names the type
      have hbase : Decode.type (.text (String.ofList b)) = .ok (.named ⟨String.ofList b⟩) := by
        have h := read_copies hb hplain 0
        rwa [List.replicate_zero, List.flatten_nil, List.append_nil] at h
      refine ⟨read_copies hb hplain n, ?_, ?_⟩
      · exact Decode.type_nestedArrays rfl hbase n
      · exact Decode.type_nestedArrays rfl (Decode.type_namedTable _) n

/-- Two dimensions, with blanks of several kinds around and between them. -/
theorem type_text_of_spaced :
    let text := "\tjava.lang.String []\u3000[]\n"
    Spells "java.lang.String".toList 2 (trim text.toList) ∧
    (∀ c ∈ text.toList, c ∉ ['<', '>', '?']) ∧
    Decode.type (.text text) = .ok (.array (.array (.named ⟨"java.lang.String"⟩))) ∧
    Decode.type (Decode.nestedArrays (Decode.namedTable "java.lang.String") 2) =
      Decode.type (.text text) := by
  intro text
  have hspelt : Spells "java.lang.String".toList 2 (trim text.toList) :=
    (spells_trim_iff _).2 (by cbv)
  have hplain : ∀ c ∈ text.toList, c ∉ ['<', '>', '?'] :=
    any_isGeneric_eq_false_iff.1 (by decide)
  have hbase : ∀ c ∈ "java.lang.String".toList, c ∉ ['<', '>', '?'] :=
    any_isGeneric_eq_false_iff.1 (by decide)
  obtain ⟨htexts, hbases⟩ := type_text
  have htext : Decode.type (.text text) = _ := (htexts text).2.2 _ 2 hspelt hplain
  have htable := ((hbases _ hspelt.1).2 hbase 2).2.2
  exact ⟨hspelt, hplain, htext, htable.trans htext.symm⟩

/-- Blanks inside the base are part of the name. -/
example : Decode.type (.text "a b [ ]") = .ok (.named ⟨"a b [ ]"⟩) := by cbv

end Shorthand

end StubGen
