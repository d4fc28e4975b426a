import StubGen.Text.Escape

/-!
# Reading escaped text back

Escaped text is read in two steps: each `\uXXXX` is the UTF-16 code unit that its digits spell, and
everything else stands for itself; then the code units are put together to characters. As long as
the text has no backslash of its own, nothing in it can be taken for an escape, and the escapes have
a fixed width, so that digits behind them are not taken for theirs. So the text comes back.

Main results:

* `decodeUtf16_utf16Units` — the code units of a character are put together again;
* `unescape_escapeNonAscii` — escaped text has the code units of the text;
* `escapeNonAscii_lossless` — escaped text is ASCII and is read back.
-/

namespace StubGen.Text

/-! ## Code units -/

/-- The first half of a pair. -/
def IsHighSurrogate (u : Nat) : Prop := 0xD800 ≤ u ∧ u < 0xDC00

/-- The second half of a pair. -/
def IsLowSurrogate (u : Nat) : Prop := 0xDC00 ≤ u ∧ u < 0xE000

instance (u : Nat) : Decidable (IsHighSurrogate u) := inferInstanceAs (Decidable (_ ∧ _))

instance (u : Nat) : Decidable (IsLowSurrogate u) := inferInstanceAs (Decidable (_ ∧ _))

/-- The characters of UTF-16 code units. Surrogates count in pairs only. -/
def decodeUtf16 : List Nat → Option (List Char)
  | [] => some []
  | u :: us =>
    if IsHighSurrogate u then
      match us with
      | v :: us =>
        if IsLowSurrogate v then
          (decodeUtf16 us).map (Char.ofNat (0x10000 + (u - 0xD800) * 0x400 + (v - 0xDC00)) :: ·)
        else none
      | [] => none
    else if IsLowSurrogate u ∨ 0x10000 ≤ u then none
    else (decodeUtf16 us).map (Char.ofNat u :: ·)

variable {c : Char} {s t : List Char} {u : Nat}

/-- The code points of characters leave out the surrogates. -/
theorem toNat_valid (c : Char) : c.toNat < 0xD800 ∨ 0xDFFF < c.toNat ∧ c.toNat < 0x110000 := c.valid

theorem lt_of_mem_utf16Units (h : u ∈ utf16Units c) : u < 0x10000 := by
  have hc := toNat_valid c
  rw [utf16Units] at h
  split at h
  · rw [List.mem_singleton.1 h]
    assumption
  · simp only [List.mem_cons, List.not_mem_nil, or_false] at h
    rcases h with h | h <;> omega

/-- Code units are read back as the character that they were written for, whatever comes behind
them. -/
theorem decodeUtf16_utf16Units (c : Char) (us : List Nat) :
    decodeUtf16 (utf16Units c ++ us) = (decodeUtf16 us).map (c :: ·) := by
  have hc := toNat_valid c
  rw [utf16Units]
  split
  · -- a character of the basic plane is its own code unit, and no surrogate
    have hhigh : ¬IsHighSurrogate c.toNat := by
      rw [IsHighSurrogate]
      omega
    have hlow : ¬(IsLowSurrogate c.toNat ∨ 0x10000 ≤ c.toNat) := by
      rw [IsLowSurrogate]
      omega
    rw [List.singleton_append, decodeUtf16.eq_def]
    simp only [if_neg hhigh, if_neg hlow, Char.ofNat_toNat]
  · -- any other character is a pair of surrogates, and the pair gives its number back
    have hhigh : IsHighSurrogate (0xD800 + (c.toNat - 0x10000) / 0x400) := by
      rw [IsHighSurrogate]
      omega
    have hlow : IsLowSurrogate (0xDC00 + (c.toNat - 0x10000) % 0x400) := by
      rw [IsLowSurrogate]
      omega
    -- the two carry the number between them, ten bits each
    have hsum : 0x10000 + (0xD800 + (c.toNat - 0x10000) / 0x400 - 0xD800) * 0x400 +
        (0xDC00 + (c.toNat - 0x10000) % 0x400 - 0xDC00) = c.toNat := by
      omega
    rw [List.cons_append, List.singleton_append, decodeUtf16.eq_def]
    simp only [if_pos hhigh, if_pos hlow, hsum, Char.ofNat_toNat]

theorem decodeUtf16_flatMap (s : List Char) : decodeUtf16 (s.flatMap utf16Units) = some s := by
  induction s with
  | nil => rfl
  | cons c s ih => rw [List.flatMap_cons, decodeUtf16_utf16Units, ih, Option.map_some]

/-! ## Escapes -/

/-- The value of a hexadecimal digit. -/
def hexValue? (c : Char) : Option Nat :=
  if 48 ≤ c.toNat ∧ c.toNat ≤ 57 then some (c.toNat - 48)
  else if 65 ≤ c.toNat ∧ c.toNat ≤ 70 then some (c.toNat - 55)
  else if 97 ≤ c.toNat ∧ c.toNat ≤ 102 then some (c.toNat - 87)
  else none

/-- The code unit that four hexadecimal digits spell. -/
def hexUnit? (a b c d : Char) : Option Nat := do
  return (← hexValue? a) * 0x1000 + (← hexValue? b) * 0x100 + (← hexValue? c) * 0x10 +
    (← hexValue? d)

/-- The code units of escaped text: those of the escapes, and those of the characters between
them. -/
def unescape : List Char → List Nat
  | [] => []
  | '\\' :: 'u' :: a :: b :: c :: d :: s =>
    match hexUnit? a b c d with
    | some u => u :: unescape s
    | none => utf16Units '\\' ++ unescape ('u' :: a :: b :: c :: d :: s)
  | c :: s => utf16Units c ++ unescape s

theorem hexValue?_upperHexDigit : ∀ n < 16, hexValue? (upperHexDigit n) = some n := by decide

theorem unescape_of_ne (h : c ≠ '\\') (s : List Char) :
    unescape (c :: s) = utf16Units c ++ unescape s := by
  rw [unescape]
  rintro a b c' d s' rfl
  exact absurd rfl h

theorem unescape_escapeUnit (h : u < 0x10000) (s : List Char) :
    unescape (escapeUnit u ++ s) = u :: unescape s := by
  have hdigit : ∀ k, hexValue? (upperHexDigit (k % 16)) = some (k % 16) := fun k =>
    hexValue?_upperHexDigit _ (Nat.mod_lt k (by decide))
  have hsum : u / 0x1000 % 16 * 0x1000 + u / 0x100 % 16 * 0x100 + u / 0x10 % 16 * 0x10 + u % 16 =
      u := by
    omega
  have hunit : hexUnit? (upperHexDigit (u / 0x1000 % 16)) (upperHexDigit (u / 0x100 % 16))
      (upperHexDigit (u / 0x10 % 16)) (upperHexDigit (u % 16)) = some u := by
    simp only [hexUnit?, hdigit, Option.bind_eq_bind, Option.bind_some, hsum]
    rfl
  show unescape ('\\' :: 'u' :: _ :: _ :: _ :: _ :: s) = _
  rw [unescape, hunit]

theorem unescape_flatMap_escapeUnit {us : List Nat} (h : ∀ u ∈ us, u < 0x10000) (s : List Char) :
    unescape (us.flatMap escapeUnit ++ s) = us ++ unescape s := by
  induction us with
  | nil => rfl
  | cons u us ih =>
    rw [List.flatMap_cons, List.append_assoc, unescape_escapeUnit (h u List.mem_cons_self),
      ih fun v hv => h v (List.mem_cons_of_mem _ hv), List.cons_append]

theorem unescape_escapeChar (h : c ≠ '\\') (s : List Char) :
    unescape (escapeChar c ++ s) = utf16Units c ++ unescape s := by
  rw [escapeChar]
  split
  · exact unescape_of_ne h s
  · exact unescape_flatMap_escapeUnit (fun _ => lt_of_mem_utf16Units) s

/-- Escaped text has the code units of the text. -/
theorem unescape_escapeNonAscii (h : '\\' ∉ s) :
    unescape (escapeNonAscii s) = s.flatMap utf16Units := by
  induction s with
  | nil => rfl
  | cons c s ih =>
    rw [List.mem_cons, not_or] at h
    rw [escapeNonAscii, List.flatMap_cons, unescape_escapeChar (Ne.symm h.1), List.flatMap_cons]
    exact congrArg _ (ih h.2)

/-! ## What is written -/

theorem ascii_of_mem_escapeUnit (h : c ∈ escapeUnit u) : c.toNat < 0x80 := by
  have hdigits : ∀ n < 16, (upperHexDigit n).toNat < 0x80 := by decide
  have hdigit : ∀ k, (upperHexDigit (k % 16)).toNat < 0x80 := fun k =>
    hdigits _ (Nat.mod_lt k (by decide))
  simp only [escapeUnit, List.mem_cons, List.not_mem_nil, or_false] at h
  rcases h with rfl | rfl | rfl | rfl | rfl | rfl
  · decide
  · decide
  all_goals exact hdigit _

theorem ascii_of_mem_escapeNonAscii (h : c ∈ escapeNonAscii s) : c.toNat < 0x80 := by
  obtain ⟨d, -, hc⟩ := List.mem_flatMap.1 h
  rw [escapeChar] at hc
  split at hc
  · rwa [List.mem_singleton.1 hc]
  · obtain ⟨u, -, hu⟩ := List.mem_flatMap.1 hc
    exact ascii_of_mem_escapeUnit hu

/-- Escaped text is ASCII, and ASCII text stays as it is; texts are escaped piece by piece; and a
text without a backslash is read back from its escaped form, so that no two such texts share it. -/
theorem escapeNonAscii_lossless (s t : List Char) :
    (∀ c ∈ escapeNonAscii s, c.toNat < 0x80) ∧
    (escapeNonAscii s = s ↔ ∀ c ∈ s, c.toNat < 0x80) ∧
    escapeNonAscii (s ++ t) = escapeNonAscii s ++ escapeNonAscii t ∧
    ('\\' ∉ s → decodeUtf16 (unescape (escapeNonAscii s)) = some s) ∧
    ('\\' ∉ s → '\\' ∉ t → (escapeNonAscii s = escapeNonAscii t ↔ s = t)) := by
  have hread : ∀ {s : List Char}, '\\' ∉ s →
      decodeUtf16 (unescape (escapeNonAscii s)) = some s := by
    intro s h
    rw [unescape_escapeNonAscii h, decodeUtf16_flatMap]
  refine ⟨fun c hc => ascii_of_mem_escapeNonAscii hc, ⟨fun h c hc => ?_, escapeNonAscii_of_ascii⟩,
    escapeNonAscii_append s t, hread, fun hs ht => ⟨fun h => ?_, congrArg _⟩⟩
  · rw [← h] at hc
    exact ascii_of_mem_escapeNonAscii hc
  · have hs := hread hs
    rw [h, hread ht] at hs
    exact (Option.some.inj hs).symm

theorem escapeNonAscii_lossless_of_mixed :
    let s := "Größe 𝔸FF00".toList
    let t := "Größe 𝔸FF0".toList
    ('\\' ∉ s ∧ '\\' ∉ t) ∧
      escapeNonAscii s = "Gr\\u00F6\\u00DFe \\uD835\\uDD38FF00".toList ∧
      decodeUtf16 (unescape (escapeNonAscii s)) = some s ∧ escapeNonAscii s ≠ escapeNonAscii t := by
  intro s t
  have hs : '\\' ∉ s := by decide
  have ht : '\\' ∉ t := by decide
  obtain ⟨-, -, -, hread, hinj⟩ := escapeNonAscii_lossless s t
  exact ⟨⟨hs, ht⟩, by decide, hread hs, fun h => absurd ((hinj hs ht).1 h) (by decide)⟩

/-- A backslash of the text can be taken for an escape. -/
example : escapeNonAscii "\\u00E9".toList = escapeNonAscii "é".toList := by decide

end StubGen.Text
