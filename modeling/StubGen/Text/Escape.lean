/-!
# ASCII spelling of source text

A source file may spell any character outside ASCII by its UTF-16 code units, each written `\uXXXX`
with four upper-case hexadecimal digits. A character of the supplementary planes takes two such
escapes, a high surrogate followed by a low one.
-/

namespace StubGen.Text

/-- The UTF-16 code units of a character. -/
def utf16Units (c : Char) : List Nat :=
  let n := c.toNat
  if n < 0x10000 then [n]
  else [0xD800 + (n - 0x10000) / 0x400, 0xDC00 + (n - 0x10000) % 0x400]

/-- The upper-case hexadecimal digit of a number below sixteen. -/
def upperHexDigit (n : Nat) : Char :=
  if n < 10 then Char.ofNat (48 + n) else Char.ofNat (55 + n)

/-- A code unit as `\uXXXX`. -/
def escapeUnit (u : Nat) : List Char :=
  ['\\', 'u', upperHexDigit (u / 0x1000 % 16), upperHexDigit (u / 0x100 % 16),
    upperHexDigit (u / 0x10 % 16), upperHexDigit (u % 16)]

/-- A character as it is written in ASCII. -/
def escapeChar (c : Char) : List Char :=
  if c.toNat < 0x80 then [c] else (utf16Units c).flatMap escapeUnit

/-- A text with every character outside ASCII escaped. -/
def escapeNonAscii (s : List Char) : List Char := s.flatMap escapeChar

theorem escapeNonAscii_append (s t : List Char) :
    escapeNonAscii (s ++ t) = escapeNonAscii s ++ escapeNonAscii t := by
  simp [escapeNonAscii]

/-- ASCII text is its own spelling. -/
theorem escapeNonAscii_of_ascii {s : List Char} (h : ∀ c ∈ s, c.toNat < 0x80) :
    escapeNonAscii s = s := by
  induction s with
  | nil => rfl
  | cons c s ih =>
    simp only [List.mem_cons, forall_eq_or_imp] at h
    have := ih h.2
    simp only [escapeNonAscii] at this ⊢
    simp [escapeChar, h.1, this]

end StubGen.Text
