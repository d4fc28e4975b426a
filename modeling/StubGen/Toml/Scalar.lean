import StubGen.Metadata.Document
import StubGen.Text.Split
import StubGen.Toml.Text

/-!
# Truth values, numbers and dates of a TOML file

A value without quotes or brackets is a word. The words that mean something are the two truth
values, numbers and dates. No record of this library has a number or a date in it, so of a number
only the size matters, and of a date the form.
-/

namespace StubGen.Toml

/-- Digits with single underscores between them. -/
def isDigits (isDigit : Char → Bool) (s : List Char) : Bool :=
  (Text.pieces '_' s).all fun p => !p.isEmpty && p.all isDigit

def unsigned : List Char → List Char
  | '+' :: s | '-' :: s => s
  | s => s

/-- A whole number without sign in base ten; no zero leads. -/
def isWhole (s : List Char) : Bool :=
  isDigits Char.isDigit s && (s.length == 1 || s.head? != some '0')

def isHexDigit (c : Char) : Bool := c.isDigit || 'a' ≤ c && c ≤ 'f' || 'A' ≤ c && c ≤ 'F'

def isInteger : List Char → Bool
  | '0' :: 'x' :: s => isDigits isHexDigit s
  | '0' :: 'o' :: s => isDigits (fun c => '0' ≤ c && c ≤ '7') s
  | '0' :: 'b' :: s => isDigits (fun c => c == '0' || c == '1') s
  | s => isWhole (unsigned s)

/-- What follows the whole part of a number that is not whole. -/
def isFractionOrExponent : List Char → Bool
  | '.' :: s =>
    let (fraction, rest) := s.span fun c => c.isDigit || c == '_'
    isDigits Char.isDigit fraction &&
      match rest with
      | [] => true
      | 'e' :: s | 'E' :: s => isDigits Char.isDigit (unsigned s)
      | _ => false
  | 'e' :: s | 'E' :: s => isDigits Char.isDigit (unsigned s)
  | _ => false

def isFloat (s : List Char) : Bool :=
  let s := unsigned s
  let (whole, rest) := s.span fun c => c.isDigit || c == '_'
  s == "inf".toList || s == "nan".toList || isWhole whole && isFractionOrExponent rest

/-! ## The size of a number -/

/-- The number that digits make in a base; other characters do not count. -/
def natOfDigits (base : Nat) (s : List Char) : Nat :=
  (s.filterMap hexDigit?).foldl (fun a d => base * a + d) 0

/-- The size of a whole number: words have 64 bits, and negative ones keep a bit for the sign. -/
def wholeSize (isNegative : Bool) (n : Nat) : Magnitude :=
  let bits (k : Nat) := if isNegative then n ≤ Nat.pow 2 (k - 1) else n < Nat.pow 2 k
  if bits 64 then .ordinary else if bits 128 then .wide else .excessive

def integerSize : List Char → Magnitude
  | '0' :: 'x' :: s => wholeSize false (natOfDigits 16 s)
  | '0' :: 'o' :: s => wholeSize false (natOfDigits 8 s)
  | '0' :: 'b' :: s => wholeSize false (natOfDigits 2 s)
  | s => wholeSize (s.head? == some '-') (natOfDigits 10 s)

/-- The least amount that rounds to no finite number of double precision: half a unit in the last
place above the greatest of them. -/
def overflowBound : Nat := (Nat.pow 2 54 - 1) * Nat.pow 2 970

/-- Whether `m · 10 ^ e` rounds to no finite number. The order of magnitude decides where it can, so
that no large power is computed. -/
def overflows (m : Nat) (e : Int) : Bool :=
  let magnitude := e + (Nat.toDigits 10 m).length
  if m = 0 || magnitude ≤ 308 then false
  else if magnitude > 309 then true
  else
    match e with
    | .ofNat k => overflowBound ≤ m * Nat.pow 10 k
    | .negSucc k => overflowBound * Nat.pow 10 (k + 1) ≤ m

def floatSize (s : List Char) : Magnitude :=
  let (mantissa, rest) := (unsigned s).span fun c => c != 'e' && c != 'E'
  let digits := mantissa.filter Char.isDigit
  let fraction := (mantissa.dropWhile (· != '.')).filter Char.isDigit
  let exponent :=
    match rest.drop 1 with
    | '-' :: s => -(natOfDigits 10 s : Int)
    | s => natOfDigits 10 s
  if overflows (natOfDigits 10 digits) (exponent - fraction.length) then .excessive else .ordinary

/-! ## Dates -/

/-- The number that `n` leading digits make, with the text after them. -/
def digits (n : Nat) (s : List Char) : Option (Nat × List Char) := do
  let ds := s.take n
  guard (ds.length = n ∧ ds.all Char.isDigit)
  return (ds.foldl (fun a d => 10 * a + (d.toNat - 48)) 0, s.drop n)

/-- A character that has to come next. -/
def expect (c : Char) : List Char → Option (List Char)
  | x :: s => if x = c then some s else none
  | [] => none

def daysIn (year month : Nat) : Nat :=
  if month = 2 then
    if year % 4 = 0 ∧ (year % 100 ≠ 0 ∨ year % 400 = 0) then 29 else 28
  else if month = 4 ∨ month = 6 ∨ month = 9 ∨ month = 11 then 30
  else 31

/-- The text after a date. -/
def date? (s : List Char) : Option (List Char) := do
  let (year, s) ← digits 4 s
  let (month, s) ← digits 2 (← expect '-' s)
  let (day, s) ← digits 2 (← expect '-' s)
  guard (1 ≤ month ∧ month ≤ 12 ∧ 1 ≤ day ∧ day ≤ daysIn year month)
  return s

/-- The text after the seconds of a time, which may be left out. -/
def seconds? : List Char → Option (List Char)
  | ':' :: s => do
    let (second, s) ← digits 2 s
    guard (second ≤ 60)
    match s with
    | '.' :: s =>
      let (fraction, s) := s.span Char.isDigit
      guard !fraction.isEmpty
      return s
    | s => return s
  | s => some s

/-- The text after a time of day. -/
def time? (s : List Char) : Option (List Char) := do
  let (hour, s) ← digits 2 s
  let (minute, s) ← digits 2 (← expect ':' s)
  guard (hour ≤ 23 ∧ minute ≤ 59)
  seconds? s

/-- Whether nothing but a time zone follows. -/
def isZone : List Char → Bool
  | [] | ['Z'] | ['z'] => true
  | '+' :: s | '-' :: s =>
    match digits 2 s with
    | some (hour, ':' :: s) =>
      match digits 2 s with
      | some (minute, []) => hour ≤ 23 && minute ≤ 59
      | _ => false
    | _ => false
  | _ => false

def isDateTime (s : List Char) : Bool :=
  match date? s with
  | some [] => true
  | some (c :: s) =>
    (c == 'T' || c == 't' || c == ' ') &&
      match time? s with
      | some zone => isZone zone
      | none => false
  | none => time? s == some []

/-- A date, as the table with one reserved entry that records see. -/
def dateTime (s : List Char) : Document :=
  .table [("$__toml_private_datetime", .text (String.ofList s))]

/-- The meaning of a word. -/
def scalar? (s : List Char) : Option Document :=
  if s == "true".toList then some (.flag true)
  else if s == "false".toList then some (.flag false)
  else if isInteger s then some (.number (integerSize s))
  else if isFloat s then some (.number (floatSize s))
  else if isDateTime s then some (dateTime s)
  else none

end StubGen.Toml
