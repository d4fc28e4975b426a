import StubGen.Tar.EntryName

/-!
# Headers of archive entries

An entry starts with a header of one block, in the GNU layout: the fields stand at fixed places, the
numbers in octal, and one field holds the sum of all bytes of the header, itself taken as blanks.

Main results:

* `length_toBytes` — a header is one block.
-/

namespace StubGen.Tar

/-- The bytes of a block. -/
def blockSize : Nat := 512

/-- The last digits of a number in a base, the most significant first. -/
def digits (base : Nat) : (width : Nat) → Nat → List Nat
  | 0, _ => []
  | width + 1, n => digits base width (n / base) ++ [n % base]

/-- A number in octal digits. -/
def octal (width n : Nat) : List UInt8 := (digits 8 width n).map fun d => UInt8.ofNat (48 + d)

/-- A number in octal digits, closed by a zero. -/
def octalField (width n : Nat) : List UInt8 := octal width n ++ [0]

/-- The first number that eleven octal digits cannot hold. -/
def octalSizeLimit : Nat := 8589934592

/-- The size field: octal if eleven digits suffice, and else a marked number in base 256. -/
def sizeField (n : Nat) : List UInt8 :=
  if n < octalSizeLimit then octalField 11 n else 128 :: (digits 256 11 n).map UInt8.ofNat

/-- What an entry holds. -/
inductive EntryKind
  | data
  /-- The name of the entry that follows. -/
  | longName
deriving DecidableEq, Inhabited

/-- The byte that marks a kind. -/
def EntryKind.flag : EntryKind → UInt8
  | data => 0
  | longName => 76

/-- The field for an owner: files have none, and names have the first. -/
def EntryKind.owner : EntryKind → List UInt8
  | data => List.replicate 8 0
  | longName => octalField 7 0

/-- The header of an entry. -/
structure Header where
  name : NameField
  kind : EntryKind
  /-- The number of data bytes. -/
  size : Nat
deriving DecidableEq, Inhabited

namespace Header

/-- The permissions of every entry: its owner may write it, and everyone may read it. -/
def mode : Nat := 0o644

/-- The fields before the checksum. -/
def front (h : Header) : List UInt8 :=
  h.name.bytes ++ octalField 7 mode ++ h.kind.owner ++ h.kind.owner ++ sizeField h.size ++
    octalField 11 0

/-- The fields after the checksum: the kind, no link, the format and what the format leaves open. -/
def back (h : Header) : List UInt8 :=
  h.kind.flag :: List.replicate 100 0 ++ Text.utf8 "ustar  " ++ 0 :: List.replicate 247 0

/-- The sum of bytes. -/
def sum : List UInt8 → Nat
  | [] => 0
  | b :: bs => b.toNat + sum bs

/-- The sum of the header with blanks for the checksum. -/
def checksum (h : Header) : Nat := sum h.front + 8 * 32 + sum h.back

/-- The bytes of a header. -/
def toBytes (h : Header) : List UInt8 := h.front ++ octalField 7 h.checksum ++ h.back

end Header

theorem length_digits (base width n : Nat) : (digits base width n).length = width := by
  induction width generalizing n with
  | zero => rfl
  | succ w ih => simp [digits, ih]

theorem length_octalField (width n : Nat) : (octalField width n).length = width + 1 := by
  simp [octalField, octal, length_digits]

theorem length_sizeField (n : Nat) : (sizeField n).length = 12 := by
  unfold sizeField
  split
  · exact length_octalField 11 n
  · simp [length_digits]

theorem length_owner (k : EntryKind) : k.owner.length = 8 := by
  cases k with
  | data => simp [EntryKind.owner]
  | longName => exact length_octalField 7 0

theorem Header.length_back (h : Header) : h.back.length = 356 := by
  have : (Text.utf8 "ustar  ").length = 7 := by decide +kernel
  simp only [back, List.length_append, List.length_cons, List.length_replicate, this]

theorem Header.length_toBytes (h : Header) (hn : h.name.bytes.length = nameSize) :
    h.toBytes.length = blockSize := by
  simp only [toBytes, front, List.length_append, length_octalField, length_owner, length_sizeField,
    length_back, hn, nameSize, blockSize]

end StubGen.Tar
