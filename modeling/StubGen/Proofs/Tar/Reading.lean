import StubGen.Proofs.Tar.EntryName
import StubGen.Tar.Archiver
import Mathlib.Algebra.Group.Nat.Defs

/-!
# Reading archives back

An archive is read block by block: a header tells what follows and how long it is, an entry that
holds a name gives it to the entry after it, and two blocks of zeros end the archive. Headers of
which the checksum is wrong are refused. What the archiver writes for a plain name is read back as
that name and the data, byte for byte.

Main results:

* `number?_octalField`, `number?_sizeField` — numbers are read back;
* `readHeader_toBytes` — and so are headers;
* `entry_of_isPlainName` — an entry of a plain name is written and read back, however long the name
  is.
-/

namespace StubGen.Tar

/-! ## Numbers -/

/-- The number that digits in a base spell. -/
def value (base : Nat) (ds : List Nat) : Nat := ds.foldl (fun n d => n * base + d) 0

/-- The number in a field: octal digits up to a zero, or a marked number in base 256. -/
def number? (field : List UInt8) : Option Nat :=
  if field.head? = some 128 then some (value 256 (field.tail.map UInt8.toNat))
  else
    let ds := field.takeWhile (· != 0)
    if ds.all fun b => 48 ≤ b && b ≤ 55 then some (value 8 (ds.map fun b => b.toNat - 48)) else none

/-- Digits are read back as the number they were written for, if it has no more than `width` of
them. The last digit is written last, and the digits before it are those of the quotient. -/
theorem value_digits {base : Nat} (hbase : 0 < base) {width n : Nat} (h : n < base ^ width) :
    value base (digits base width n) = n := by
  induction width generalizing n with
  | zero =>
    obtain rfl : n = 0 := by simpa using h
    rfl
  | succ width ih =>
    have hquotient : n / base < base ^ width := by
      rw [Nat.div_lt_iff_lt_mul hbase, ← Nat.pow_succ]
      exact h
    rw [digits, value, List.foldl_append]
    show value base (digits base width (n / base)) * base + n % base = n
    rw [ih hquotient, Nat.mul_comm]
    exact Nat.div_add_mod n base

theorem lt_of_mem_digits {base : Nat} (hbase : 0 < base) {width n d : Nat}
    (h : d ∈ digits base width n) : d < base := by
  induction width generalizing n with
  | zero => cases h
  | succ width ih =>
    rcases List.mem_append.1 h with h | h
    · exact ih h
    · rw [List.mem_singleton.1 h]
      exact Nat.mod_lt _ hbase

theorem toNat_octalDigit {d : Nat} (h : d < 8) : (UInt8.ofNat (48 + d)).toNat = 48 + d := by
  rw [UInt8.toNat_ofNat', Nat.mod_eq_of_lt (by omega)]

theorem mem_octal {width n : Nat} {b : UInt8} (h : b ∈ octal width n) :
    48 ≤ b.toNat ∧ b.toNat ≤ 55 := by
  obtain ⟨d, hd, rfl⟩ := List.mem_map.1 h
  have hlt := lt_of_mem_digits (by decide) hd
  rw [toNat_octalDigit hlt]
  omega

/-- A field of octal digits is read back as the number in it. The field ends in a zero, which is no
digit, and no octal digit is taken for the mark of a field in base 256. -/
theorem number?_octalField {width n : Nat} (h : n < 8 ^ width) :
    number? (octalField width n) = some n := by
  -- the digits are read up to the zero behind them
  have hne : ∀ b ∈ octal width n, (b != 0) = true := by
    intro b hb
    rw [bne_iff_ne]
    rintro rfl
    exact absurd (mem_octal hb).1 (by decide)
  have htake : (octalField width n).takeWhile (· != 0) = octal width n := by
    rw [octalField, List.takeWhile_append_of_pos hne]
    simp
  have hmark : (octalField width n).head? ≠ some 128 := by
    intro hhead
    rcases List.mem_append.1 (List.mem_of_mem_head? hhead) with hmem | hmem
    · exact absurd (mem_octal hmem).2 (by decide)
    · cases hmem with
      | tail _ h => cases h
  -- all of them are octal digits, and their values are the digits of the number
  have hall : (octal width n).all (fun b => 48 ≤ b && b ≤ 55) = true := by
    rw [List.all_eq_true]
    intro b hb
    have hb := mem_octal hb
    simp only [Bool.and_eq_true, decide_eq_true_eq, UInt8.le_iff_toNat_le]
    exact hb
  have hdigits : (octal width n).map (fun b => b.toNat - 48) = digits 8 width n := by
    rw [octal, List.map_map]
    conv_rhs => rw [← List.map_id (digits 8 width n)]
    refine List.map_congr_left fun d hd => ?_
    have hlt := lt_of_mem_digits (by decide) hd
    show (UInt8.ofNat (48 + d)).toNat - 48 = d
    rw [toNat_octalDigit hlt]
    omega
  rw [number?, if_neg hmark, htake]
  simp only [hall, if_true, hdigits, value_digits (show 0 < 8 by decide) h]

/-- The first length that a size field cannot hold. -/
def sizeLimit : Nat := 256 ^ 11

theorem number?_sizeField {n : Nat} (h : n < sizeLimit) : number? (sizeField n) = some n := by
  rw [sizeField]
  split
  · rename_i hoctal
    exact number?_octalField (Nat.lt_of_lt_of_eq hoctal (by decide))
  · have hdigits : ((digits 256 11 n).map UInt8.ofNat).map UInt8.toNat = digits 256 11 n := by
      rw [List.map_map]
      conv_rhs => rw [← List.map_id (digits 256 11 n)]
      refine List.map_congr_left fun d hd => ?_
      have hlt := lt_of_mem_digits (by decide) hd
      show (UInt8.ofNat d).toNat = d
      rw [UInt8.toNat_ofNat', Nat.mod_eq_of_lt hlt]
    rw [number?, List.head?_cons, if_pos rfl, List.tail_cons, hdigits, value_digits (by decide) h]

/-! ## Headers -/

/-- What a header tells a reader. -/
structure ReadHeader where
  /-- The name in the header, up to the first zero. -/
  name : List UInt8
  /-- The number of data bytes. -/
  size : Nat
  flag : UInt8
deriving DecidableEq

/-- The header in a block, if its numbers are numbers and its checksum is right. -/
def readHeader (block : List UInt8) : Option ReadHeader := do
  let size ← number? ((block.drop 124).take 12)
  let checksum ← number? ((block.drop 148).take 8)
  let flag ← block[156]?
  if Header.sum (block.take 148) + 8 * 32 + Header.sum (block.drop 156) = checksum then
    return ⟨(block.take nameSize).takeWhile (· != 0), size, flag⟩
  else none

variable {h : Header}

theorem length_front (hname : h.name.bytes.length = nameSize) : h.front.length = 148 := by
  simp only [Header.front, List.length_append, length_octalField, length_owner, length_sizeField,
    hname, nameSize]

theorem sum_le (bs : List UInt8) : Header.sum bs ≤ 255 * bs.length := by
  induction bs with
  | nil => exact Nat.zero_le _
  | cons b bs ih =>
    have hb : b.toNat < 256 := b.toNat_lt
    simp only [Header.sum, List.length_cons]
    omega

/-- Seven octal digits are enough for a checksum. -/
theorem checksum_lt (hname : h.name.bytes.length = nameSize) : h.checksum < 8 ^ 7 := by
  have hfront := sum_le h.front
  have hback := sum_le h.back
  rw [length_front hname] at hfront
  rw [h.length_back] at hback
  have hpower : (8 : Nat) ^ 7 = 2097152 := by decide
  rw [Header.checksum, hpower]
  omega

/-- A header is read back: the reader cuts the block at the offsets at which the fields were put,
and finds the checksum in its place and right. -/
theorem readHeader_toBytes (hname : h.name.bytes.length = nameSize) (hsize : h.size < sizeLimit) :
    readHeader h.toBytes = some ⟨h.name.text, h.size, h.kind.flag⟩ := by
  have hfront := length_front hname
  have hchecksum : (octalField 7 h.checksum).length = 8 := length_octalField 7 _
  -- the block, cut at the checksum
  have htake : h.toBytes.take 148 = h.front := by
    rw [Header.toBytes, List.append_assoc, List.take_left' hfront]
  have hdrop : h.toBytes.drop 148 = octalField 7 h.checksum ++ h.back := by
    rw [Header.toBytes, List.append_assoc, List.drop_left' hfront]
  have hback : h.toBytes.drop 156 = h.back := by
    rw [Header.toBytes, List.drop_left']
    rw [List.length_append, hfront, hchecksum]
  -- the flag comes right behind the checksum
  have hflag : h.toBytes[156]? = some h.kind.flag := by
    rw [← List.head?_drop, hback]
    rfl
  -- the fields before it
  have hnameField : h.toBytes.take nameSize = h.name.bytes := by
    rw [Header.toBytes, Header.front]
    simp only [List.append_assoc]
    exact List.take_left' hname
  have hsizeField : (h.toBytes.drop 124).take 12 = sizeField h.size := by
    have hbefore : (h.name.bytes ++ octalField 7 Header.mode ++ h.kind.owner ++
        h.kind.owner).length = 124 := by
      simp only [List.length_append, length_octalField, length_owner, hname, nameSize]
    rw [Header.toBytes, Header.front]
    rw [show h.name.bytes ++ octalField 7 Header.mode ++ h.kind.owner ++ h.kind.owner ++
        sizeField h.size ++ octalField 11 0 ++ octalField 7 h.checksum ++ h.back =
      (h.name.bytes ++ octalField 7 Header.mode ++ h.kind.owner ++ h.kind.owner) ++
        (sizeField h.size ++ (octalField 11 0 ++ octalField 7 h.checksum ++ h.back)) by
          simp only [List.append_assoc]]
    rw [List.drop_left' hbefore, List.take_left' (length_sizeField _)]
  -- the checksum was taken with spaces in its place, so the sum to compare with is the one written
  have hsum : Header.sum h.front + 8 * 32 + Header.sum h.back = h.checksum := rfl
  rw [readHeader, hsizeField, number?_sizeField hsize, hdrop, List.take_left' hchecksum,
    number?_octalField (checksum_lt hname), hflag, htake, hback, hnameField]
  simp only [Option.bind_eq_bind, Option.bind_some, hsum, if_true]
  rfl

/-- A header is no block of zeros: its numbers are written with digits. -/
theorem toBytes_ne_zeros (h : Header) : h.toBytes ≠ List.replicate blockSize 0 := by
  intro hzeros
  have hdigit : (48 : UInt8) ∈ octalField 7 Header.mode := by decide
  have hmem : (48 : UInt8) ∈ h.toBytes := by
    simp only [Header.toBytes, Header.front, List.mem_append, hdigit, or_true, true_or]
  rw [hzeros] at hmem
  exact absurd (List.eq_of_mem_replicate hmem) (by decide)

/-! ## Entries -/

/-- The number of bytes that data fills, in whole blocks. -/
def paddedLength (size : Nat) : Nat := size + (blockSize - size % blockSize) % blockSize

/-- The entries of an archive, by name and data, if it is read to its end. The name that an entry
before has given goes to the next one. -/
def read (name? : Option (List UInt8)) (bytes : List UInt8) :
    Option (List (List UInt8 × List UInt8)) :=
  if bytes.length < blockSize then none
  else if bytes.take blockSize = List.replicate blockSize 0 then
    if name? = none ∧ (bytes.drop blockSize).take blockSize = List.replicate blockSize 0 then
      some []
    else none
  else
    match readHeader (bytes.take blockSize) with
    | none => none
    | some h =>
      let data := (bytes.drop blockSize).take h.size
      let rest := (bytes.drop blockSize).drop (paddedLength h.size)
      if (bytes.drop blockSize).length < paddedLength h.size then none
      else if h.flag = EntryKind.longName.flag then
        if name? = none then read (some (data.takeWhile (· != 0))) rest else none
      else if h.flag = EntryKind.data.flag then
        (read none rest).map ((name?.getD h.name, data) :: ·)
      else none
termination_by bytes.length
decreasing_by
  all_goals
    have hblock : 0 < blockSize := by decide
    simp only [List.length_drop]
    omega

theorem length_padded (data : List UInt8) : (padded data).length = paddedLength data.length := by
  rw [padded, List.length_append, List.length_replicate, paddedLength]

/-- The record that is next is read, and then what follows it. A record of a long name tells the
name of the next one, and a record of data is an entry, under the name told before it if any. -/
theorem read_record (name? : Option (List UInt8)) (kind : EntryKind) {name : NameField}
    {data : List UInt8} (hname : name.bytes.length = nameSize) (hsize : data.length < sizeLimit)
    (rest : List UInt8) :
    read name? (record kind name data ++ rest) =
      match kind with
      | .longName => if name? = none then read (some (data.takeWhile (· != 0))) rest else none
      | .data => (read none rest).map ((name?.getD name.text, data) :: ·) := by
  have hlength : (Header.toBytes ⟨name, kind, data.length⟩).length = blockSize :=
    Header.length_toBytes _ hname
  have hbytes : record kind name data ++ rest =
      Header.toBytes ⟨name, kind, data.length⟩ ++ (padded data ++ rest) := by
    rw [record, List.append_assoc]
  -- the header takes one block, and the data with its padding the next ones
  have htake : (record kind name data ++ rest).take blockSize =
      Header.toBytes ⟨name, kind, data.length⟩ := by
    rw [hbytes, List.take_left' hlength]
  have hdrop : (record kind name data ++ rest).drop blockSize = padded data ++ rest := by
    rw [hbytes, List.drop_left' hlength]
  have hdata : (padded data ++ rest).take data.length = data := by
    rw [padded, List.append_assoc, List.take_left' rfl]
  have hrest : (padded data ++ rest).drop (paddedLength data.length) = rest :=
    List.drop_left' (length_padded data)
  -- there are enough bytes for both
  have hlong : ¬ (record kind name data ++ rest).length < blockSize := by
    rw [hbytes, List.length_append, hlength]
    omega
  have hwhole : ¬ (padded data ++ rest).length < paddedLength data.length := by
    rw [List.length_append, length_padded]
    omega
  rw [read, if_neg hlong, htake, if_neg (toBytes_ne_zeros _), readHeader_toBytes hname hsize, hdrop]
  simp only [hwhole, if_false, hdata, hrest]
  -- the flag tells the two kinds apart
  cases kind with
  | data => rw [if_neg (by decide), if_pos rfl]
  | longName => rw [if_pos rfl]

theorem read_endBlocks (rest : List UInt8) : read none (endBlocks ++ rest) = some [] := by
  have hblocks : endBlocks ++ rest =
      List.replicate blockSize 0 ++ (List.replicate blockSize 0 ++ rest) := by
    rw [endBlocks, Nat.two_mul, ← List.replicate_append_replicate, List.append_assoc]
  have hlength : (List.replicate blockSize (0 : UInt8)).length = blockSize := List.length_replicate
  have hlong : ¬ (endBlocks ++ rest).length < blockSize := by
    rw [hblocks, List.length_append, hlength]
    omega
  rw [read, if_neg hlong, hblocks, List.take_left' hlength, if_pos rfl, List.drop_left' hlength,
    List.take_left' hlength, if_pos ⟨rfl, rfl⟩]

/-- The name of an entry that holds a name. -/
theorem size_longNameField : longNameField.bytes.length = nameSize :=
  NameField.length_writeParts _ rfl

/-- An entry of a plain name is written whatever the length of the name and of the data. It is read
back as it is if size fields can hold these lengths. -/
theorem entry_of_isPlainName {name : String} (h : IsPlainName name) (data : List UInt8) :
    ∃ bytes, entry ⟨name⟩ data = .ok bytes ∧
      ((Text.utf8 name).length + 1 < sizeLimit → data.length < sizeLimit → ∀ rest,
        read none (bytes ++ rest) = (read none rest).map ((Text.utf8 name, data) :: ·)) := by
  -- a name that fits its field makes one record, a longer one two
  by_cases hfits : (Text.utf8 name).length ≤ nameSize
  · obtain ⟨f, hwrite, hf, htext⟩ := text_writeParts h hfits
    refine ⟨record .data f data, by rw [entry, hwrite], fun _ hdata rest => ?_⟩
    rw [read_record none .data hf hdata rest, Option.getD_none, htext]
  · rw [Nat.not_le] at hfits
    obtain ⟨f, hrefused, hf⟩ := writeParts_tooLong h hfits
    obtain ⟨g, hwrite, hg⟩ := exists_writeParts_cut h hf
    refine ⟨longNameRecord ⟨name⟩ ++ record .data g data, ?_, fun hname hdata rest => ?_⟩
    · -- the header of the data holds a start of the name
      rw [entry, hrefused]
      simp only [Nat.not_lt.2 (Nat.le_of_lt hfits), if_false]
      rw [FilePath.chars, hwrite]
    · -- the name is that of the entry before, up to the zero that closes it
      have hnul : ∀ b ∈ Text.utf8 name, (b != 0) = true := by
        intro b hb
        rw [bne_iff_ne]
        rintro rfl
        exact Text.zero_notMem_utf8 h.noNul hb
      have hlongName : (Text.utf8 name ++ [0]).takeWhile (· != 0) = Text.utf8 name := by
        rw [List.takeWhile_append_of_pos hnul]
        simp
      have hlength : (Text.utf8 name ++ [0]).length < sizeLimit := by
        rw [List.length_append]
        exact hname
      rw [List.append_assoc, longNameRecord,
        read_record none .longName size_longNameField hlength, if_pos rfl, hlongName,
        read_record _ .data hg hdata, Option.getD_some]

/-- An entry of a plain name is read back as it is, however long the name is. -/
theorem exists_entry {name : String} (h : IsPlainName name) {data : List UInt8}
    (hname : (Text.utf8 name).length + 1 < sizeLimit) (hdata : data.length < sizeLimit) :
    ∃ bytes, entry ⟨name⟩ data = .ok bytes ∧ ∀ rest,
      read none (bytes ++ rest) = (read none rest).map ((Text.utf8 name, data) :: ·) := by
  obtain ⟨bytes, hbytes, hread⟩ := entry_of_isPlainName h data
  exact ⟨bytes, hbytes, hread hname hdata⟩

end StubGen.Tar
