import StubGen.Proofs.FilePath

/-!
# Replacing the extension of a file

The extension of a file is cut off first, up to the `.` before it, and what is left is read as a
path again before the new extension is put on. That reading ends in the stem with a `.` behind it,
which is a file name unless the stem is itself a `.`: then it is the way to the parent directory,
and no extension can be put on.

Main results:

* `fileStem?_join` — the stem of a file name;
* `withExtension_join` — what becomes of a file whose extension is replaced.
-/

namespace StubGen.FilePath

variable {p q : FilePath} {n stem extension : String}

/-- A text that can be part of a file name. -/
structure IsPart (s : String) : Prop where
  ne_empty : s ≠ ""
  noSeparator : '/' ∉ s.toList

/-- The file name without its extension. -/
def fileStem? (p : FilePath) : Option String := p.fileName?.map fun n => (splitExtension n).1

theorem ext_chars (h : p.chars = q.chars) : p = q := congrArg FilePath.mk (String.toList_inj.1 h)

/-! ## File names -/

/-- A stem with a `.` and anything but a separator behind it is a segment. -/
theorem isSegment_of_stem (hstem : IsPart stem) (hextension : '/' ∉ extension.toList) :
    IsSegment (stem ++ "." ++ extension) := by
  have hpos : stem.length ≠ 0 := fun h => hstem.ne_empty (String.length_eq_zero_iff.1 h)
  have hlength : (stem ++ "." ++ extension).length = stem.length + 1 + extension.length := by
    rw [String.length_append, String.length_append]
    rfl
  refine ⟨fun h => ?_, fun h => ?_, ?_⟩
  · rw [h, String.length_empty] at hlength
    omega
  · have hone : ".".length = 1 := rfl
    rw [h, hone] at hlength
    omega
  · simp [hstem.noSeparator, hextension]

theorem isSegment_stem_dot (hstem : IsPart stem) : IsSegment (stem ++ ".") := by
  rw [← String.append_empty (s := stem ++ ".")]
  exact isSegment_of_stem hstem (by simp)

theorem ne_dots_of_stem (hstem : IsPart stem) (hextension : IsPart extension) :
    stem ++ "." ++ extension ≠ ".." := by
  intro h
  have hlength := congrArg String.length h
  have hpos : stem.length ≠ 0 := fun h => hstem.ne_empty (String.length_eq_zero_iff.1 h)
  have hpos' : extension.length ≠ 0 := fun h =>
    hextension.ne_empty (String.length_eq_zero_iff.1 h)
  have htwo : "..".length = 2 := rfl
  have hone : ".".length = 1 := rfl
  rw [String.length_append, String.length_append, hone, htwo] at hlength
  omega

theorem dot_append_dot : "." ++ "." = ".." := by decide

theorem stem_dot_eq_dots_iff : stem ++ "." = ".." ↔ stem = "." := by
  rw [← dot_append_dot, String.append_left_inj]

theorem component_eq_name (h : n ≠ "..") : component n = .name n := by
  rw [component, if_neg (by simpa using h)]

theorem fileName?_join (p : FilePath) (hn : IsSegment n) (h : n ≠ "..") :
    (p.join ⟨n⟩).fileName? = some n := by
  rw [fileName?, components_join p hn, List.getLast?_concat, component_eq_name h]

theorem fileName?_join_parent (p : FilePath) (hn : IsSegment "..") :
    (p.join ⟨".."⟩).fileName? = none := by
  rw [fileName?, components_join p hn, List.getLast?_concat]
  rfl

/-- A name with a stem is cut at the `.` before its extension. -/
theorem splitExtension_append (hstem : IsPart stem) (hdot : '.' ∉ extension.toList) :
    splitExtension (stem ++ "." ++ extension) = (stem, some extension) := by
  have hsplit : Text.splitLast? '.' (stem ++ "." ++ extension).toList =
      some (stem.toList, extension.toList) :=
    Text.splitLast?_eq_some_iff.2 ⟨by simp, hdot⟩
  have hne : stem.toList ≠ [] := fun h => hstem.ne_empty (String.toList_eq_nil_iff.1 h)
  rw [splitExtension, hsplit]
  cases hchars : stem.toList with
  | nil => exact absurd hchars hne
  | cons c cs => simp only [← hchars, String.ofList_toList]

theorem fileStem?_join (p : FilePath) (hstem : IsPart stem) (hextension : IsPart extension)
    (hdot : '.' ∉ extension.toList) :
    (p.join ⟨stem ++ "." ++ extension⟩).fileStem? = some stem := by
  rw [fileStem?, fileName?_join p (isSegment_of_stem hstem hextension.noSeparator)
    (ne_dots_of_stem hstem hextension), Option.map_some, splitExtension_append hstem hdot]

/-! ## Another extension -/

/-- Segments are appended to a path behind one and the same text. -/
theorem exists_chars_join (p : FilePath) :
    ∃ lead : List Char, ∀ n, IsSegment n → (p.join ⟨n⟩).chars = lead ++ n.toList := by
  refine ⟨if p.isEmpty || p.endsWithSlash then p.chars else p.chars ++ ['/'], fun n hn => ?_⟩
  rw [join_of_isSegment p hn]
  split <;> simp [chars]

/-- A text without another at its end. -/
theorem take_length_sub (lead : List Char) (s : String) :
    (lead ++ s.toList).take ((lead ++ s.toList).length - s.length) = lead := by
  rw [List.length_append, String.length_toList, Nat.add_sub_cancel, List.take_left]

/-- A text that ends in a name keeps a `.` at its end. -/
theorem dropTrailing_dot {c : Char} {cs : List Char} (hc : c ≠ '/') :
    dropTrailing ('.' :: c :: cs) = '.' :: c :: cs := by
  rw [dropTrailing]
  · simp
  · simpa using hc

/-- A path of which the last segment ends in a dot gets the new extension behind that dot: the stem
is found before the dot, and the old extension is nothing. -/
theorem setExtension_join (p : FilePath) {new : String} (hstem : IsPart stem) (hdot : stem ≠ ".")
    (hnew : IsPart new) :
    (p.join ⟨stem ++ "."⟩).setExtension new = p.join ⟨stem ++ "." ++ new⟩ := by
  obtain ⟨lead, hlead⟩ := exists_chars_join p
  have hsegment := isSegment_stem_dot hstem
  have hchars := hlead _ hsegment
  have hname : (p.join ⟨stem ++ "."⟩).fileName? = some (stem ++ ".") :=
    fileName?_join p hsegment fun h => hdot (stem_dot_eq_dots_iff.1 h)
  have hsplit : (splitExtension (stem ++ ".")).1 = stem := by
    rw [← String.append_empty (s := stem ++ "."), splitExtension_append hstem (by simp)]
  -- the stem does not end in a separator, so nothing is dropped behind it
  have hwhole : (dropTrailing (p.join ⟨stem ++ "."⟩).chars.reverse).reverse =
      lead ++ (stem ++ ".").toList := by
    obtain ⟨cs, c, hc⟩ : ∃ cs c, stem.toList = cs ++ [c] :=
      ⟨_, _, (List.dropLast_append_getLast fun h =>
        hstem.ne_empty (String.toList_eq_nil_iff.1 h)).symm⟩
    have hne : c ≠ '/' := fun h => hstem.noSeparator (by rw [hc, h]; simp)
    have hreverse : (lead ++ (stem ++ ".").toList).reverse =
        '.' :: c :: (cs.reverse ++ lead.reverse) := by simp [hc]
    rw [hchars, hreverse, dropTrailing_dot hne, ← hreverse, List.reverse_reverse]
  rw [setExtension, hname]
  simp only [hsplit, hwhole, take_length_sub]
  refine ext_chars ?_
  rw [hlead _ (isSegment_of_stem hstem hnew.noSeparator)]
  simp [chars, hnew.ne_empty]

/-- The extension of a file is replaced, unless the stem is a `.`. -/
theorem withExtension_join (p : FilePath) {old new : String} (hstem : IsPart stem)
    (hold : IsPart old) (hdot : '.' ∉ old.toList) (hnew : IsPart new) :
    (p.join ⟨stem ++ "." ++ old⟩).withExtension new =
      if stem = "." then p.join ⟨".."⟩ else p.join ⟨stem ++ "." ++ new⟩ := by
  have hsegment := isSegment_of_stem hstem hold.noSeparator
  have hextension : (p.join ⟨stem ++ "." ++ old⟩).extension? = some old := by
    rw [extension?, fileName?_join p hsegment (ne_dots_of_stem hstem hold), Option.bind_some,
      splitExtension_append hstem hdot]
  -- what is cut off is the extension without the dot before it
  have hcut : (⟨String.ofList ((p.join ⟨stem ++ "." ++ old⟩).chars.take
      ((p.join ⟨stem ++ "." ++ old⟩).chars.length - old.length))⟩ : FilePath) =
      p.join ⟨stem ++ "."⟩ := by
    obtain ⟨lead, hlead⟩ := exists_chars_join p
    refine ext_chars ?_
    rw [hlead _ (isSegment_stem_dot hstem), hlead _ hsegment, chars, String.toList_ofList]
    have hsplit : lead ++ (stem ++ "." ++ old).toList =
        lead ++ (stem ++ ".").toList ++ old.toList := by simp
    rw [hsplit, take_length_sub]
  -- of a stem `.` this leaves `..`, which is no file name, so no extension is set
  rw [withExtension, hextension, Option.map_some, Option.getD_some, hcut]
  split
  · rename_i hone
    have hparent := isSegment_stem_dot hstem
    rw [hone, dot_append_dot] at hparent ⊢
    rw [setExtension, fileName?_join_parent p hparent]
  · rename_i hone
    exact setExtension_join p hstem hone hnew

end StubGen.FilePath
