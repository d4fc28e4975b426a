import StubGen.Proofs.FilePath
import StubGen.Tar.Archiver
import Mathlib.Data.List.Induction

/-!
# Names that archives can hold

A name made of ordinary components can be the name of an archive entry, however long it is. If it
fits its field the field holds it, byte for byte. If not, the field holds a start of it, which may
end anywhere: within a component, behind a separator, or so that what is left of a component looks
like `.` or `..`. Whatever it looks like, it fits.

Main results:

* `NameField.exists_writeParts` — parts that fit are written one behind the other;
* `text_writeParts` — the field of a name that fits holds the name;
* `exists_writeParts_cut` — the start of a longer name fits.
-/

namespace StubGen

/-! ## Zeros among the bytes of a text -/

namespace Text

/-- Only the character NUL is written with a zero. -/
theorem zero_notMem_utf8 {s : String} (h : '\x00' ∉ s.toList) : 0 ∉ utf8 s := by
  have hcons : ∀ (n : Nat) (bs : List UInt8), n % 256 ≠ 0 → 0 ∉ bs → 0 ∉ UInt8.ofNat n :: bs := by
    intro n bs hn hbs hmem
    rcases List.mem_cons.1 hmem with hzero | hmem
    · have hvalue := congrArg UInt8.toNat hzero
      rw [UInt8.toNat_ofNat'] at hvalue
      exact hn hvalue.symm
    · exact hbs hmem
  intro hmem
  obtain ⟨c, hc, hzero⟩ := List.mem_flatMap.1 hmem
  have hne : c.val.toNat ≠ 0 := by
    intro hval
    have hnul : c = '\x00' := Char.ext (UInt32.toNat_inj.1 hval)
    exact h (hnul ▸ hc)
  refine absurd hzero ?_
  -- the last byte of a longer spelling is marked by its highest bit, and so are those before it
  have hlast : ∀ n, 0 ∉ [UInt8.ofNat (n % 64 + 128)] :=
    fun n => hcons _ _ (by omega) List.not_mem_nil
  simp only [String.utf8EncodeChar]
  split_ifs
  · exact hcons _ _ (by omega) List.not_mem_nil
  · exact hcons _ _ (by omega) (hlast _)
  · exact hcons _ _ (by omega) (hcons _ _ (by omega) (hlast _))
  · exact hcons _ _ (by omega) (hcons _ _ (by omega) (hcons _ _ (by omega) (hlast _)))

end Text

namespace Tar

/-! ## Parts in a field -/

namespace NameField

variable {f : NameField} {w : List UInt8}

/-- The field has been written up to its position. -/
structure Holds (f : NameField) (w : List UInt8) : Prop where
  size : f.bytes.length = nameSize
  position : f.position = w.length
  start : f.bytes.take w.length = w

/-- What was written into the field is closed by a zero or by the end of the field. -/
def Closed (f : NameField) : Prop := ∀ b ∈ (f.bytes.drop f.position).head?, b = 0

theorem holds_empty : empty.Holds [] := ⟨rfl, rfl, rfl⟩

theorem closed_empty : empty.Closed := by
  intro b hb
  exact List.eq_of_mem_replicate (List.mem_of_mem_head? hb)

/-- Bytes that fit are written behind those before them, and a zero behind them closes the field
unless it is full. -/
theorem exists_writeBytes (hf : f.Holds w) (new : List UInt8)
    (hfits : w.length + new.length ≤ nameSize) (hnul : 0 ∉ new) :
    ∃ g, f.writeBytes new = .ok g ∧ g.Holds (w ++ new) ∧ g.Closed := by
  have hwrite : f.writeBytes new =
      .ok ⟨((w ++ new) ++ 0 :: f.bytes.drop (w.length + new.length + 1)).take nameSize,
        (w ++ new).length⟩ := by
    rw [writeBytes, hf.position, hf.start, if_neg (by omega), if_neg (by simpa using hnul),
      List.length_append]
  have hlength : (w ++ new).length ≤ nameSize := by
    rw [List.length_append]
    exact hfits
  have hsize := hf.size
  refine ⟨_, hwrite, ⟨?_, rfl, ?_⟩, ?_⟩
  · -- the field keeps its size
    simp only [List.length_take, List.length_append, List.length_cons, List.length_drop, hf.size]
    omega
  · -- what is written comes first
    rw [List.take_take, Nat.min_eq_left hlength, List.take_left' rfl]
  · intro b hb
    -- behind it is the zero, if there was room for one
    simp only [List.drop_take, List.drop_left' rfl] at hb
    cases hroom : nameSize - (w ++ new).length with
    | zero =>
      rw [hroom] at hb
      cases hb
    | succ n =>
      rw [hroom] at hb
      exact (Option.some.inj hb).symm

/-- Parts that fit are written one behind the other. Each of them closes the field again, so the
field is closed in the end if it was so before, or if there is any part at all. -/
theorem exists_writeParts (hf : f.Holds w) (parts : List (List UInt8))
    (hfits : w.length + parts.flatten.length ≤ nameSize) (hnul : 0 ∉ parts.flatten) :
    ∃ g, f.writeParts (parts.map .ok) = (none, g) ∧ g.Holds (w ++ parts.flatten) ∧
      (f.Closed → g.Closed) := by
  induction parts generalizing f w with
  | nil =>
    refine ⟨f, rfl, ?_, id⟩
    rwa [List.flatten_nil, List.append_nil]
  | cons new parts ih =>
    rw [List.flatten_cons, List.length_append] at hfits
    rw [List.flatten_cons, List.mem_append, not_or] at hnul
    obtain ⟨f', hwrite, hf', hclosed⟩ := exists_writeBytes hf new (by omega) hnul.1
    obtain ⟨g, hrest, hg, hclosed'⟩ := ih hf' (by rw [List.length_append]; omega) hnul.2
    refine ⟨g, ?_, ?_, fun _ => hclosed' hclosed⟩
    · rw [List.map_cons, writeParts, hwrite]
      exact hrest
    · rwa [List.flatten_cons, ← List.append_assoc]

/-- Parts that do not fit are refused. Those before the first one that has no room are written, so
the field that is left is not the one before, but it has the size of a name field. -/
theorem exists_writeParts_tooLong (hf : f.Holds w) (hw : w.length ≤ nameSize)
    (parts : List (List UInt8)) (hlong : nameSize < w.length + parts.flatten.length)
    (hnul : 0 ∉ parts.flatten) :
    ∃ g, f.writeParts (parts.map .ok) = (some .tooLong, g) ∧ g.bytes.length = nameSize := by
  induction parts generalizing f w with
  | nil =>
    rw [List.flatten_nil, List.length_nil] at hlong
    omega
  | cons new parts ih =>
    rw [List.flatten_cons, List.length_append] at hlong
    rw [List.flatten_cons, List.mem_append, not_or] at hnul
    by_cases hnew : w.length + new.length ≤ nameSize
    · obtain ⟨f', hwrite, hf', -⟩ := exists_writeBytes hf new hnew hnul.1
      -- the part fits, so one of those after it does not
      have hlength : (w ++ new).length = w.length + new.length := List.length_append
      obtain ⟨g, hrest, hg⟩ := ih hf' (by omega) (by omega) hnul.2
      refine ⟨g, ?_, hg⟩
      rw [List.map_cons, writeParts, hwrite]
      exact hrest
    · refine ⟨f, ?_, hf.size⟩
      -- the part is the first one that has no room
      have hposition := hf.position
      rw [List.map_cons, writeParts, writeBytes, if_pos (by omega)]

/-- The text of a closed field is what was written to it, with nothing of an older text behind it. -/
theorem text_of_holds (hf : f.Holds w) (hclosed : f.Closed) (hnul : 0 ∉ w) : f.text = w := by
  have hbytes : f.bytes = w ++ f.bytes.drop f.position := by
    conv_lhs => rw [← List.take_append_drop w.length f.bytes, hf.start, ← hf.position]
  -- reading stops at the first zero: it is behind the text, or there is none in a full field
  rw [text, hbytes, List.takeWhile_append_of_pos]
  · rw [Closed] at hclosed
    cases hrest : f.bytes.drop f.position with
    | nil => simp
    | cons b bs =>
      rw [hrest] at hclosed
      obtain rfl := hclosed b rfl
      simp
  · intro b hb
    rw [bne_iff_ne]
    rintro rfl
    exact hnul hb
end NameField

theorem restart_holds {f : NameField} (hf : f.bytes.length = nameSize) : f.restart.Holds [] :=
  ⟨hf, rfl, rfl⟩

/-! ## What names contribute -/

/-- The bytes of names, with separators between them. -/
def partsOf : (hasPrevious : Bool) → List String → List (List UInt8)
  | _, [] => []
  | hasPrevious, n :: ns =>
    (if hasPrevious then [[separator]] else []) ++ Text.utf8 n :: partsOf true ns

theorem contributions_names (isCut hasPrevious : Bool) (ns : List String)
    (cs : List PathComponent) :
    contributions isCut hasPrevious (ns.map .name ++ cs) =
      (partsOf hasPrevious ns).map .ok ++ contributions isCut (hasPrevious || !ns.isEmpty) cs := by
  induction ns generalizing hasPrevious with
  | nil => simp [partsOf]
  | cons n ns ih =>
    have hname : ∀ isLast, component isCut isLast (.name n) = .ok (Text.utf8 n) := fun _ => rfl
    rw [List.map_cons, List.cons_append, contributions, hname]
    simp only [ih, partsOf]
    cases hasPrevious <;> simp

theorem partsOf_concat (hasPrevious : Bool) (ns : List String) (n : String) :
    partsOf hasPrevious (ns ++ [n]) = partsOf hasPrevious ns ++
      ((if hasPrevious || !ns.isEmpty then [[separator]] else []) ++ [Text.utf8 n]) := by
  induction ns generalizing hasPrevious with
  | nil => simp [partsOf]
  | cons m ns ih => simp [partsOf, ih]

/-- The bytes of a text are those of its pieces, with separators between them. The parts of a name
are formed from its front, one separator before each part but the first, hence the induction from
the end. -/
theorem utf8_join (ps : List (List Char)) :
    Text.utf8 (String.ofList (Text.join '/' ps)) =
      (partsOf false (ps.map String.ofList)).flatten := by
  induction ps using List.reverseRecOn with
  | nil => rfl
  | append_singleton ps q ih =>
    rw [List.map_append, List.map_singleton, partsOf_concat, List.flatten_append, ← ih,
      Text.join_concat]
    cases ps with
    | nil => simp [Text.join, Text.utf8]
    | cons p ps =>
      have hslash : String.utf8EncodeChar '/' = [separator] := by decide
      rw [if_neg (List.cons_ne_nil p ps), String.ofList_append, Text.utf8_append]
      simp [Text.utf8, hslash]

/-! ## Plain names and what is cut off them -/

/-- A component that is neither empty nor `.` or `..`, and can be written to a field. -/
structure IsPlain (q : List Char) : Prop where
  ne_nil : q ≠ []
  ne_dot : q ≠ ['.']
  ne_dots : q ≠ ['.', '.']
  noNul : '\x00' ∉ q

variable {p : FilePath} {whole : List (List Char)} {cut : List Char}

theorem isAbsolute_of_pieces (hpieces : Text.pieces '/' p.chars = whole ++ [cut])
    (hwhole : ∀ q ∈ whole, IsPlain q) (hne : p.chars ≠ []) : p.isAbsolute = false := by
  rw [FilePath.isAbsolute, beq_eq_false_iff_ne]
  intro hhead
  obtain ⟨xs, hxs⟩ : ∃ xs, p.chars = '/' :: xs := by
    cases hchars : p.chars with
    | nil => exact absurd hchars hne
    | cons x xs =>
      rw [hchars] at hhead
      exact ⟨xs, by rw [Option.some.inj hhead]⟩
  -- a leading separator has an empty piece before it
  rw [hxs, Text.pieces, if_pos rfl] at hpieces
  cases whole with
  | nil => exact Text.pieces_ne_nil _ _ (List.cons.inj hpieces).2
  | cons w whole => exact (hwhole w List.mem_cons_self).ne_nil (List.cons.inj hpieces).1.symm

theorem segments_of_pieces (hpieces : Text.pieces '/' p.chars = whole ++ [cut])
    (hwhole : ∀ q ∈ whole, IsPlain q) :
    p.segments = whole.map String.ofList ++ (if cut = [] then [] else [String.ofList cut]) := by
  have hfilter : whole.filter (!·.isEmpty) = whole :=
    List.filter_eq_self.2 fun q hq => by simpa using (hwhole q hq).ne_nil
  rw [FilePath.segments, hpieces, List.filter_append, hfilter, List.map_append]
  by_cases hcut : cut = []
  · rw [if_pos hcut, hcut]
    rfl
  · rw [if_neg hcut, List.filter_cons_of_pos (by simpa using hcut)]
    rfl

theorem ofList_ne_dot {q : List Char} (h : q ≠ ['.']) : String.ofList q ≠ "." := by
  intro heq
  exact h (by simpa using congrArg String.toList heq)

theorem component_of_isPlain {q : List Char} (hq : IsPlain q) :
    FilePath.component (String.ofList q) = .name (String.ofList q) := by
  have hdots : String.ofList q ≠ ".." := by
    intro heq
    exact hq.ne_dots (by simpa using congrArg String.toList heq)
  rw [FilePath.component, if_neg (by simpa using hdots)]

/-- The components of a relative path of which the last piece is whatever it is. -/
theorem components_of_pieces (hpieces : Text.pieces '/' p.chars = whole ++ [cut])
    (hwhole : ∀ q ∈ whole, IsPlain q) (hne : p.chars ≠ []) :
    p.components = (whole.map String.ofList).map .name ++
      if cut = [] then []
      else if cut = ['.'] then (if whole = [] then [.current] else [])
      else [FilePath.component (String.ofList cut)] := by
  have hsegments := segments_of_pieces hpieces hwhole
  -- plain pieces are neither `.` nor `..`, so each of them is a component of its own
  have hnames : ((whole.map String.ofList).filter (· != ".")).map FilePath.component =
      (whole.map String.ofList).map .name := by
    rw [List.filter_eq_self.2]
    · refine List.map_congr_left fun s hs => ?_
      obtain ⟨q, hq, rfl⟩ := List.mem_map.1 hs
      exact component_of_isPlain (hwhole q hq)
    · intro s hs
      obtain ⟨q, hq, rfl⟩ := List.mem_map.1 hs
      simpa using ofList_ne_dot (hwhole q hq).ne_dot
  -- a path starts in the current directory only if all that there is of it is the `.` it was cut to
  have hhead : ((p.segments.head? == some ".") = true) ↔ whole = [] ∧ cut = ['.'] := by
    rw [hsegments, beq_iff_eq]
    cases whole with
    | nil =>
      by_cases hcut : cut = []
      · simp [hcut]
      · simp only [hcut, if_false, List.map_nil, List.nil_append, List.head?_cons, true_and,
          Option.some.injEq]
        exact ⟨fun h => by simpa using congrArg String.toList h, fun h => by rw [h]⟩
    | cons w whole =>
      have hw := ofList_ne_dot (hwhole w List.mem_cons_self).ne_dot
      simp [hw]
  -- the segments that say something are the plain ones, and the last one unless it is empty or `.`
  have hrest : (p.segments.filter (· != ".")).map FilePath.component =
      (whole.map String.ofList).map .name ++
        if cut = [] ∨ cut = ['.'] then [] else [FilePath.component (String.ofList cut)] := by
    rw [hsegments, List.filter_append, List.map_append, hnames]
    congr 1
    by_cases hcut : cut = []
    · simp [hcut]
    · by_cases hdot : cut = ['.']
      · simp [hdot]
      · have hne := ofList_ne_dot hdot
        simp [hcut, hdot, hne]
  show (if p.isAbsolute then [.root]
      else if p.segments.head? == some "." then [.current] else []) ++
    (p.segments.filter (· != ".")).map FilePath.component = _
  rw [isAbsolute_of_pieces hpieces hwhole hne, if_neg (by decide), hrest]
  simp only [hhead]
  by_cases hcut : cut = []
  · simp [hcut]
  · by_cases hdot : cut = ['.']
    · by_cases hwhole : whole = [] <;> simp [hdot, hwhole]
    · simp [hcut, hdot]

/-- A path of which the last piece is not empty does not end in a separator: no piece has one. -/
theorem endsWithSlash_of_pieces (hpieces : Text.pieces '/' p.chars = whole ++ [cut])
    (hcut : cut ≠ []) : p.endsWithSlash = false := by
  have hchars : p.chars.getLast? = cut.getLast? := by
    rw [← Text.join_pieces '/' p.chars, hpieces, Text.join_concat]
    split
    · rfl
    · rw [List.getLast?_append_of_ne_nil _ (List.cons_ne_nil _ _),
        List.getLast?_cons_of_ne_nil hcut]
  rw [FilePath.endsWithSlash, hchars, beq_eq_false_iff_ne]
  intro hlast
  have hmem : cut ∈ Text.pieces '/' p.chars := by
    rw [hpieces]
    exact List.mem_append_right _ (List.mem_singleton_self _)
  exact Text.not_mem_of_mem_pieces hmem (List.mem_of_getLast? hlast)

theorem utf8_of_pieces (hpieces : Text.pieces '/' p.chars = whole ++ [cut]) :
    Text.utf8 p.text = (partsOf false ((whole ++ [cut]).map String.ofList)).flatten := by
  rw [← utf8_join, ← hpieces, Text.join_pieces, FilePath.chars, String.ofList_toList]

theorem nameParts_of_components (isCut : Bool) {cs : List PathComponent} (h : p.components = cs)
    (hne : cs ≠ []) (hcurrent : .current ∉ cs) :
    nameParts isCut p =
      contributions isCut false cs ++ if p.endsWithSlash then [.ok [separator]] else [] := by
  rw [nameParts, h]
  split
  · exact absurd rfl hne
  · exact absurd (List.mem_singleton_self _) hcurrent
  · congr 2
    refine List.filter_eq_self.2 fun c hc => ?_
    rw [bne_iff_ne]
    rintro rfl
    exact hcurrent hc

theorem current_notMem_names (ns : List String) :
    PathComponent.current ∉ ns.map PathComponent.name := by
  intro hmem
  obtain ⟨n, -, hn⟩ := List.mem_map.1 hmem
  cases hn

/-- The parts of a name are its pieces, if the last one is a component of its own. A last piece `..`
is allowed where the name was cut off, since what is left of a longer piece may look like it. -/
theorem nameParts_of_pieces (isCut : Bool) (hpieces : Text.pieces '/' p.chars = whole ++ [cut])
    (hwhole : ∀ q ∈ whole, IsPlain q) (hcut : cut ≠ []) (hdot : cut ≠ ['.'])
    (hdots : cut = ['.', '.'] → isCut = true) :
    nameParts isCut p = (partsOf false ((whole ++ [cut]).map String.ofList)).map .ok := by
  have hne : p.chars ≠ [] := by
    intro hnil
    rw [hnil] at hpieces
    obtain ⟨-, hlast⟩ := List.append_inj' (hpieces.symm.trans (List.nil_append [[]]).symm) rfl
    exact hcut (List.cons.inj hlast).1
  -- all components are names, the last one maybe a parent
  have hcomponents := components_of_pieces hpieces hwhole hne
  rw [if_neg hcut, if_neg hdot] at hcomponents
  have hlast : FilePath.component (String.ofList cut) ≠ .current := by
    rw [FilePath.component]
    split <;> simp
  have hcurrent : PathComponent.current ∉
      (whole.map String.ofList).map .name ++ [FilePath.component (String.ofList cut)] := by
    rw [List.mem_append, List.mem_singleton, not_or]
    exact ⟨current_notMem_names _, hlast.symm⟩
  -- the last one is written as it is spelled, `..` too
  have hcontribution : component isCut true (FilePath.component (String.ofList cut)) =
      .ok (Text.utf8 (String.ofList cut)) := by
    by_cases h : cut = ['.', '.']
    · rw [hdots h, h]
      rfl
    · have hname : String.ofList cut ≠ ".." := by
        intro heq
        exact h (by simpa using congrArg String.toList heq)
      rw [FilePath.component, if_neg (by simpa using hname)]
      rfl
  rw [nameParts_of_components isCut hcomponents (by simp) hcurrent,
    endsWithSlash_of_pieces hpieces hcut, contributions_names, contributions, List.isEmpty_nil,
    hcontribution, List.map_append, List.map_singleton, partsOf_concat]
  cases (whole.map String.ofList) <;> simp [contributions]

/-- Whatever is left of a name that was cut off, its parts are a start of it. Four things can be
left of the piece with the cut: nothing, `.`, `..`, or a name. Nothing is no component, and neither
is a `.` behind other pieces, so what is written then is what comes before them. -/
theorem exists_nameParts_cut (hpieces : Text.pieces '/' p.chars = whole ++ [cut])
    (hwhole : ∀ q ∈ whole, IsPlain q) (hne : p.chars ≠ []) :
    ∃ parts : List (List UInt8), nameParts true p = parts.map .ok ∧
      parts.flatten <+: Text.utf8 p.text := by
  have hcomponents := components_of_pieces hpieces hwhole hne
  have hbytes := utf8_of_pieces hpieces
  -- the pieces before the cut are written as they are
  have hnames : contributions true false ((whole.map String.ofList).map .name) =
      (partsOf false (whole.map String.ofList)).map .ok := by
    have happend := contributions_names true false (whole.map String.ofList) []
    rw [List.append_nil] at happend
    rw [happend, contributions, List.append_nil]
  have hpartsOf : (partsOf false (whole.map String.ofList)).flatten <+: Text.utf8 p.text := by
    rw [hbytes, List.map_append, List.map_singleton, partsOf_concat, List.flatten_append]
    exact List.prefix_append _ _
  by_cases hcut : cut = []
  · -- the name ends in a separator
    rw [if_pos hcut, List.append_nil] at hcomponents
    have hsome : whole ≠ [] := by
      rintro rfl
      refine hne ?_
      rw [← Text.join_pieces '/' p.chars, hpieces, hcut]
      rfl
    rw [nameParts_of_components true hcomponents (by simpa using hsome) (current_notMem_names _),
      hnames]
    split
    · refine ⟨partsOf false (whole.map String.ofList) ++ [[separator]], by simp, ?_⟩
      rw [hbytes, hcut, List.map_append, List.map_singleton, partsOf_concat]
      simp [hsome, Text.utf8]
    · exact ⟨_, List.append_nil _, hpartsOf⟩
  · by_cases hdot : cut = ['.']
    · rw [if_neg hcut, if_pos hdot] at hcomponents
      by_cases hsome : whole = []
      · -- all that is left is `.`
        refine ⟨[Text.utf8 "."], ?_, ?_⟩
        · rw [hsome, if_pos rfl] at hcomponents
          rw [nameParts, hcomponents, endsWithSlash_of_pieces hpieces hcut]
          rfl
        · rw [hbytes, hsome, hdot]
          exact List.prefix_rfl
      · -- a `.` behind other pieces is dropped
        rw [if_neg hsome, List.append_nil] at hcomponents
        rw [nameParts_of_components true hcomponents (by simpa using hsome)
          (current_notMem_names _), hnames, endsWithSlash_of_pieces hpieces hcut]
        exact ⟨_, List.append_nil _, hpartsOf⟩
    · rw [nameParts_of_pieces true hpieces hwhole hcut hdot fun _ => rfl, hbytes]
      -- the last piece is a component, maybe `..`
      exact ⟨_, rfl, List.prefix_rfl⟩

/-! ## Plain names -/

/-- A name made of plain components, separated by `/`. -/
def IsPlainName (name : String) : Prop := ∀ q ∈ Text.pieces '/' name.toList, IsPlain q

theorem IsPlainName.noNul {name : String} (h : IsPlainName name) : '\x00' ∉ name.toList := by
  intro hmem
  rw [← Text.join_pieces '/' name.toList] at hmem
  obtain hslash | ⟨q, hq, hnul⟩ := Text.mem_join hmem
  · exact absurd hslash (by decide)
  · exact (h q hq).noNul hnul

/-- The last piece is a component like all others. -/
theorem IsPlainName.exists_pieces {name : String} (h : IsPlainName name) :
    ∃ whole cut, Text.pieces '/' name.toList = whole ++ [cut] ∧ (∀ q ∈ whole, IsPlain q) ∧
      IsPlain cut := by
  rcases List.eq_nil_or_concat' (Text.pieces '/' name.toList) with hnil | ⟨whole, cut, hpieces⟩
  · exact absurd hnil (Text.pieces_ne_nil _ _)
  · refine ⟨whole, cut, hpieces, fun q hq => h q ?_, h cut ?_⟩
    · rw [hpieces]
      exact List.mem_append_left _ hq
    · rw [hpieces]
      exact List.mem_append_right _ (List.mem_singleton_self _)

theorem IsPlainName.nameParts {name : String} (h : IsPlainName name) :
    ∃ parts : List (List UInt8), nameParts false ⟨name⟩ = parts.map .ok ∧
      parts.flatten = Text.utf8 name := by
  obtain ⟨whole, cut, hpieces, hwhole, hcut⟩ := h.exists_pieces
  refine ⟨_, nameParts_of_pieces false (p := ⟨name⟩) hpieces hwhole hcut.ne_nil hcut.ne_dot ?_, ?_⟩
  · exact fun hdots => absurd hdots hcut.ne_dots
  · exact (utf8_of_pieces (p := ⟨name⟩) hpieces).symm

/-- A name that fits its field is written there byte for byte. -/
theorem text_writeParts {name : String} (h : IsPlainName name)
    (hfits : (Text.utf8 name).length ≤ nameSize) :
    ∃ f, NameField.empty.writeParts (nameParts false ⟨name⟩) = (none, f) ∧
      f.bytes.length = nameSize ∧ f.text = Text.utf8 name := by
  obtain ⟨parts, hparts, hbytes⟩ := h.nameParts
  have hnul := Text.zero_notMem_utf8 h.noNul
  obtain ⟨f, hwrite, hf, hclosed⟩ := NameField.exists_writeParts NameField.holds_empty
    parts (by simpa [hbytes] using hfits) (by rwa [hbytes])
  rw [List.nil_append, hbytes] at hf
  refine ⟨f, by rw [hparts, hwrite], hf.size, ?_⟩
  exact NameField.text_of_holds hf (hclosed NameField.closed_empty) hnul

theorem writeParts_tooLong {name : String} (h : IsPlainName name)
    (hlong : nameSize < (Text.utf8 name).length) :
    ∃ f, NameField.empty.writeParts (nameParts false ⟨name⟩) = (some .tooLong, f) ∧
      f.bytes.length = nameSize := by
  obtain ⟨parts, hparts, hbytes⟩ := h.nameParts
  have hnul := Text.zero_notMem_utf8 h.noNul
  rw [hparts]
  exact NameField.exists_writeParts_tooLong NameField.holds_empty (Nat.zero_le _) parts
    (by simpa [hbytes] using hlong) (by rwa [hbytes])

theorem cutText_prefix (limit : Nat) (s : List Char) : cutText limit s <+: s := by
  induction s generalizing limit with
  | nil => exact List.nil_prefix
  | cons c s ih =>
    simp only [cutText]
    split
    · exact (List.prefix_cons_inj c).2 (ih _)
    · exact List.nil_prefix

theorem length_utf8_cutText (limit : Nat) (s : List Char) :
    (Text.utf8 (String.ofList (cutText limit s))).length ≤ limit := by
  induction s generalizing limit with
  | nil => exact Nat.zero_le _
  | cons c s ih =>
    simp only [cutText]
    split
    · rename_i hc
      have hrest := ih (limit - (String.utf8EncodeChar c).length)
      simp only [Text.utf8, String.toList_ofList, List.flatMap_cons, List.length_append] at hrest ⊢
      omega
    · exact Nat.zero_le _

/-- The start of a longer name fits the field, whatever was written there before. -/
theorem exists_writeParts_cut {name : String} (h : IsPlainName name) {f : NameField}
    (hf : f.bytes.length = nameSize) :
    ∃ g, f.restart.writeParts
        (nameParts true ⟨String.ofList (cutText nameSize name.toList)⟩) = (none, g) ∧
      g.bytes.length = nameSize := by
  have hcut := cutText_prefix nameSize name.toList
  obtain ⟨whole, q, rest, cut, hname, hpieces, -⟩ := Text.pieces_of_prefix (c := '/') hcut
  have hwhole : ∀ q ∈ whole, IsPlain q := by
    intro q hq
    refine h q ?_
    rw [hname]
    exact List.mem_append_left _ hq
  have hchars : (⟨String.ofList (cutText nameSize name.toList)⟩ : FilePath).chars =
      cutText nameSize name.toList := String.toList_ofList
  have hne : cutText nameSize name.toList ≠ [] := by
    -- there is room for the first character
    obtain ⟨c, s, hs⟩ : ∃ c s, name.toList = c :: s := by
      refine List.exists_cons_of_ne_nil fun hnil => ?_
      rw [IsPlainName, hnil] at h
      exact (h [] List.mem_cons_self).ne_nil rfl
    have hsize : (String.utf8EncodeChar c).length ≤ nameSize := by
      have hfour := Char.utf8Size_le_four c
      rw [String.length_utf8EncodeChar]
      exact Nat.le_trans hfour (by decide)
    rw [hs, cutText, if_pos hsize]
    exact List.cons_ne_nil _ _
  rw [← hchars] at hpieces hne
  obtain ⟨parts, hparts, hstart⟩ := exists_nameParts_cut hpieces hwhole hne
  have hlength : parts.flatten.length ≤ nameSize :=
    Nat.le_trans hstart.length_le (length_utf8_cutText nameSize name.toList)
  have hnul : 0 ∉ parts.flatten := by
    intro hmem
    refine Text.zero_notMem_utf8 ?_ (hstart.subset hmem)
    rw [String.toList_ofList]
    exact fun hmem => h.noNul (hcut.subset hmem)
  obtain ⟨g, hwrite, hg, -⟩ := NameField.exists_writeParts (restart_holds hf) parts
    (by simpa using hlength) hnul
  exact ⟨g, by rw [hparts, hwrite], hg.size⟩

end Tar

end StubGen
