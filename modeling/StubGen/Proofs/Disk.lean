import StubGen.Disk
import StubGen.Proofs.Except
import Mathlib.Data.List.Infix
import Mathlib.Data.List.Induction
import Mathlib.Data.List.Pairwise

/-!
# Trees on a disk

The entries of a disk form a tree: whatever stands somewhere stands in a directory, and each file
has a serial number of its own. On such a disk every operation on a path comes down to one name in
one directory, and what one operation makes at a name the opposite one takes away again.

Main results:

* `slot_eq_ok_iff` — when a path leads to a name in a directory;
* `walk_mono`, `walk_of_prefix` — walks that stay possible on another disk;
* `adds_of_makeDirectory`, `createFile_eq_ok` — what is made stands at a name that was free;
* `exists_removeDirectory`, `exists_removeFile` — what was made can be removed, and then the tree is
  what it was.
-/

namespace StubGen.Disk

/-- The entries form a tree of directories and files. -/
structure Sound (d : Disk) : Prop where
  distinct : (d.entries.map (·.1)).Nodup
  belowRoot : ∀ x ∈ d.entries, x.1 ≠ []
  inDirectory : ∀ x ∈ d.entries, d.get? x.1.dropLast = some .directory
  serial_lt : ∀ l serial bytes, (l, .file serial bytes) ∈ d.entries → serial < d.nextSerial
  serial_inj : ∀ l m serial bytes bytes', (l, .file serial bytes) ∈ d.entries →
    (m, .file serial bytes') ∈ d.entries → l = m

theorem sound_empty : empty.Sound where
  distinct := List.nodup_nil
  belowRoot _ h := nomatch h
  inDirectory _ h := nomatch h
  serial_lt _ _ _ h := nomatch h
  serial_inj _ _ _ _ _ h := nomatch h

/-- The serial number of a file. -/
def serial? : Entry → Option Nat
  | .directory => none
  | .file serial _ => some serial

/-- That entries form a tree can be decided by the list of their serial numbers. -/
theorem sound_of_serials {d : Disk} (hdistinct : (d.entries.map (·.1)).Nodup)
    (hbelow : ∀ x ∈ d.entries, x.1 ≠ [])
    (hdir : ∀ x ∈ d.entries, d.get? x.1.dropLast = some .directory)
    (hlt : ∀ n ∈ d.entries.filterMap (serial? ·.2), n < d.nextSerial)
    (hserials : (d.entries.filterMap (serial? ·.2)).Nodup) : d.Sound where
  distinct := hdistinct
  belowRoot := hbelow
  inDirectory := hdir
  serial_lt l serial bytes h := hlt serial (List.mem_filterMap.2 ⟨_, h, rfl⟩)
  serial_inj l m serial bytes bytes' hl hm := by
    -- two entries of one list have two serial numbers, in whichever order they come
    have hpairs := List.pairwise_filterMap.1 hserials
    have hsymm : Std.Symm fun x y : Location × Entry =>
        ∀ n, serial? x.2 = some n → ∀ k, serial? y.2 = some k → n ≠ k :=
      ⟨fun x y h n hn k hk => (h k hk n hn).symm⟩
    by_contra hne
    exact hpairs.forall hl hm (fun h => hne (congrArg Prod.fst h)) serial rfl serial rfl rfl

/-- Two disks show the same tree to a process. -/
structure SameTree (d e : Disk) : Prop where
  entries : d.entries = e.entries
  workingDirectory : d.workingDirectory = e.workingDirectory

variable {d e : Disk} {l m : Location} {x : Entry} {p : FilePath} {name : String} {slash : Bool}

/-! ## Entries -/

theorem mem_entries_of_get? (hl : l ≠ []) (h : d.get? l = some x) : (l, x) ∈ d.entries := by
  rw [get?, if_neg hl] at h
  obtain ⟨before, after, heq, -⟩ := List.lookup_eq_some_iff.1 h
  rw [heq]
  simp

theorem ne_nil_of_get?_eq_none (h : d.get? l = none) : l ≠ [] := by
  rintro rfl
  cases h

theorem ne_of_get?_eq_none (h : d.get? l = none) : ∀ y ∈ d.entries, y.1 ≠ l := by
  intro y hy heq
  rw [get?, if_neg (ne_nil_of_get?_eq_none h), List.lookup_eq_none_iff] at h
  exact absurd heq.symm (by simpa using h y hy)

theorem entries_put_of_get?_eq_none (h : d.get? l = none) (x : Entry) :
    (d.put l x).entries = d.entries ++ [(l, x)] := by
  have hne := ne_of_get?_eq_none h
  show putIn l x d.entries = d.entries ++ [(l, x)]
  generalize d.entries = es at hne
  induction es with
  | nil => rfl
  | cons y es ih =>
    obtain ⟨k, v⟩ := y
    have hk : k ≠ l := hne (k, v) List.mem_cons_self
    rw [putIn, if_neg hk, ih fun z hz => hne z (List.mem_cons_of_mem _ hz), List.cons_append]

theorem filter_append_of_ne {es : List (Location × Entry)} (hne : ∀ y ∈ es, y.1 ≠ l) (x : Entry) :
    (es ++ [(l, x)]).filter (fun y => y.1 ≠ l) = es := by
  rw [List.filter_append, List.filter_eq_self.2 (by simpa using hne)]
  simp

namespace SameTree

theorem trans {f : Disk} (h : SameTree d e) (h' : SameTree e f) : SameTree d f :=
  ⟨h.entries.trans h'.entries, h.workingDirectory.trans h'.workingDirectory⟩

theorem get? (h : SameTree d e) (l : Location) : d.get? l = e.get? l := by
  rw [Disk.get?, Disk.get?, h.entries]

end SameTree

/-- Everything on the way to an entry is a directory. From the entry up, each entry below the root
stands in a directory, which is an entry in turn. -/
theorem Sound.get?_of_prefix (hd : d.Sound) {k : Location} (hx : d.get? m = some x) (hk : k <+: m)
    (hne : k ≠ m) : d.get? k = some .directory := by
  -- from the entry up, one directory at a time
  induction m using List.reverseRecOn generalizing x with
  | nil => exact absurd (List.prefix_nil.1 hk) hne
  | append_singleton m a ih =>
    -- the entry itself stands in a directory
    have hparent : d.get? m = some .directory := by
      have hmem := mem_entries_of_get? (List.append_ne_nil_of_right_ne_nil _ (by simp)) hx
      simpa using hd.inDirectory _ hmem
    rcases List.prefix_concat_iff.1 hk with rfl | hk
    · exact absurd rfl hne
    · by_cases hkm : k = m
      · rwa [hkm]
      · exact ih hparent hk hkm

/-! ## Bytes of files -/

/-- An entry with the bytes of the file of a serial number changed. -/
def mapEntry (serial : Nat) (f : List UInt8 → List UInt8) : Entry → Entry
  | .directory => .directory
  | .file n bytes => .file n (if n = serial then f bytes else bytes)

/-- The disk with the bytes of the file of a serial number changed. -/
def mapFile (d : Disk) (serial : Nat) (f : List UInt8 → List UInt8) : Disk :=
  { d with entries := d.entries.map fun x => (x.1, mapEntry serial f x.2) }

theorem writeEntry_eq (h : FileHandle) (new : List UInt8) (x : Entry) :
    writeEntry h new x = mapEntry h.serial (fun old => overlay old h.position new) x := by
  cases x with
  | directory => rfl
  | file n old =>
    rw [writeEntry, mapEntry]
    split <;> rfl

theorem write_eq (d : Disk) (h : FileHandle) (new : List UInt8) :
    d.write h new = (⟨h.serial, h.position + new.length⟩,
      d.mapFile h.serial fun old => overlay old h.position new) := by
  rw [write, mapFile]
  simp only [writeEntry_eq]

theorem mapEntry_of_ne {serial n : Nat} (h : n ≠ serial) (f : List UInt8 → List UInt8)
    (bytes : List UInt8) : mapEntry serial f (.file n bytes) = .file n bytes := by
  rw [mapEntry, if_neg h]

/-! ## A new entry -/

/-- The disk `e` shows the tree of `d` with a new entry. -/
structure Adds (d : Disk) (l : Location) (x : Entry) (e : Disk) : Prop where
  absent : d.get? l = none
  entries : e.entries = d.entries ++ [(l, x)]
  workingDirectory : e.workingDirectory = d.workingDirectory

namespace Adds

theorem put (h : d.get? l = none) (x : Entry) : Adds d l x (d.put l x) :=
  ⟨h, entries_put_of_get?_eq_none h x, rfl⟩

theorem congr {f : Disk} (h : Adds d l x e) (he : SameTree f e) : Adds d l x f :=
  ⟨h.absent, he.entries.trans h.entries, he.workingDirectory.trans h.workingDirectory⟩

theorem get? (h : Adds d l x e) (m : Location) :
    e.get? m = if m = l then some x else d.get? m := by
  have hput : SameTree e (d.put l x) :=
    ⟨h.entries.trans (entries_put_of_get?_eq_none h.absent x).symm, h.workingDirectory⟩
  rw [hput.get?, get?_put]
  have hl := ne_nil_of_get?_eq_none h.absent
  by_cases hm : m = []
  · rw [if_pos hm, if_neg (hm ▸ Ne.symm hl), hm]
    rfl
  · rw [if_neg hm]

theorem get?_self (h : Adds d l x e) : e.get? l = some x := by
  rw [h.get?, if_pos rfl]

/-- What was there is still there. -/
theorem get?_of_get? (h : Adds d l x e) {y : Entry} (hm : d.get? m = some y) :
    e.get? m = some y := by
  rw [h.get?, if_neg, hm]
  rintro rfl
  rw [h.absent] at hm
  cases hm

/-- Erasing the new entry gives the old tree back. -/
theorem erase (h : Adds d l x e) : SameTree (e.erase l) d := by
  refine ⟨?_, h.workingDirectory⟩
  show e.entries.filter (fun y => y.1 ≠ l) = d.entries
  rw [h.entries, filter_append_of_ne (ne_of_get?_eq_none h.absent)]

/-- A new entry in a directory keeps the tree a tree; a new file needs a new serial number. What has
to be checked is the new entry, for nothing else has changed. -/
theorem sound_of {k : Location} (hd : d.Sound) (hk : d.get? k = some .directory)
    (h : Adds d (k ++ [name]) x e) (hserial : d.nextSerial ≤ e.nextSerial)
    (hnew : ∀ n bytes, x = .file n bytes → d.nextSerial ≤ n ∧ n < e.nextSerial) : e.Sound := by
  have hmem : ∀ y ∈ e.entries, y ∈ d.entries ∨ y = (k ++ [name], x) := by
    intro y hy
    rw [h.entries, List.mem_append, List.mem_singleton] at hy
    exact hy
  constructor
  · -- distinct: the new location was free
    rw [h.entries, List.map_append, List.nodup_append]
    refine ⟨hd.distinct, by simp, ?_⟩
    rintro a ha b hb rfl
    obtain ⟨y, hy, rfl⟩ := List.mem_map.1 ha
    exact ne_of_get?_eq_none h.absent y hy (List.mem_singleton.1 hb)
  · -- below the root, for at the root there is always something
    intro y hy
    rcases hmem y hy with hy | rfl
    · exact hd.belowRoot y hy
    · exact ne_nil_of_get?_eq_none h.absent
  · -- in a directory: what held an old entry still does
    intro y hy
    rcases hmem y hy with hy | rfl
    · exact h.get?_of_get? (hd.inDirectory y hy)
    · rw [List.dropLast_concat]
      exact h.get?_of_get? hk
  · -- serial numbers below the next one, which has not gone down
    intro l serial bytes hl
    rcases hmem _ hl with hl | heq
    · exact Nat.lt_of_lt_of_le (hd.serial_lt l serial bytes hl) hserial
    · exact (hnew serial bytes (Prod.mk.inj heq).2.symm).2
  · intro l m serial bytes bytes' hl hm
    -- an old file has a serial number below that of a new one
    rcases hmem _ hl with hl | hleq <;> rcases hmem _ hm with hm | hmeq
    · exact hd.serial_inj l m serial bytes bytes' hl hm
    · have hlt := hd.serial_lt l serial bytes hl
      have hle := (hnew serial bytes' (Prod.mk.inj hmeq).2.symm).1
      omega
    · have hlt := hd.serial_lt m serial bytes' hm
      have hle := (hnew serial bytes (Prod.mk.inj hleq).2.symm).1
      omega
    · rw [(Prod.mk.inj hleq).1, (Prod.mk.inj hmeq).1]

/-- A new directory in a directory keeps the tree a tree. -/
theorem sound {k : Location} (hd : d.Sound) (hk : d.get? k = some .directory)
    (h : Adds d (k ++ [name]) .directory e) (hserial : d.nextSerial ≤ e.nextSerial) : e.Sound :=
  h.sound_of hd hk hserial fun _ _ hx => nomatch hx

/-- A new directory is empty. -/
theorem hasChildren (hd : d.Sound) (h : Adds d l .directory e) : e.hasChildren l = false := by
  rw [Disk.hasChildren, List.any_eq_false]
  intro y hy hchild
  rw [Bool.and_eq_true, bne_iff_ne, List.isPrefixOf_iff_prefix] at hchild
  obtain ⟨hne, hstart⟩ := hchild
  rw [h.entries, List.mem_append, List.mem_singleton] at hy
  rcases hy with hy | rfl
  · -- an old entry below the directory would have had it above it already
    cases hx : d.get? y.1 with
    | none => exact ne_of_get?_eq_none hx y hy rfl
    | some z =>
      have hl := hd.get?_of_prefix hx hstart hne.symm
      rw [h.absent] at hl
      cases hl
  · exact hne rfl

/-- Changing the bytes of the new file leaves every other file alone. -/
theorem mapFile {serial : Nat} {bytes : List UInt8}
    (hserial : ∀ l n bytes, (l, .file n bytes) ∈ d.entries → n ≠ serial)
    (hadds : Adds d l (.file serial bytes) e) (f : List UInt8 → List UInt8) :
    Adds d l (.file serial (f bytes)) (e.mapFile serial f) := by
  -- of the old entries none has the serial number of the file
  refine ⟨hadds.absent, ?_, hadds.workingDirectory⟩
  show e.entries.map _ = _
  rw [hadds.entries, List.map_append]
  congr 1
  · conv_rhs => rw [← List.map_id d.entries]
    refine List.map_congr_left fun y hy => ?_
    obtain ⟨k, z⟩ := y
    cases z with
    | directory => rfl
    | file n old =>
      rw [mapEntry_of_ne (hserial k n old hy)]
      rfl
  · rw [List.map_singleton, mapEntry, if_pos rfl]

end Adds

/-! ## Walks -/

theorem enter_name (hdir : d.get? l = some .directory) (hdot : name ≠ ".") (hdots : name ≠ "..")
    (hsize : name.utf8ByteSize ≤ nameLimit) (hx : (d.get? (l ++ [name])).isSome) :
    d.enter l name = .ok (l ++ [name]) := by
  rw [enter, if_neg (not_not.2 hdir), if_neg hdot, if_neg hdots, if_neg (Nat.not_lt.2 hsize),
    if_neg (by simpa [Option.isSome_iff_ne_none] using hx)]

/-- One step of a walk stays, goes up or goes down. It starts from a directory in each case, and
goes down only to what is there. -/
theorem enter_eq_ok {segment : String} (h : d.enter l segment = .ok m) :
    d.get? l = some .directory ∧ (segment = "." ∧ m = l ∨ segment = ".." ∧ m = l.dropLast ∨
      segment ≠ "." ∧ segment ≠ ".." ∧ segment.utf8ByteSize ≤ nameLimit ∧
        (d.get? (l ++ [segment])).isSome ∧ m = l ++ [segment]) := by
  -- the checks in the order in which they are made
  unfold enter at h
  split at h
  · cases h
  rename_i hdir
  refine ⟨not_not.1 hdir, ?_⟩
  split at h
  · rename_i hdot
    exact .inl ⟨hdot, (Except.ok.inj h).symm⟩
  rename_i hdot
  split at h
  · rename_i hdots
    exact .inr (.inl ⟨hdots, (Except.ok.inj h).symm⟩)
  rename_i hdots
  split at h
  · cases h
  rename_i hsize
  split at h
  · cases h
  rename_i hsome
  refine .inr (.inr ⟨hdot, hdots, Nat.not_lt.1 hsize, ?_, (Except.ok.inj h).symm⟩)
  simpa [Option.isSome_iff_ne_none] using hsome

/-- A step is possible on another disk if that has the directory and what it leads to. -/
theorem enter_congr {segment : String} (h : d.enter l segment = .ok m)
    (hl : e.get? l = some .directory) (hm : e.get? m = some .directory) :
    e.enter l segment = .ok m := by
  obtain ⟨-, ⟨rfl, rfl⟩ | ⟨rfl, rfl⟩ | ⟨hdot, hdots, hsize, -, rfl⟩⟩ := enter_eq_ok h
  · rw [enter, if_neg (not_not.2 hl), if_pos rfl]
  · rw [enter, if_neg (not_not.2 hl), if_neg (by decide), if_pos rfl]
  · exact enter_name hl hdot hdots hsize (by simp [hm])

theorem walk_cons_eq_ok_iff {segment : String} {segments : List String} :
    d.walk l (segment :: segments) = .ok m ↔
      ∃ k, d.enter l segment = .ok k ∧ d.walk k segments = .ok m := by
  rw [walk, List.foldlM_cons, Except.bind_eq_ok_iff]
  rfl

theorem get?_of_walk {segments : List String} (h : d.walk l segments = .ok m)
    (hm : d.get? m = some .directory) : d.get? l = some .directory := by
  cases segments with
  | nil =>
    cases h
    exact hm
  | cons segment segments =>
    obtain ⟨k, hk, -⟩ := walk_cons_eq_ok_iff.1 h
    exact (enter_eq_ok hk).1

theorem walk_concat (segments : List String) (last : String) :
    d.walk l (segments ++ [last]) = (d.walk l segments).bind fun k => d.enter k last := by
  rw [walk, List.foldlM_append]
  cases h : List.foldlM d.enter l segments with
  | error e =>
    rw [walk, h]
    rfl
  | ok k =>
    rw [walk, h]
    show List.foldlM d.enter k [last] = d.enter k last
    rw [List.foldlM_cons]
    cases d.enter k last <;> rfl

/-- A walk to a directory is possible wherever there are the same directories and more. -/
theorem walk_mono (hdir : ∀ k, d.get? k = some .directory → e.get? k = some .directory)
    {segments : List String} (h : d.walk l segments = .ok m) (hm : d.get? m = some .directory) :
    e.walk l segments = .ok m := by
  induction segments generalizing l with
  | nil => exact h
  | cons segment segments ih =>
    obtain ⟨k, hk, hrest⟩ := walk_cons_eq_ok_iff.1 h
    have hkd : d.get? k = some .directory := get?_of_walk hrest hm
    refine walk_cons_eq_ok_iff.2 ⟨k, ?_, ih hrest⟩
    exact enter_congr hk (hdir l (enter_eq_ok hk).1) (hdir k hkd)

/-- Without `..` a walk goes down, by the segments other than `.`. So all paths without `..` to a
location have the same names in the same order. -/
theorem eq_append_of_walk {segments : List String} (hup : ".." ∉ segments)
    (h : d.walk l segments = .ok m) : m = l ++ segments.filter (· != ".") := by
  induction segments generalizing l with
  | nil =>
    cases h
    simp
  | cons segment segments ih =>
    rw [List.mem_cons, not_or] at hup
    obtain ⟨k, hk, hrest⟩ := walk_cons_eq_ok_iff.1 h
    rw [ih hup.2 hrest]
    obtain ⟨-, ⟨rfl, rfl⟩ | ⟨rfl, -⟩ | ⟨hdot, -, -, -, rfl⟩⟩ := enter_eq_ok hk
    · rfl
    · exact absurd rfl hup.1
    · simp [hdot]

/-- Without `..` a walk is possible wherever everything on the way is a directory. -/
theorem walk_of_prefix {segments : List String} (hup : ".." ∉ segments)
    (h : d.walk l segments = .ok m) (hdir : ∀ k, k <+: m → e.get? k = some .directory) :
    e.walk l segments = .ok m := by
  induction segments generalizing l with
  | nil => exact h
  | cons segment segments ih =>
    have hlm : l <+: m := eq_append_of_walk hup h ▸ List.prefix_append _ _
    rw [List.mem_cons, not_or] at hup
    obtain ⟨k, hk, hrest⟩ := walk_cons_eq_ok_iff.1 h
    have hkm : k <+: m := eq_append_of_walk hup.2 hrest ▸ List.prefix_append _ _
    exact walk_cons_eq_ok_iff.2 ⟨k, enter_congr hk (hdir l hlm) (hdir k hkm), ih hup.2 hrest⟩

/-! ## Names in directories -/

theorem slot_of_checkPath {e : IoError} (h : checkPath p = .error e) : d.slot p = .error e := by
  rw [slot, h]
  rfl

theorem slot_of_noSegments (hcheck : checkPath p = .ok ()) (h : p.segments = []) :
    d.slot p = .ok ⟨[], none, true⟩ := by
  rw [slot, hcheck, h]
  rfl

/-- The segments before the last are walked, and what they lead to has to be a directory. What the
last one leads to need not be there. -/
theorem slot_of_segments (hcheck : checkPath p = .ok ()) {before : List String} {last : String}
    (h : p.segments = before ++ [last]) :
    d.slot p = (d.walk (d.start p) before).bind fun l =>
      if d.get? l = some .directory then
        .ok ⟨l, if last = "." ∨ last = ".." then none else some last, p.endsWithSlash⟩
      else .error (.os .notADirectory) := by
  have hrev : p.segments.reverse = last :: before.reverse := by
    rw [h, List.reverse_append]
    rfl
  rw [slot, hcheck, hrev]
  simp only [List.reverse_reverse]
  cases d.walk (d.start p) before with
  | error e => rfl
  | ok l =>
    show (if d.get? l ≠ some .directory then _ else _) =
      (if d.get? l = some .directory then _ else _)
    by_cases hdir : d.get? l = some .directory
    · rw [if_neg (not_not.2 hdir), if_pos hdir]
      rfl
    · rw [if_pos hdir, if_neg hdir]
      rfl

/-- A path leads to a name in a directory if its last segment is that name and the segments before
it lead to that directory. A path that ends in `.` or `..`, or has no segments at all, leads to no
name. -/
theorem slot_eq_ok_iff :
    d.slot p = .ok ⟨l, some name, slash⟩ ↔
      checkPath p = .ok () ∧ p.endsWithSlash = slash ∧ name ≠ "." ∧ name ≠ ".." ∧
        ∃ before, p.segments = before ++ [name] ∧ d.walk (d.start p) before = .ok l ∧
          d.get? l = some .directory := by
  constructor
  · -- the three things that can go wrong, in their order: the check, the walk and the last segment
    intro h
    cases hcheck : checkPath p with
    | error e =>
      rw [slot_of_checkPath hcheck] at h
      cases h
    | ok u =>
      rcases List.eq_nil_or_concat' p.segments with hsegments | ⟨before, last, hsegments⟩
      · -- no segments, and so no name
        rw [slot_of_noSegments hcheck hsegments] at h
        cases h
      rw [slot_of_segments hcheck hsegments] at h
      cases hwalk : d.walk (d.start p) before with
      | error e =>
        rw [hwalk] at h
        cases h
      | ok k =>
        rw [hwalk, Except.bind] at h
        split at h
        · rename_i hdir
          obtain ⟨rfl, hname, hslash⟩ := Slot.mk.inj (Except.ok.inj h)
          split at hname
          · -- the last segment is `.` or `..`
            cases hname
          · rename_i hspecial
            obtain rfl := Option.some.inj hname
            rw [not_or] at hspecial
            exact ⟨rfl, hslash, hspecial.1, hspecial.2, before, hsegments, hwalk, hdir⟩
        · cases h
  · rintro ⟨hcheck, rfl, hdot, hdots, before, hsegments, hwalk, hdir⟩
    rw [slot_of_segments hcheck hsegments, hwalk, Except.bind, if_pos hdir,
      if_neg (not_or.2 ⟨hdot, hdots⟩)]

theorem slot_mono (hwd : d.workingDirectory = e.workingDirectory)
    (hdir : ∀ k, d.get? k = some .directory → e.get? k = some .directory)
    (h : d.slot p = .ok ⟨l, some name, slash⟩) : e.slot p = .ok ⟨l, some name, slash⟩ := by
  obtain ⟨hcheck, hslash, hdot, hdots, before, hsegments, hwalk, hl⟩ := slot_eq_ok_iff.1 h
  refine slot_eq_ok_iff.2 ⟨hcheck, hslash, hdot, hdots, before, hsegments, ?_, hdir l hl⟩
  rw [start, ← hwd]
  exact walk_mono hdir hwalk hl

theorem slot_of_prefix (hwd : d.workingDirectory = e.workingDirectory) (hup : ".." ∉ p.segments)
    (hdir : ∀ k, k <+: l → e.get? k = some .directory)
    (h : d.slot p = .ok ⟨l, some name, slash⟩) : e.slot p = .ok ⟨l, some name, slash⟩ := by
  obtain ⟨hcheck, hslash, hdot, hdots, before, hsegments, hwalk, hl⟩ := slot_eq_ok_iff.1 h
  have hup' : ".." ∉ before := fun h => hup (hsegments ▸ List.mem_append_left _ h)
  refine slot_eq_ok_iff.2 ⟨hcheck, hslash, hdot, hdots, before, hsegments, ?_,
    hdir l List.prefix_rfl⟩
  rw [start, ← hwd]
  exact walk_of_prefix hup' hwalk hdir

/-- Without `..` a slot is there wherever something stands at its name. -/
theorem Sound.slot_of_get? (he : e.Sound) (hwd : d.workingDirectory = e.workingDirectory)
    (hup : ".." ∉ p.segments) (hx : e.get? (l ++ [name]) = some x)
    (h : d.slot p = .ok ⟨l, some name, slash⟩) : e.slot p = .ok ⟨l, some name, slash⟩ := by
  refine slot_of_prefix hwd hup (fun k hk => ?_) h
  refine he.get?_of_prefix hx (hk.trans (List.prefix_append _ _)) ?_
  rintro rfl
  have hlen := hk.length_le
  rw [List.length_append, List.length_singleton] at hlen
  omega

/-- All segments of a path are walked, and a separator at the end asks for a directory. -/
theorem locate_eq_ok_iff :
    d.locate p = .ok l ↔ checkPath p = .ok () ∧ d.walk (d.start p) p.segments = .ok l ∧
      (p.endsWithSlash = true → d.get? l = some .directory) := by
  rw [locate, Except.bind_eq_ok_iff]
  constructor
  · rintro ⟨u, hcheck, h⟩
    obtain ⟨k, hwalk, h⟩ := Except.bind_eq_ok_iff.1 h
    split at h
    · cases h
    · rename_i hslash
      cases h
      rw [not_and, not_not] at hslash
      exact ⟨hcheck, hwalk, hslash⟩
  · rintro ⟨hcheck, hwalk, hslash⟩
    refine ⟨(), hcheck, Except.bind_eq_ok_iff.2 ⟨l, hwalk, ?_⟩⟩
    rw [if_neg (by rwa [not_and, not_not])]
    rfl

theorem find?_eq_some_iff : d.find? p = some x ↔ ∃ l, d.locate p = .ok l ∧ d.get? l = some x := by
  rw [find?]
  cases d.locate p <;> simp

/-- What a path leads to stands at its name. This takes the walk apart at its last step, which is
the one that may find nothing. -/
theorem find?_of_slot (h : d.slot p = .ok ⟨l, some name, false⟩)
    (hsize : name.utf8ByteSize ≤ nameLimit) : d.find? p = d.get? (l ++ [name]) := by
  obtain ⟨hcheck, hslash, hdot, hdots, before, hsegments, hwalk, hdir⟩ := slot_eq_ok_iff.1 h
  have hlast : d.walk (d.start p) p.segments = d.enter l name := by
    rw [hsegments, walk_concat, hwalk]
    rfl
  cases hx : d.get? (l ++ [name]) with
  | none =>
    -- the last step would have to enter the name
    refine Option.eq_none_iff_forall_ne_some.2 fun x hfind => ?_
    obtain ⟨k, hlocate, -⟩ := find?_eq_some_iff.1 hfind
    have henter := hlast.symm.trans (locate_eq_ok_iff.1 hlocate).2.1
    obtain ⟨-, ⟨h, -⟩ | ⟨h, -⟩ | ⟨-, -, -, hsome, -⟩⟩ := enter_eq_ok henter
    · exact hdot h
    · exact hdots h
    · rw [hx] at hsome
      cases hsome
  -- and if something is there, the last step enters it
  | some x =>
    have henter := enter_name hdir hdot hdots hsize (by simp [hx])
    refine find?_eq_some_iff.2 ⟨l ++ [name], locate_eq_ok_iff.2 ⟨hcheck, ?_, ?_⟩, hx⟩
    · rw [hlast, henter]
    · rw [hslash]
      exact fun h => nomatch h

/-- Nothing is found where no name can be reached. -/
theorem find?_of_slot_eq_error {e : IoError} (h : d.slot p = .error e) : d.find? p = none := by
  refine Option.eq_none_iff_forall_ne_some.2 fun x hfind => ?_
  obtain ⟨k, hlocate, -⟩ := find?_eq_some_iff.1 hfind
  obtain ⟨hcheck, hwalk, -⟩ := locate_eq_ok_iff.1 hlocate
  rcases List.eq_nil_or_concat' p.segments with hsegments | ⟨before, last, hsegments⟩
  · rw [slot_of_noSegments hcheck hsegments] at h
    cases h
  · rw [hsegments, walk_concat] at hwalk
    obtain ⟨m, hm, henter⟩ := Except.bind_eq_ok_iff.1 hwalk
    rw [slot_of_segments hcheck hsegments, hm, Except.bind, if_pos (enter_eq_ok henter).1] at h
    cases h

/-! ## Making and removing -/

theorem child_eq_ok_iff :
    child l name = .ok m ↔ name.utf8ByteSize ≤ nameLimit ∧ m = l ++ [name] := by
  rw [child]
  split
  · rename_i h
    simp
    omega
  · rename_i h
    simp [Nat.not_lt.1 h, eq_comm]

/-- What is done at the name that a path leads to; `none` if there is no name. -/
def atName {α : Type} (d : Disk) (p : FilePath) (none : IoError)
    (act : Location → Bool → Except IoError α) : Except IoError α := do
  let s ← d.slot p
  match s.name? with
  | .none => throw none
  | some name => act (← child s.directory name) s.hasSlash

theorem atName_eq_ok_iff {α : Type} {none : IoError} {act : Location → Bool → Except IoError α}
    {a : α} :
    d.atName p none act = .ok a ↔ ∃ l name slash, d.slot p = .ok ⟨l, some name, slash⟩ ∧
      name.utf8ByteSize ≤ nameLimit ∧ act (l ++ [name]) slash = .ok a := by
  rw [atName, Except.bind_eq_ok_iff]
  constructor
  · -- a path without a name is refused before anything is looked at
    rintro ⟨⟨l, name?, slash⟩, hslot, h⟩
    cases name? with
    | none => cases h
    | some name =>
      obtain ⟨k, hk, h⟩ := Except.bind_eq_ok_iff.1 h
      obtain ⟨hsize, rfl⟩ := child_eq_ok_iff.1 hk
      exact ⟨l, name, slash, hslot, hsize, h⟩
  · rintro ⟨l, name, slash, hslot, hsize, h⟩
    exact ⟨_, hslot, Except.bind_eq_ok_iff.2 ⟨_, child_eq_ok_iff.2 ⟨hsize, rfl⟩, h⟩⟩

theorem makeDirectory_eq_atName (d : Disk) (p : FilePath) :
    d.makeDirectory p = d.atName p (.os .alreadyExists) fun l _ =>
      match d.get? l with
      | some _ => .error (.os .alreadyExists)
      | none => .ok (d.put l .directory) := rfl

theorem removeDirectory_eq_atName (d : Disk) (p : FilePath) :
    d.removeDirectory p = d.atName p (.os .invalidArgument) fun l _ =>
      match d.get? l with
      | none => .error (.os .notFound)
      | some (.file ..) => .error (.os .notADirectory)
      | some .directory =>
        if d.hasChildren l then .error (.os .notEmpty) else .ok (d.erase l) := rfl

theorem removeFile_eq_atName (d : Disk) (p : FilePath) :
    d.removeFile p = d.atName p (.os .isADirectory) fun l hasSlash =>
      match d.get? l with
      | none => .error (.os .notFound)
      | some .directory => .error (.os .isADirectory)
      | some (.file ..) => if hasSlash then .error (.os .notADirectory) else .ok (d.erase l) := rfl

/-- A directory that is made is new. -/
theorem adds_of_makeDirectory (h : d.makeDirectory p = .ok e) :
    ∃ l name slash, d.slot p = .ok ⟨l, some name, slash⟩ ∧ name.utf8ByteSize ≤ nameLimit ∧
      Adds d (l ++ [name]) .directory e ∧ e.nextSerial = d.nextSerial := by
  rw [makeDirectory_eq_atName] at h
  obtain ⟨l, name, slash, hslot, hsize, hact⟩ := atName_eq_ok_iff.1 h
  refine ⟨l, name, slash, hslot, hsize, ?_⟩
  cases hx : d.get? (l ++ [name]) with
  | some x => simp [hx] at hact
  | none =>
    simp only [hx] at hact
    cases hact
    exact ⟨.put hx .directory, rfl⟩

theorem makeDirectory_of_slot_eq_error {e : IoError} (h : d.slot p = .error e) :
    d.makeDirectory p = .error e := by
  rw [makeDirectory_eq_atName, atName, h]
  rfl

theorem makeDirectory_of_noName (h : d.slot p = .ok ⟨l, none, slash⟩) :
    d.makeDirectory p = .error (.os .alreadyExists) := by
  rw [makeDirectory_eq_atName, atName, h]
  rfl

/-- Making a directory finds something missing only on the way to it. At the name itself a directory
that is missing is what is wanted, and every other failure there is of another kind. -/
theorem slot_of_makeDirectory_notFound (h : d.makeDirectory p = .error (.os .notFound)) :
    d.slot p = .error (.os .notFound) := by
  cases hslot : d.slot p with
  | error e =>
    rw [makeDirectory_of_slot_eq_error hslot] at h
    rw [Except.error.inj h]
  -- there is a slot, so everything on the way is there
  | ok s =>
    obtain ⟨l, name?, slash⟩ := s
    cases name? with
    | none =>
      rw [makeDirectory_of_noName hslot] at h
      cases h
    | some name =>
      rw [makeDirectory_eq_atName, atName, hslot] at h
      -- a name that is too long, or one where something is or is not
      cases hchild : child l name with
      | error e =>
        simp only [bind, Except.bind, hchild] at h
        rw [child] at hchild
        split at hchild <;> cases hchild
        cases h
      | ok k =>
        cases hx : d.get? k <;> simp [bind, Except.bind, hchild, hx] at h

theorem checkPath_ne_notFound (h : p.isEmpty = false) : checkPath p ≠ .error (.os .notFound) := by
  unfold checkPath
  split
  · simp
  · rw [if_neg (by simp [h])]
    split <;> simp

/-- The root and the working directory are not made, and nothing on the way to them is missing. -/
theorem makeDirectory_of_noNames (hempty : p.isEmpty = false)
    (hp : p.segments = [] ∨ p.segments = ["."]) :
    ∃ e, d.makeDirectory p = .error e ∧ e ≠ .os .notFound := by
  cases hcheck : checkPath p with
  | error e =>
    refine ⟨e, makeDirectory_of_slot_eq_error (slot_of_checkPath hcheck), ?_⟩
    rintro rfl
    exact checkPath_ne_notFound hempty hcheck
  | ok u =>
    rcases hp with hsegments | hsegments
    · exact ⟨_, makeDirectory_of_noName (slot_of_noSegments hcheck hsegments), by simp⟩
    · -- the path is `.`, whose slot is the working directory without a name
      have hslot : d.slot p =
          if d.get? (d.start p) = some .directory then .ok ⟨d.start p, none, p.endsWithSlash⟩
          else .error (.os .notADirectory) :=
        slot_of_segments hcheck (hsegments.trans (List.nil_append _).symm)
      by_cases hdir : d.get? (d.start p) = some .directory
      · rw [if_pos hdir] at hslot
        exact ⟨_, makeDirectory_of_noName hslot, by simp⟩
      · rw [if_neg hdir] at hslot
        exact ⟨_, makeDirectory_of_slot_eq_error hslot, by simp⟩

/-- A slot is still there after an entry was added. -/
theorem Adds.slot {k : Location} (h : Adds d k x e) (hslot : d.slot p = .ok ⟨l, some name, slash⟩) :
    e.slot p = .ok ⟨l, some name, slash⟩ :=
  slot_mono h.workingDirectory.symm (fun _ hm => h.get?_of_get? hm) hslot

/-- A directory that was made can be removed, and the tree is what it was. -/
theorem exists_removeDirectory (hd : d.Sound) (hslot : d.slot p = .ok ⟨l, some name, slash⟩)
    (hsize : name.utf8ByteSize ≤ nameLimit) (h : Adds d (l ++ [name]) .directory e) :
    ∃ f, e.removeDirectory p = .ok f ∧ SameTree f d := by
  refine ⟨e.erase (l ++ [name]), ?_, h.erase⟩
  rw [removeDirectory_eq_atName]
  refine atName_eq_ok_iff.2 ⟨l, name, slash, h.slot hslot, hsize, ?_⟩
  simp only [h.get?_self, h.hasChildren hd]
  rfl

/-- A file that was created can be removed, and the tree is what it was. -/
theorem exists_removeFile {serial : Nat} {bytes : List UInt8}
    (hslot : d.slot p = .ok ⟨l, some name, false⟩) (hsize : name.utf8ByteSize ≤ nameLimit)
    (h : Adds d (l ++ [name]) (.file serial bytes) e) :
    ∃ f, e.removeFile p = .ok f ∧ SameTree f d := by
  refine ⟨e.erase (l ++ [name]), ?_, h.erase⟩
  rw [removeFile_eq_atName]
  refine atName_eq_ok_iff.2 ⟨l, name, false, h.slot hslot, hsize, ?_⟩
  simp only [h.get?_self]
  rfl

/-- A file that is there is truncated, and a missing one gets the next serial number. In either case
the handle is at the start. -/
theorem createFile_eq_ok {h : FileHandle} (hcreate : d.createFile p = .ok (h, e)) :
    ∃ l name, d.slot p = .ok ⟨l, some name, false⟩ ∧ name.utf8ByteSize ≤ nameLimit ∧
      h.position = 0 ∧
      ((∃ bytes, d.get? (l ++ [name]) = some (.file h.serial bytes) ∧
          e = d.put (l ++ [name]) (.file h.serial [])) ∨
        h.serial = d.nextSerial ∧ e.nextSerial = d.nextSerial + 1 ∧
          Adds d (l ++ [name]) (.file h.serial []) e) := by
  rw [createFile] at hcreate
  obtain ⟨⟨l, name?, slash⟩, hslot, hres⟩ := Except.bind_eq_ok_iff.1 hcreate
  -- a path without a name, or one that ends in a separator, is that of no file
  cases name? with
  | none => cases hres
  | some name =>
    cases slash with
    | true => cases hres
    | false =>
      obtain ⟨k, hk, hres⟩ := Except.bind_eq_ok_iff.1 hres
      obtain ⟨hsize, rfl⟩ := child_eq_ok_iff.1 hk
      refine ⟨l, name, hslot, hsize, ?_⟩
      -- a directory, a file, or nothing
      split at hres
      · cases hres
      · rename_i serial bytes hx
        cases hres
        exact ⟨rfl, .inl ⟨bytes, hx, rfl⟩⟩
      · rename_i hx
        cases hres
        exact ⟨rfl, .inr ⟨rfl, rfl, .congr (.put hx _) ⟨rfl, rfl⟩⟩⟩

end StubGen.Disk
