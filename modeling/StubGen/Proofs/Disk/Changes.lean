import StubGen.Proofs.Disk

/-!
# What operations change

A path names one place, whatever stands on the way to it: its segments go down, stay or go up. An
operation on the path changes that place and no other, and the tree it leaves is a tree again. So a
run of operations keeps every file that none of their paths leads to.

Main results:

* `destination_of_slot`, `destination_of_locate` — where a path leads is read off its segments;
* `Grows`, `Spares` — what changes while directories are made, and what any operation leaves alone;
* `put_eq_setBytes`, `write_setBytes` — creating and writing a file set its bytes.
-/

namespace StubGen.Disk

variable {d e f : Disk} {k l m : Location} {x : Entry} {p : FilePath} {name : String} {slash : Bool}

/-! ## Where paths lead -/

/-- Where one segment of a path leads, whatever stands there. -/
def follow (l : Location) (segment : String) : Location :=
  if segment = "." then l else if segment = ".." then l.dropLast else l ++ [segment]

/-- The place that a path leads to, if it leads anywhere. -/
def destination (d : Disk) (p : FilePath) : Location := p.segments.foldl follow (d.start p)

theorem follow_of_enter {segment : String} (h : d.enter l segment = .ok m) :
    follow l segment = m := by
  obtain ⟨-, ⟨rfl, rfl⟩ | ⟨rfl, rfl⟩ | ⟨hdot, hdots, -, -, rfl⟩⟩ := enter_eq_ok h
  · rw [follow, if_pos rfl]
  · rw [follow, if_neg (by decide), if_pos rfl]
  · rw [follow, if_neg hdot, if_neg hdots]

theorem foldl_follow_of_walk {segments : List String} (h : d.walk l segments = .ok m) :
    segments.foldl follow l = m := by
  induction segments generalizing l with
  | nil => exact Except.ok.inj h
  | cons segment segments ih =>
    obtain ⟨k, hk, hrest⟩ := walk_cons_eq_ok_iff.1 h
    rw [List.foldl_cons, follow_of_enter hk]
    exact ih hrest

theorem destination_of_slot (h : d.slot p = .ok ⟨l, some name, slash⟩) :
    d.destination p = l ++ [name] := by
  obtain ⟨-, -, hdot, hdots, before, hsegments, hwalk, -⟩ := slot_eq_ok_iff.1 h
  rw [destination, hsegments, List.foldl_append, foldl_follow_of_walk hwalk]
  show follow l name = _
  rw [follow, if_neg hdot, if_neg hdots]

theorem destination_of_locate (h : d.locate p = .ok l) : d.destination p = l :=
  foldl_follow_of_walk (locate_eq_ok_iff.1 h).2.1

theorem destination_congr (h : e.workingDirectory = d.workingDirectory) (p : FilePath) :
    e.destination p = d.destination p := by
  rw [destination, destination, start, start, h]

/-! ## Reading -/

/-- A file can be read exactly if the path leads to one. -/
theorem openFile_eq_ok_iff {bytes : List UInt8} :
    d.openFile p = .ok (.ok bytes) ↔ ∃ serial, d.find? p = some (.file serial bytes) := by
  simp only [find?_eq_some_iff, openFile, Except.bind_eq_ok_iff]
  constructor
  · rintro ⟨l, hl, h⟩
    split at h
    · rename_i serial bytes' hx
      cases h
      exact ⟨serial, l, hl, hx⟩
    · cases h
    · cases h
  · rintro ⟨serial, l, hl, hx⟩
    refine ⟨l, hl, ?_⟩
    rw [hx]
    rfl

theorem readBytes_of_find? {serial : Nat} {bytes : List UInt8}
    (h : d.find? p = some (.file serial bytes)) : d.readBytes p = .ok bytes := by
  have hopen : d.openFile p = .ok (.ok bytes) := openFile_eq_ok_iff.2 ⟨serial, h⟩
  rw [readBytes, hopen]
  rfl

/-- What a path leads to is still found if the directories are there and it is. What has been added
elsewhere does not matter, for a walk looks at nothing but the names on its way. -/
theorem find?_mono (hwd : e.workingDirectory = d.workingDirectory)
    (hdir : ∀ k, d.get? k = some .directory → e.get? k = some .directory)
    (h : d.find? p = some x) (hx : e.get? (d.destination p) = some x) :
    e.find? p = some x := by
  obtain ⟨l, hlocate, hl⟩ := find?_eq_some_iff.1 h
  rw [destination_of_locate hlocate] at hx
  obtain ⟨hcheck, hwalk, hslash⟩ := locate_eq_ok_iff.1 hlocate
  refine find?_eq_some_iff.2 ⟨l, locate_eq_ok_iff.2 ⟨hcheck, ?_, ?_⟩, hx⟩
  · rw [start, hwd]
    show e.walk (d.start p) p.segments = .ok l
    rcases List.eq_nil_or_concat' p.segments with hsegments | ⟨before, last, hsegments⟩
    · -- no segments: the path leads to where it starts
      rw [hsegments] at hwalk ⊢
      exact hwalk
    · -- the last step may lead to a file, all others lead to directories
      rw [hsegments, walk_concat] at hwalk ⊢
      obtain ⟨k, hk, henter⟩ := Except.bind_eq_ok_iff.1 hwalk
      obtain ⟨hkd, hcases⟩ := enter_eq_ok henter
      rw [walk_mono hdir hk hkd]
      show e.enter k last = .ok l
      rcases hcases with ⟨rfl, rfl⟩ | ⟨rfl, rfl⟩ | ⟨hdot, hdots, hsize, -, rfl⟩
      · -- the last step stays where it is, goes up, or goes to the name
        rw [enter, if_neg (not_not.2 (hdir _ hkd)), if_pos rfl]
      · rw [enter, if_neg (not_not.2 (hdir _ hkd)), if_neg (by decide), if_pos rfl]
      · exact enter_name (hdir k hkd) hdot hdots hsize (by simp [hx])
  · intro h
    exact hdir l (hslash h)

/-! ## Trees that stay trees -/

theorem Sound.get?_of_mem (hd : d.Sound) (h : (l, x) ∈ d.entries) : d.get? l = some x := by
  have hl : l ≠ [] := hd.belowRoot _ h
  rw [get?, if_neg hl]
  obtain ⟨before, after, heq⟩ := List.append_of_mem h
  have hnodup := hd.distinct
  rw [heq, List.map_append, List.map_cons, List.nodup_append] at hnodup
  refine List.lookup_eq_some_iff.2 ⟨before, after, heq, fun y hy => ?_⟩
  have hne := hnodup.2.2 y.1 (List.mem_map_of_mem hy) l List.mem_cons_self
  simpa using hne.symm

/-- A file has its serial number for itself. -/
theorem Sound.eq_of_get?_file (hd : d.Sound) {serial : Nat} {bytes bytes' : List UInt8}
    (hl : d.get? l = some (.file serial bytes)) (hm : d.get? m = some (.file serial bytes')) :
    l = m := by
  have hne : ∀ {k : Location} {bytes : List UInt8}, d.get? k = some (.file serial bytes) →
      k ≠ [] := by
    rintro k bytes hk rfl
    cases hk
  exact hd.serial_inj l m serial bytes bytes' (mem_entries_of_get? (hne hl) hl)
    (mem_entries_of_get? (hne hm) hm)

/-- The bytes of a file are found at its place alone. -/
theorem Sound.mapEntry_of_ne (hd : d.Sound) {serial : Nat} {bytes : List UInt8}
    (hl : d.get? l = some (.file serial bytes)) (hm : d.get? m = some x) (hne : m ≠ l)
    (f : List UInt8 → List UInt8) : mapEntry serial f x = x := by
  cases x with
  | directory => rfl
  | file n old =>
    have hn : n ≠ serial := by
      rintro rfl
      exact hne (hd.eq_of_get?_file hm hl)
    exact Disk.mapEntry_of_ne hn f old

/-- A tree is still one without an entry that has nothing below it. Everything but what holds an
entry is a matter of the entries that are left. -/
theorem Sound.erase (hd : d.Sound) (hleaf : ∀ y ∈ d.entries, y.1.dropLast = l → y.1 = l) :
    (d.erase l).Sound := by
  have hmem : ∀ y ∈ (d.erase l).entries, y ∈ d.entries ∧ y.1 ≠ l := by
    intro y hy
    obtain ⟨hy, hne⟩ := List.mem_filter.1 hy
    exact ⟨hy, by simpa using hne⟩
  constructor
  · exact hd.distinct.sublist (List.filter_sublist.map _)
  · exact fun y hy => hd.belowRoot y (hmem y hy).1
  · -- what holds an entry is not the one that was taken away, for nothing is below that
    intro y hy
    obtain ⟨hy, hne⟩ := hmem y hy
    have hdir := hd.inDirectory y hy
    have hup : y.1.dropLast ≠ l := fun h => hne (hleaf y hy h)
    rw [get?_erase, if_neg hup, hdir, ite_self]
  · exact fun k n bytes h => hd.serial_lt k n bytes (hmem _ h).1
  · exact fun k m n bytes bytes' hk hm =>
      hd.serial_inj k m n bytes bytes' (hmem _ hk).1 (hmem _ hm).1

/-- Nothing stands below a file. -/
theorem Sound.eq_of_dropLast_eq_file (hd : d.Sound) {serial : Nat} {bytes : List UInt8}
    (hl : d.get? l = some (.file serial bytes)) {y : Location × Entry} (hy : y ∈ d.entries)
    (h : y.1.dropLast = l) : y.1 = l := by
  have hdir := hd.inDirectory y hy
  rw [h, hl] at hdir
  cases hdir

theorem eq_of_dropLast_eq_of_not_hasChildren (hl : d.hasChildren l = false)
    {y : Location × Entry} (hy : y ∈ d.entries) (h : y.1.dropLast = l) : y.1 = l := by
  rw [hasChildren, List.any_eq_false] at hl
  by_contra hne
  refine hl y hy ?_
  rw [Bool.and_eq_true, bne_iff_ne, List.isPrefixOf_iff_prefix]
  exact ⟨hne, h ▸ List.dropLast_prefix y.1⟩

/-! ## Bytes of one file -/

theorem lookup_map_mapEntry (serial : Nat) (g : List UInt8 → List UInt8)
    (es : List (Location × Entry)) (l : Location) :
    (es.map fun x => (x.1, mapEntry serial g x.2)).lookup l =
      (es.lookup l).map (mapEntry serial g) := by
  induction es with
  | nil => rfl
  | cons y es ih =>
    obtain ⟨k, z⟩ := y
    rw [List.map_cons, List.lookup_cons, List.lookup_cons, ih]
    cases l == k <;> rfl

theorem get?_mapFile (d : Disk) (serial : Nat) (g : List UInt8 → List UInt8) (l : Location) :
    (d.mapFile serial g).get? l = (d.get? l).map (mapEntry serial g) := by
  by_cases hl : l = []
  · rw [get?, get?, if_pos hl, if_pos hl]
    rfl
  · rw [get?, get?, if_neg hl, if_neg hl]
    exact lookup_map_mapEntry serial g d.entries l

theorem get?_mapFile_eq_directory_iff {serial : Nat} {g : List UInt8 → List UInt8} :
    (d.mapFile serial g).get? l = some .directory ↔ d.get? l = some .directory := by
  rw [get?_mapFile]
  cases d.get? l with
  | none => simp
  | some x => cases x <;> simp [mapEntry]

theorem mapFile_mapFile (d : Disk) (serial : Nat) (g h : List UInt8 → List UInt8) :
    (d.mapFile serial g).mapFile serial h = d.mapFile serial (h ∘ g) := by
  have hentry : ∀ x, mapEntry serial h (mapEntry serial g x) = mapEntry serial (h ∘ g) x := by
    intro x
    cases x with
    | directory => rfl
    | file n bytes => simp only [mapEntry]; split <;> rfl
  simp only [mapFile, List.map_map, Function.comp_def, hentry]

/-- A tree is still one with other bytes in a file: no file comes, goes or gets another number. -/
theorem Sound.mapFile (hd : d.Sound) (serial : Nat) (g : List UInt8 → List UInt8) :
    (d.mapFile serial g).Sound := by
  have hfile : ∀ k n bytes, (k, .file n bytes) ∈ (d.mapFile serial g).entries →
      ∃ old, (k, .file n old) ∈ d.entries := by
    intro k n bytes h
    obtain ⟨⟨k', z⟩, hz, heq⟩ := List.mem_map.1 h
    obtain ⟨rfl, hx⟩ := Prod.mk.inj heq
    cases z with
    | directory => cases hx
    | file n' old =>
      obtain ⟨rfl, -⟩ := Entry.file.inj hx
      exact ⟨old, hz⟩
  -- the places are the same as before
  have hkeys : (d.mapFile serial g).entries.map (·.1) = d.entries.map (·.1) := by
    rw [Disk.mapFile, List.map_map]
    rfl
  constructor
  · -- distinct and below the root, for the places are
    rw [hkeys]
    exact hd.distinct
  · intro y hy
    obtain ⟨z, hz, rfl⟩ := List.mem_map.1 hy
    exact hd.belowRoot z hz
  · -- in directories, which have no bytes to change
    intro y hy
    obtain ⟨z, hz, rfl⟩ := List.mem_map.1 hy
    exact get?_mapFile_eq_directory_iff.2 (hd.inDirectory z hz)
  · -- numbered as before
    intro k n bytes h
    obtain ⟨old, hold⟩ := hfile k n bytes h
    exact hd.serial_lt k n old hold
  · intro k m n bytes bytes' hk hm
    obtain ⟨old, hold⟩ := hfile k n bytes hk
    obtain ⟨old', hold'⟩ := hfile m n bytes' hm
    exact hd.serial_inj k m n old old' hold hold'

/-- The disk with other bytes in the file of a serial number. -/
def setBytes (d : Disk) (serial : Nat) (bytes : List UInt8) : Disk :=
  d.mapFile serial fun _ => bytes

theorem setBytes_setBytes (d : Disk) (serial : Nat) (bytes bytes' : List UInt8) :
    (d.setBytes serial bytes).setBytes serial bytes' = d.setBytes serial bytes' :=
  mapFile_mapFile d serial _ _

/-- Writing at the end of a file appends. -/
theorem write_setBytes (d : Disk) (serial : Nat) (bytes new : List UInt8) :
    (d.setBytes serial bytes).write ⟨serial, bytes.length⟩ new =
      (⟨serial, (bytes ++ new).length⟩, d.setBytes serial (bytes ++ new)) := by
  rw [write_eq, setBytes, mapFile_mapFile, List.length_append]
  simp only [Function.comp_def, overlay_end]
  rfl

theorem get?_setBytes_self {serial : Nat} {bytes : List UInt8}
    (hl : d.get? l = some (.file serial bytes)) (new : List UInt8) :
    (d.setBytes serial new).get? l = some (.file serial new) := by
  rw [setBytes, get?_mapFile, hl, Option.map_some, mapEntry, if_pos rfl]

/-- The other files keep their bytes. -/
theorem get?_setBytes_of_ne (hd : d.Sound) {serial : Nat} {bytes : List UInt8}
    (hl : d.get? l = some (.file serial bytes)) (hm : m ≠ l) (new : List UInt8) :
    (d.setBytes serial new).get? m = d.get? m := by
  rw [setBytes, get?_mapFile]
  cases hx : d.get? m with
  | none => rfl
  | some x => rw [Option.map_some, hd.mapEntry_of_ne hl hx hm]

/-- A file that has the bytes already stays as it is. -/
theorem setBytes_of_get? (hd : d.Sound) {serial : Nat} {bytes : List UInt8}
    (hl : d.get? l = some (.file serial bytes)) : d.setBytes serial bytes = d := by
  have hentries : (d.setBytes serial bytes).entries = d.entries := by
    show d.entries.map _ = d.entries
    -- entry by entry, for the file is one entry and all others have other numbers
    conv_rhs => rw [← List.map_id d.entries]
    refine List.map_congr_left fun y hy => Prod.ext rfl ?_
    show mapEntry serial (fun _ => bytes) y.2 = y.2
    have hy := hd.get?_of_mem hy
    by_cases hk : y.1 = l
    · rw [hk, hl] at hy
      rw [← Option.some.inj hy, mapEntry, if_pos rfl]
    · exact hd.mapEntry_of_ne hl hy hk _
  show { d with entries := (d.setBytes serial bytes).entries } = d
  rw [hentries]

/-- Putting a file in the place of itself sets its bytes. The one names the file by its place and
the other by its number, and in a tree these say the same. -/
theorem put_eq_setBytes (hd : d.Sound) {serial : Nat} {old : List UInt8}
    (hl : d.get? l = some (.file serial old)) (new : List UInt8) :
    d.put l (.file serial new) = d.setBytes serial new := by
  have hne : l ≠ [] := by
    rintro rfl
    cases hl
  -- in a list of distinct places, what is put in changes the entry of its place
  have hput : ∀ es : List (Location × Entry), (es.map (·.1)).Nodup →
      (l, .file serial old) ∈ es → putIn l (.file serial new) es =
        es.map fun y => if y.1 = l then (l, .file serial new) else y := by
    intro es hnodup hmem
    induction es with
    | nil => cases hmem
    | cons y es ih =>
      obtain ⟨k, z⟩ := y
      rw [List.map_cons, List.nodup_cons] at hnodup
      by_cases hk : k = l
      · -- the rest of the list is about other places
        have hrest : es.map (fun y => if y.1 = l then (l, .file serial new) else y) = es := by
          conv_rhs => rw [← List.map_id es]
          refine List.map_congr_left fun y hy => if_neg ?_
          intro h
          refine hnodup.1 ?_
          rw [hk, ← h]
          exact List.mem_map.2 ⟨y, hy, rfl⟩
        rw [putIn, if_pos hk, List.map_cons, if_pos hk, hrest]
      · -- the entry comes later in the list
        have hmem' : (l, .file serial old) ∈ es := by
          refine (List.mem_cons.1 hmem).resolve_left fun h => hk ?_
          exact (Prod.mk.inj h).1.symm
        rw [putIn, if_neg hk, List.map_cons, if_neg hk, ih hnodup.2 hmem']
  rw [put, hput d.entries hd.distinct (mem_entries_of_get? hne hl)]
  -- entry by entry, both name the same file
  show { d with entries := _ } = { d with entries := _ }
  congr 1
  refine List.map_congr_left fun y hy => ?_
  obtain ⟨k, z⟩ := y
  have hk := hd.get?_of_mem hy
  by_cases hkl : k = l
  · subst hkl
    obtain rfl := Option.some.inj (hk.symm.trans hl)
    simp [mapEntry]
  · simp [hkl, hd.mapEntry_of_ne hl hk hkl]

/-! ## Making directories -/

/-- The disk `e` shows the tree of `d` with more directories, at some of the given places. -/
structure Grows (places : List Location) (d e : Disk) : Prop where
  sound : e.Sound
  workingDirectory : e.workingDirectory = d.workingDirectory
  kept : ∀ l x, d.get? l = some x → e.get? l = some x
  made : ∀ l x, d.get? l = none → e.get? l = some x → x = .directory ∧ l ∈ places

namespace Grows

variable {ps qs : List Location}

theorem refl (hd : d.Sound) : Grows ps d d :=
  ⟨hd, rfl, fun _ _ h => h, fun l x hnone h => by rw [hnone] at h; cases h⟩

theorem trans (h : Grows ps d e) (h' : Grows ps e f) : Grows ps d f where
  sound := h'.sound
  workingDirectory := h'.workingDirectory.trans h.workingDirectory
  kept l x hx := h'.kept l x (h.kept l x hx)
  made l x hnone hx := by
    cases hl : e.get? l with
    | none => exact h'.made l x hl hx
    | some y =>
      obtain rfl := Option.some.inj ((h'.kept l y hl).symm.trans hx)
      exact h.made l y hnone hl

theorem mono (h : Grows ps d e) (hsub : ∀ l ∈ ps, l ∈ qs) : Grows qs d e :=
  ⟨h.sound, h.workingDirectory, h.kept, fun l x hnone hx =>
    ⟨(h.made l x hnone hx).1, hsub l (h.made l x hnone hx).2⟩⟩

/-- The files are the same. -/
theorem get?_eq_file_iff (h : Grows ps d e) {serial : Nat} {bytes : List UInt8} :
    e.get? l = some (.file serial bytes) ↔ d.get? l = some (.file serial bytes) := by
  refine ⟨fun hl => ?_, h.kept l _⟩
  cases hx : d.get? l with
  | none => exact nomatch (h.made l _ hx hl).1
  | some x => rw [← h.kept l x hx, hl]

end Grows

theorem grows_of_makeDirectory (hd : d.Sound) (h : d.makeDirectory p = .ok e) :
    Grows [d.destination p] d e := by
  obtain ⟨l, name, slash, hslot, -, hadds, hserial⟩ := adds_of_makeDirectory h
  -- the directory comes to stand in one that was there
  obtain ⟨-, -, -, -, -, -, -, hdir⟩ := slot_eq_ok_iff.1 hslot
  refine ⟨hadds.sound hd hdir hserial.symm.le, hadds.workingDirectory,
    fun m x hm => hadds.get?_of_get? hm, fun m x hnone hm => ?_⟩
  rw [hadds.get?] at hm
  split at hm
  · -- what is new is at the place of the path
    rename_i hml
    cases hm
    rw [hml, destination_of_slot hslot]
    exact ⟨rfl, List.mem_singleton_self _⟩
  · rw [hnone] at hm
    cases hm

/-- Whether all directories could be made or not, those that were are among the given ones. This is
what is known of a run that stops anywhere: it has taken nothing away and made nothing else. -/
theorem grows_makeDirectories (hd : d.Sound) (ps : List FilePath) :
    Grows (ps.map d.destination) d (makeDirectories ps d).2 := by
  induction ps with
  | nil => exact .refl hd
  | cons p outer ih =>
    have htail : Grows ((p :: outer).map d.destination) d (makeDirectories outer d).2 :=
      ih.mono fun l hl => List.mem_cons_of_mem _ hl
    -- a directory that is made after others
    have hhead : ∀ {e e' : Disk}, Grows ((p :: outer).map d.destination) d e →
        e.makeDirectory p = .ok e' → Grows ((p :: outer).map d.destination) d e' := by
      intro e e' he h
      have hmade := grows_of_makeDirectory he.sound h
      rw [destination_congr he.workingDirectory] at hmade
      refine he.trans (hmade.mono fun l hl => ?_)
      rw [List.mem_singleton.1 hl]
      exact List.mem_cons_self
    -- a directory that is there already is no change
    have hsettle : ∀ {e : Disk} {e' : IoError}, Grows ((p :: outer).map d.destination) d e →
        Grows ((p :: outer).map d.destination) d
          (if e' = .os .alreadyExists ∧ e.isDirectory p then
            ((.ok () : Except IoError Unit), e) else (.error e', e)).2 := by
      intro e e' he
      split <;> exact he
    rw [makeDirectories]
    -- nothing to do, made at once, made after its parent, or neither
    split
    · exact .refl hd
    · split
      · rename_i h
        exact hhead (.refl hd) h
      · split
        · rename_i houter
          rwa [houter] at htail
        · rename_i e houter
          rw [houter] at htail
          split
          · rename_i h
            exact hhead htail h
          · exact hsettle htail
      · exact hsettle (.refl hd)

/-! ## Removing -/

theorem removeFile_eq_ok (h : d.removeFile p = .ok e) :
    ∃ serial bytes, d.get? (d.destination p) = some (.file serial bytes) ∧
      e = d.erase (d.destination p) := by
  rw [removeFile_eq_atName] at h
  obtain ⟨l, name, slash, hslot, -, hact⟩ := atName_eq_ok_iff.1 h
  rw [destination_of_slot hslot]
  split at hact
  · cases hact
  · cases hact
  · rename_i serial bytes hx
    split at hact
    · cases hact
    · cases hact
      exact ⟨serial, bytes, hx, rfl⟩

theorem removeDirectory_eq_ok (h : d.removeDirectory p = .ok e) :
    d.get? (d.destination p) = some .directory ∧ d.hasChildren (d.destination p) = false ∧
      e = d.erase (d.destination p) := by
  rw [removeDirectory_eq_atName] at h
  obtain ⟨l, name, slash, hslot, -, hact⟩ := atName_eq_ok_iff.1 h
  rw [destination_of_slot hslot]
  split at hact
  · cases hact
  · cases hact
  · rename_i hx
    split at hact
    · cases hact
    · rename_i hchildren
      cases hact
      exact ⟨hx, Bool.not_eq_true _ ▸ hchildren, rfl⟩

/-! ## Files that are left alone -/

/-- Whatever else has changed, the files of `d` outside a place are in `e` as they were. -/
structure Spares (place : Location) (d e : Disk) : Prop where
  sound : e.Sound
  workingDirectory : e.workingDirectory = d.workingDirectory
  file : ∀ l serial bytes, l ≠ place → d.get? l = some (.file serial bytes) →
    e.get? l = some (.file serial bytes)

namespace Spares

theorem refl (hd : d.Sound) : Spares k d d := ⟨hd, rfl, fun _ _ _ _ h => h⟩

theorem trans (h : Spares k d e) (h' : Spares k e f) : Spares k d f where
  sound := h'.sound
  workingDirectory := h'.workingDirectory.trans h.workingDirectory
  file l serial bytes hne hl := h'.file l serial bytes hne (h.file l serial bytes hne hl)

theorem of_grows {ps : List Location} (h : Grows ps d e) : Spares k d e :=
  ⟨h.sound, h.workingDirectory, fun l _ _ _ hl => h.kept l _ hl⟩

/-- Erasing spares every file elsewhere. -/
theorem erase (hd : d.Sound) (hleaf : ∀ y ∈ d.entries, y.1.dropLast = l → y.1 = l)
    (hl : ∀ serial bytes, d.get? l = some (.file serial bytes) → l = k) :
    Spares k d (d.erase l) := by
  refine ⟨hd.erase hleaf, rfl, fun m serial bytes hne hm => ?_⟩
  have hroot : m ≠ [] := by
    rintro rfl
    cases hm
  have hml : m ≠ l := by
    rintro rfl
    exact hne (hl serial bytes hm)
  rw [get?_erase, if_neg hroot, if_neg hml, hm]

end Spares

theorem spares_of_removeFile (hd : d.Sound) (h : d.removeFile p = .ok e) :
    Spares (d.destination p) d e := by
  obtain ⟨serial, bytes, hl, rfl⟩ := removeFile_eq_ok h
  exact .erase hd (fun y hy => hd.eq_of_dropLast_eq_file hl hy) fun _ _ _ => rfl

theorem spares_of_removeDirectory (hd : d.Sound) (h : d.removeDirectory p = .ok e) :
    Spares k d e := by
  obtain ⟨hdir, hchildren, rfl⟩ := removeDirectory_eq_ok h
  refine .erase hd (fun y hy => eq_of_dropLast_eq_of_not_hasChildren hchildren hy) ?_
  intro serial bytes hl
  rw [hdir] at hl
  cases hl

end StubGen.Disk
