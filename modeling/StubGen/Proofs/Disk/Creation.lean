import StubGen.Proofs.Disk.Changes
import StubGen.Proofs.ScopedFile

/-!
# Creating a file

A file that is created stands at the place its path leads to, in a directory that is there now if it
was not before. Nothing else has changed, apart from directories that were made for the file. Where
the file was already, its bytes are gone and everything else is as it was.

Main results:

* `isDirectory_of_makeDirectories`, `makeDirectories_of_isDirectory` — what is made is there, and
  what is there is not made again;
* `writes_of_create` — what the creation of a file changes;
* `create_of_writes` — creating the file once more empties it and does nothing else.
-/

namespace StubGen

namespace Disk

variable {d e f : Disk} {k l : Location} {p path : FilePath} {outer : List FilePath} {name : String}
  {slash : Bool} {serial : Nat} {bytes : List UInt8}

/-! ## Directories that are there -/

/-- What can be reached can be reached from the directory that holds it, under the name that is last
in its path. A path that ends in `.` or `..` has no such name, and then nothing is said of it. -/
theorem slot_of_locate (h : d.locate p = .ok l) :
    ∃ s, d.slot p = .ok s ∧
      ∀ name, s.name? = some name → name.utf8ByteSize ≤ nameLimit ∧ s.directory ++ [name] = l := by
  obtain ⟨hcheck, hwalk, -⟩ := locate_eq_ok_iff.1 h
  rcases List.eq_nil_or_concat' p.segments with hsegments | ⟨before, last, hsegments⟩
  · -- without segments there is no directory to start from but the one it leads to
    exact ⟨_, slot_of_noSegments hcheck hsegments, fun name h => nomatch h⟩
  rw [hsegments, walk_concat] at hwalk
  obtain ⟨k, hk, henter⟩ := Except.bind_eq_ok_iff.1 hwalk
  obtain ⟨hdir, hcases⟩ := enter_eq_ok henter
  rw [slot_of_segments hcheck hsegments, hk, Except.bind, if_pos hdir]
  refine ⟨_, rfl, fun name hname => ?_⟩
  simp only at hname
  -- the last step of the walk went to the name
  split at hname
  · cases hname
  · rename_i hspecial
    obtain rfl := Option.some.inj hname
    rw [not_or] at hspecial
    rcases hcases with ⟨rfl, -⟩ | ⟨rfl, -⟩ | ⟨-, -, hsize, -, rfl⟩
    · exact absurd rfl hspecial.1
    · exact absurd rfl hspecial.2
    · exact ⟨hsize, rfl⟩

theorem makeDirectory_of_isDirectory (h : d.isDirectory p = true) :
    d.makeDirectory p = .error (.os .alreadyExists) := by
  obtain ⟨l, hlocate, hl⟩ := find?_eq_some_iff.1 (eq_of_beq h)
  obtain ⟨⟨k, name?, slash⟩, hslot, hname⟩ := slot_of_locate hlocate
  cases name? with
  | none => exact makeDirectory_of_noName hslot
  | some name =>
    obtain ⟨hsize, hkl⟩ := hname name rfl
    have hchild : child k name = .ok l := child_eq_ok_iff.2 ⟨hsize, hkl.symm⟩
    rw [makeDirectory_eq_atName, atName, hslot]
    show (child k name >>= _) = _
    rw [hchild]
    simp only [bind, Except.bind, hl]

theorem isDirectory_of_slot (hslot : d.slot p = .ok ⟨l, some name, slash⟩)
    (hsize : name.utf8ByteSize ≤ nameLimit) (hx : d.get? (l ++ [name]) = some .directory) :
    d.isDirectory p = true := by
  obtain ⟨hcheck, -, hdot, hdots, before, hsegments, hwalk, hdir⟩ := slot_eq_ok_iff.1 hslot
  have henter : d.enter l name = .ok (l ++ [name]) :=
    enter_name hdir hdot hdots hsize (by simp [hx])
  have hwalk' : d.walk (d.start p) p.segments = .ok (l ++ [name]) := by
    rw [hsegments, walk_concat, hwalk]
    exact henter
  have hlocate : d.locate p = .ok (l ++ [name]) :=
    locate_eq_ok_iff.2 ⟨hcheck, hwalk', fun _ => hx⟩
  exact beq_iff_eq.2 (find?_eq_some_iff.2 ⟨_, hlocate, hx⟩)

/-- A directory that was made is there. -/
theorem isDirectory_of_makeDirectory_eq_ok (h : d.makeDirectory p = .ok e) :
    e.isDirectory p = true := by
  obtain ⟨l, name, slash, hslot, hsize, hadds, -⟩ := adds_of_makeDirectory h
  exact isDirectory_of_slot (hadds.slot hslot) hsize hadds.get?_self

/-- A directory that can be removed is there. -/
theorem isDirectory_of_removeDirectory (h : d.removeDirectory p = .ok e) :
    d.isDirectory p = true := by
  have hx := (removeDirectory_eq_ok h).1
  rw [removeDirectory_eq_atName] at h
  obtain ⟨l, name, slash, hslot, hsize, -⟩ := atName_eq_ok_iff.1 h
  rw [destination_of_slot hslot] at hx
  exact isDirectory_of_slot hslot hsize hx

/-- Once a directory has been made with everything that should hold it, it is there. -/
theorem isDirectory_of_makeDirectories (h : makeDirectories (p :: outer) d = (.ok (), e)) :
    p.isEmpty = true ∨ e.isDirectory p = true := by
  rcases makeDirectories_eq_ok h with ⟨hthere, rfl⟩ | ⟨-, hmake⟩ |
    ⟨-, -, f, -, hmake | ⟨hthere, rfl⟩⟩
  · exact hthere
  · exact .inr (isDirectory_of_makeDirectory_eq_ok hmake)
  · exact .inr (isDirectory_of_makeDirectory_eq_ok hmake)
  · exact .inr hthere

theorem makeDirectories_of_isDirectory (h : d.isDirectory p = true) :
    makeDirectories (p :: outer) d = (.ok (), d) := by
  rw [makeDirectories, makeDirectory_of_isDirectory h]
  simp [h]

/-! ## The file itself -/

/-- A file that is there is emptied. -/
theorem createFile_of_get? (hd : d.Sound) (hslot : d.slot p = .ok ⟨l, some name, false⟩)
    (hsize : name.utf8ByteSize ≤ nameLimit)
    (hl : d.get? (l ++ [name]) = some (.file serial bytes)) :
    d.createFile p = .ok (⟨serial, 0⟩, d.setBytes serial []) := by
  have hchild : child l name = .ok (l ++ [name]) := child_eq_ok_iff.2 ⟨hsize, rfl⟩
  rw [← put_eq_setBytes hd hl, createFile, hslot]
  simp only [bind, Except.bind, hchild, hl]
  rfl

/-- The directory that is to hold a path is there. -/
def HasParent (d : Disk) (path : FilePath) : Prop :=
  ∀ p, path.parent? = some p → p.isEmpty = true ∨ d.isDirectory p = true

theorem HasParent.mono (h : d.HasParent path) (hwd : e.workingDirectory = d.workingDirectory)
    (hdir : ∀ k, d.get? k = some .directory → e.get? k = some .directory) : e.HasParent path := by
  intro p hp
  refine (h p hp).imp_right fun hthere => ?_
  have hfind : d.find? p = some .directory := eq_of_beq hthere
  obtain ⟨l, hlocate, hl⟩ := find?_eq_some_iff.1 hfind
  have hx : e.get? (d.destination p) = some .directory := by
    rw [destination_of_locate hlocate]
    exact hdir l hl
  exact beq_iff_eq.2 (find?_mono hwd hdir hfind hx)

/-- A path leads to a file with the given bytes. -/
def HasFile (d : Disk) (path : FilePath) (bytes : List UInt8) : Prop :=
  ∃ l name serial, d.slot path = .ok ⟨l, some name, false⟩ ∧ name.utf8ByteSize ≤ nameLimit ∧
    d.get? (l ++ [name]) = some (.file serial bytes)

namespace HasFile

variable {new : List UInt8}

theorem readBytes (h : d.HasFile path bytes) : d.readBytes path = .ok bytes := by
  obtain ⟨l, name, serial, hslot, hsize, hl⟩ := h
  have hfind : d.find? path = some (.file serial bytes) := by
    rw [find?_of_slot hslot hsize, hl]
  exact readBytes_of_find? hfind

theorem get?_destination (h : d.HasFile path bytes) :
    ∃ serial, d.get? (d.destination path) = some (.file serial bytes) := by
  obtain ⟨l, name, serial, hslot, -, hl⟩ := h
  rw [destination_of_slot hslot]
  exact ⟨serial, hl⟩

/-- A file is still found where all directories have stayed. -/
theorem mono (h : d.HasFile path bytes) (hwd : e.workingDirectory = d.workingDirectory)
    (hdir : ∀ k, d.get? k = some .directory → e.get? k = some .directory)
    (hx : e.get? (d.destination path) = some (.file serial new)) : e.HasFile path new := by
  obtain ⟨l, name, _, hslot, hsize, -⟩ := h
  rw [destination_of_slot hslot] at hx
  exact ⟨l, name, serial, slot_mono hwd.symm hdir hslot, hsize, hx⟩

/-- Without `..` the way to a file consists of the directories above it. -/
theorem of_noParents (h : d.HasFile path bytes) (hp : .parent ∉ path.components) (he : e.Sound)
    (hwd : e.workingDirectory = d.workingDirectory)
    (hx : e.get? (d.destination path) = some (.file serial new)) : e.HasFile path new := by
  obtain ⟨l, name, _, hslot, hsize, -⟩ := h
  rw [destination_of_slot hslot] at hx
  have hup := FilePath.not_mem_segments_of_noParents hp
  exact ⟨l, name, serial, he.slot_of_get? hwd.symm hup hx hslot, hsize, hx⟩

end HasFile

/-- The disk `e` shows the tree of `d` with a file of the given serial number and bytes at the end
of a path, and with directories that were made to hold it. -/
structure Writes (d : Disk) (path : FilePath) (serial : Nat) (bytes : List UInt8) (e : Disk) :
    Prop where
  sound : e.Sound
  workingDirectory : e.workingDirectory = d.workingDirectory
  slot : ∃ l name, e.slot path = .ok ⟨l, some name, false⟩ ∧ name.utf8ByteSize ≤ nameLimit
  parent : e.HasParent path
  file : e.get? (d.destination path) = some (.file serial bytes)
  others : ∀ l n old, l ≠ d.destination path →
    (e.get? l = some (.file n old) ↔ d.get? l = some (.file n old))
  kept : ∀ l, d.get? l = some .directory → e.get? l = some .directory
  made : ∀ l, e.get? l = some .directory → d.get? l = some .directory ∨
    d.get? l = none ∧ ∃ a ∈ path.ancestors, l = d.destination a

namespace Writes

/-- Other bytes in the file. What else was said of it does not depend on its bytes. -/
theorem setBytes (h : Writes d path serial bytes e) (new : List UInt8) :
    Writes d path serial new (e.setBytes serial new) := by
  -- directories are where they were
  have hdir : ∀ l, (e.setBytes serial new).get? l = some .directory ↔ e.get? l = some .directory :=
    fun l => get?_mapFile_eq_directory_iff
  obtain ⟨l, name, hslot, hsize⟩ := h.slot
  have hslot' : (e.setBytes serial new).slot path = .ok ⟨l, some name, false⟩ :=
    slot_mono (d := e) rfl (fun k => (hdir k).2) hslot
  exact {
    sound := h.sound.mapFile serial _
    workingDirectory := h.workingDirectory
    slot := ⟨l, name, hslot', hsize⟩
    parent := h.parent.mono (d := e) rfl fun k => (hdir k).2
    file := get?_setBytes_self h.file new
    -- the bytes of other files have not been touched
    others := fun l n old hne => by
      rw [get?_setBytes_of_ne h.sound h.file hne, h.others l n old hne]
    kept := fun l hl => (hdir l).2 (h.kept l hl)
    made := fun l hl => h.made l ((hdir l).1 hl) }

/-- Directories that were made before count as made for the file, if they are above it. -/
theorem of_grows (hgrows : Grows (path.ancestors.map d.destination) d f)
    (h : Writes f path serial bytes e) : Writes d path serial bytes e := by
  have hdestination : ∀ p, f.destination p = d.destination p :=
    destination_congr hgrows.workingDirectory
  exact {
    sound := h.sound
    workingDirectory := h.workingDirectory.trans hgrows.workingDirectory
    slot := h.slot
    parent := h.parent
    file := by rw [← hdestination, h.file]
    others := fun l n old hne => by
      rw [← hdestination] at hne
      rw [h.others l n old hne, hgrows.get?_eq_file_iff]
    kept := fun l hl => h.kept l (hgrows.kept l _ hl)
    -- a directory of the end was there at the start, or came before the file, or with it
    made := by
      intro l hl
      cases hx : d.get? l with
      | some x =>
        rcases h.made l hl with hf | ⟨hf, -⟩ <;> rw [hgrows.kept l x hx] at hf
        · exact .inl hf
        · cases hf
      | none =>
        refine .inr ⟨rfl, ?_⟩
        rcases h.made l hl with hf | ⟨-, a, ha, rfl⟩
        · obtain ⟨a, ha, heq⟩ := List.mem_map.1 (hgrows.made l _ hx hf).2
          exact ⟨a, ha, heq.symm⟩
        · exact ⟨a, ha, hdestination a⟩ }

theorem get?_slot (h : Writes d path serial bytes e)
    (hslot : e.slot path = .ok ⟨l, some name, slash⟩) :
    e.get? (l ++ [name]) = some (.file serial bytes) := by
  rw [← destination_of_slot hslot, destination_congr h.workingDirectory, h.file]

theorem hasFile (h : Writes d path serial bytes e) : e.HasFile path bytes := by
  obtain ⟨l, name, hslot, hsize⟩ := h.slot
  exact ⟨l, name, serial, hslot, hsize, h.get?_slot hslot⟩

end Writes

/-- Creating a file changes the file and makes nothing else. It takes its directory to be there. -/
theorem writes_of_createFile (hd : d.Sound) (hp : d.HasParent path) {h : FileHandle}
    (hcreate : d.createFile path = .ok (h, e)) :
    h.position = 0 ∧ Writes d path h.serial [] e := by
  obtain ⟨l, name, hslot, hsize, hposition, hcases⟩ := createFile_eq_ok hcreate
  have hplace := destination_of_slot hslot
  refine ⟨hposition, ?_⟩
  rcases hcases with ⟨old, hl, rfl⟩ | ⟨hserial, hnext, hadds⟩
  · -- the file was there: this is the writing of no bytes to it
    have hthere : Writes d path h.serial old d :=
      ⟨hd, rfl, ⟨l, name, hslot, hsize⟩, hp, hplace ▸ hl, fun _ _ _ _ => .rfl, fun _ h => h,
        fun _ h => .inl h⟩
    rw [put_eq_setBytes hd hl]
    exact hthere.setBytes []
  · -- the file was missing: it is a new entry, with a number that no file has had
    obtain ⟨-, -, -, -, -, -, -, hdir⟩ := slot_eq_ok_iff.1 hslot
    have hother : ∀ m, m ≠ d.destination path → e.get? m = d.get? m := by
      intro m hm
      rw [hadds.get?, if_neg (hplace ▸ hm)]
    exact {
      sound := by
        refine hadds.sound_of hd hdir (by omega) ?_
        rintro n bytes ⟨⟩
        omega
      workingDirectory := hadds.workingDirectory
      slot := ⟨l, name, hadds.slot hslot, hsize⟩
      parent := hp.mono hadds.workingDirectory fun k hk => hadds.get?_of_get? hk
      file := hplace ▸ hadds.get?_self
      others := fun m n old hm => by rw [hother m hm]
      kept := fun m hm => hadds.get?_of_get? hm
      -- what is new is no directory
      made := by
        intro m hm
        rw [hadds.get?] at hm
        split at hm
        · cases hm
        · exact .inl hm }

end Disk

/-! ## With the directories above it -/

namespace ScopedFile

variable {d e : Disk} {f : ScopedFile} {h : FileHandle} {s s' : Session} {path : FilePath}
  {serial : Nat} {bytes : List UInt8}

theorem makeParent_of_hasParent (hp : d.HasParent path) : makeParent path d = (.ok (), d) := by
  rw [makeParent]
  split
  · rfl
  · rename_i p hparent
    rcases hp p hparent with hempty | hdir
    · rw [if_pos hempty]
    · rw [Disk.makeDirectoryTree, Disk.makeDirectories_of_isDirectory hdir, ite_self]

/-- Only ancestors of a path are made to hold it. -/
theorem grows_makeParent (hd : d.Sound) (path : FilePath) :
    Disk.Grows (path.ancestors.map d.destination) d (makeParent path d).2 := by
  rw [makeParent]
  split
  · exact .refl hd
  · rename_i p hparent
    split
    · exact .refl hd
    · refine (Disk.grows_makeDirectories hd _).mono fun l hl => ?_
      rwa [FilePath.ancestors_of_parent? hparent]

theorem hasParent_of_makeParent (h : makeParent path d = (.ok (), e)) : e.HasParent path := by
  intro p hp
  rw [makeParent, hp] at h
  simp only at h
  split at h
  · rename_i hempty
    exact .inl hempty
  · exact Disk.isDirectory_of_makeDirectories h

/-- What the creation of a file changes: the directories come first, and then the file in them. -/
theorem writes_of_create (hd : s.disk.Sound) (hcreate : create path s = (.ok (f, h), s')) :
    f.path = path ∧ h.position = 0 ∧ s' = s.withDisk s'.disk ∧
      s.disk.Writes path h.serial [] s'.disk := by
  rw [create] at hcreate
  split at hcreate
  · cases hcreate
  rename_i d hparent
  split at hcreate
  · cases hcreate
  rename_i h' d' hfile
  cases hcreate
  -- the directories are there now, and making them has changed no file
  have hgrows := grows_makeParent hd path
  rw [hparent] at hgrows
  obtain ⟨hposition, hwrites⟩ :=
    Disk.writes_of_createFile hgrows.sound (hasParent_of_makeParent hparent) hfile
  exact ⟨rfl, hposition, rfl, .of_grows hgrows hwrites⟩

/-- Where a file was written it is created anew by emptying it. -/
theorem create_of_writes (hw : d.Writes path serial bytes s.disk) :
    ∃ f, create path s = (.ok (f, ⟨serial, 0⟩), s.withDisk (s.disk.setBytes serial [])) := by
  obtain ⟨l, name, hslot, hsize⟩ := hw.slot
  have hfile := Disk.createFile_of_get? hw.sound hslot hsize (hw.get?_slot hslot)
  refine ⟨⟨path, missingDirectories s.disk path⟩, ?_⟩
  rw [create, makeParent_of_hasParent hw.parent]
  simp only [hfile]

end ScopedFile

end StubGen
