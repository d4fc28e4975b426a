import StubGen.ScopedFile
import StubGen.Proofs.Disk
import StubGen.Proofs.FilePath

/-!
# Undoing the creation of a file

Creating a file makes the directories above it that are missing, from the outside in, and then the
file. Discarding it removes the file and then these directories, from the inside out. Each removal
meets the tree that was there before the matching creation, so in the end nothing is left of it.

This needs the directories that are noted as missing to be those that are made. They are for a path
without `..`: there, a directory that is missing is below nothing that is made only later.

Main results:

* `makes_of_makeDirectories` — the directories made are those noted as missing;
* `removeDirectories_of_makes` — removing them gives the tree back;
* `holds_of_create`, `Holds.write`, `Holds.discard` — from the creation of a file to its discarding.
-/

namespace StubGen

namespace Disk

/-- Directories are made one after the other, the first of the list last. -/
inductive Makes : Disk → List FilePath → Disk → Prop
  | none {d : Disk} : Makes d [] d
  | made {d e f : Disk} {p : FilePath} {ps : List FilePath} (outer : Makes d ps e)
      (h : e.makeDirectory p = .ok f) : Makes d (p :: ps) f

variable {d e f : Disk} {p : FilePath} {ps outer : List FilePath}

namespace Makes

theorem sound (hd : d.Sound) (h : Makes d ps e) : e.Sound := by
  induction h with
  | none => exact hd
  | made _ hmake ih =>
    obtain ⟨l, name, slash, hslot, -, hadds, hserial⟩ := adds_of_makeDirectory hmake
    obtain ⟨-, -, -, -, -, -, -, hdir⟩ := slot_eq_ok_iff.1 hslot
    exact hadds.sound ih hdir hserial.symm.le

theorem workingDirectory (h : Makes d ps e) : e.workingDirectory = d.workingDirectory := by
  induction h with
  | none => rfl
  | made _ hmake ih =>
    obtain ⟨_, _, _, _, _, hadds, _⟩ := adds_of_makeDirectory hmake
    exact hadds.workingDirectory.trans ih

/-- A file that is there was there before. -/
theorem get?_file {l : Location} {serial : Nat} {bytes : List UInt8} (h : Makes d ps e)
    (hl : e.get? l = some (.file serial bytes)) : d.get? l = some (.file serial bytes) := by
  induction h with
  | none => exact hl
  | made _ hmake ih =>
    obtain ⟨_, _, _, _, _, hadds, _⟩ := adds_of_makeDirectory hmake
    rw [hadds.get?] at hl
    split at hl
    · cases hl
    · exact ih hl

end Makes

/-! ## Removing what was made -/

theorem removeDirectories_of_makes (hd : d.Sound) (h : Makes d ps e) (hf : SameTree f e) :
    SameTree (ScopedFile.removeDirectories ps f) d := by
  induction h generalizing f with
  | none => exact hf
  | made houter hmake ih =>
    -- the directory made last is the first to go, from the very tree that it was made in
    obtain ⟨l, name, slash, hslot, hsize, hadds, -⟩ := adds_of_makeDirectory hmake
    obtain ⟨g, hremove, hg⟩ :=
      exists_removeDirectory (houter.sound hd) hslot hsize (hadds.congr hf)
    rw [ScopedFile.removeDirectories, hremove]
    exact ih hg

/-! ## Making what is missing -/

/-- The ways in which a directory with everything that should hold it can be made: it is there, it
is only missing itself, or what should hold it is made first. In the last case the directory is
tried once more, and it counts as made if it is there by then. -/
theorem makeDirectories_eq_ok (h : makeDirectories (p :: outer) d = (.ok (), e)) :
    (p.isEmpty = true ∨ d.isDirectory p = true) ∧ e = d ∨
      p.isEmpty = false ∧ d.makeDirectory p = .ok e ∨
      p.isEmpty = false ∧ d.makeDirectory p = .error (.os .notFound) ∧
        ∃ f, makeDirectories outer d = (.ok (), f) ∧
          (f.makeDirectory p = .ok e ∨ f.isDirectory p = true ∧ e = f) := by
  -- a failure is forgiven where a directory is there nevertheless
  have hsettle : ∀ {e' : IoError} {d d' : Disk}, (if e' = .os .alreadyExists ∧ d.isDirectory p then
      ((.ok () : Except IoError Unit), d) else (.error e', d)) = (.ok (), d') →
        d.isDirectory p = true ∧ d' = d := by
    intro e' d d' h
    split at h
    · rename_i hexists
      cases h
      exact ⟨hexists.2, rfl⟩
    · cases h
  rw [makeDirectories] at h
  split at h
  · rename_i hempty
    cases h
    exact .inl ⟨.inl hempty, rfl⟩
  rename_i hempty
  rw [Bool.not_eq_true] at hempty
  -- the directory is made, its parent is missing, or it fails for another reason
  split at h
  · rename_i hmake
    cases h
    exact .inr (.inl ⟨hempty, hmake⟩)
  · rename_i hmake
    refine .inr (.inr ⟨hempty, hmake, ?_⟩)
    split at h
    · cases h
    · rename_i f houter
      refine ⟨f, houter, ?_⟩
      split at h
      · rename_i hmake'
        cases h
        exact .inl hmake'
      · obtain ⟨hdir, rfl⟩ := hsettle h
        exact .inr ⟨hdir, rfl⟩
  · obtain ⟨hdir, rfl⟩ := hsettle h
    exact .inl ⟨.inr hdir, rfl⟩

/-- Where a path without `..` leads to. -/
def place (d : Disk) (p : FilePath) : Location := d.start p ++ p.segments.filter (· != ".")

theorem place_join (d : Disk) (q : FilePath) {n : String} (hn : FilePath.IsSegment n) :
    d.place (q.join ⟨n⟩) = d.place q ++ [n] := by
  rw [place, place, start, start, FilePath.isAbsolute_join q hn, FilePath.segments_join q hn,
    List.filter_append, List.append_assoc]
  simp [hn.ne_dot]

theorem noParents_of_ascent (h : FilePath.Ascent p outer) : ".." ∉ p.segments := by
  induction h with
  | stop hp => rcases hp with hp | hp <;> simp [hp]
  | step hn hdots _ ih =>
    rw [FilePath.segments_join _ hn, List.mem_append, List.mem_singleton, not_or]
    exact ⟨ih, hdots.symm⟩

/-- A directory is made where its path leads to. -/
theorem adds_place_of_makeDirectory (hup : ".." ∉ p.segments) (h : d.makeDirectory p = .ok e) :
    Adds d (d.place p) .directory e := by
  obtain ⟨l, name, slash, hslot, _, hadds, _⟩ := adds_of_makeDirectory h
  obtain ⟨-, -, hdot, -, before, hsegments, hwalk, -⟩ := slot_eq_ok_iff.1 hslot
  have hup' : ".." ∉ before := fun h => hup (hsegments ▸ List.mem_append_left _ h)
  have hplace : d.place p = l ++ [name] := by
    rw [place, hsegments, List.filter_append, ← List.append_assoc, ← eq_append_of_walk hup' hwalk]
    simp [hdot]
  rwa [hplace]

/-- Nothing is made deeper than the directory. -/
theorem get?_of_makeDirectory (hup : ".." ∉ p.segments) (h : d.makeDirectory p = .ok e)
    {m : Location} (hm : (d.place p).length < m.length) : e.get? m = d.get? m := by
  rw [(adds_place_of_makeDirectory hup h).get?, if_neg]
  rintro rfl
  exact Nat.lt_irrefl _ hm

theorem pathExists_of_isDirectory (h : d.isDirectory p = true) : d.pathExists p = true := by
  rw [pathExists, eq_of_beq h]
  rfl

/-- A path that may be looked at has a directory that may be looked at: its text is shorter and has
no other characters. -/
theorem checkPath_of_join {q : FilePath} {n : String} (hn : FilePath.IsSegment n)
    (h : checkPath (q.join ⟨n⟩) = .ok ()) (hempty : q.isEmpty = false) :
    checkPath q = .ok () := by
  obtain ⟨rest, hrest⟩ : ∃ rest, (q.join ⟨n⟩).text = q.text ++ rest := by
    rw [FilePath.join_of_isSegment q hn]
    split
    · exact ⟨n, rfl⟩
    · exact ⟨"/" ++ n, String.append_assoc⟩
  unfold checkPath at h
  split at h
  · cases h
  rename_i hnul
  split at h
  · cases h
  split at h
  · cases h
  rename_i hlong
  rw [FilePath.chars, hrest, String.toList_append] at hnul
  rw [hrest, String.utf8ByteSize_append] at hlong
  rw [checkPath, if_neg, if_neg (by simp [hempty]), if_neg (by omega)]
  intro hq
  exact hnul (by simp only [FilePath.chars] at hq; simp_all)

/-- A directory that a walk leads to is there. -/
theorem isDirectory_of_walk {l : Location} {q : FilePath} {n : String} (hn : FilePath.IsSegment n)
    (hcheck : checkPath (q.join ⟨n⟩) = .ok ()) (hwalk : d.walk (d.start q) q.segments = .ok l)
    (hdir : d.get? l = some .directory) : q.isEmpty = true ∨ d.isDirectory q = true := by
  by_cases hempty : q.isEmpty = true
  · exact .inl hempty
  have hcheck' := checkPath_of_join hn hcheck (Bool.not_eq_true _ ▸ hempty)
  have hfind : d.find? q = some .directory :=
    find?_eq_some_iff.2 ⟨l, locate_eq_ok_iff.2 ⟨hcheck', hwalk, fun _ => hdir⟩, hdir⟩
  exact .inr (beq_iff_eq.2 hfind)

/-- What holds a directory that could be made is there. -/
theorem isDirectory_of_makeDirectory {q : FilePath} {n : String} (hn : FilePath.IsSegment n)
    (h : d.makeDirectory (q.join ⟨n⟩) = .ok e) : q.isEmpty = true ∨ d.isDirectory q = true := by
  obtain ⟨l, name, slash, hslot, -⟩ := adds_of_makeDirectory h
  obtain ⟨hcheck, -, -, -, before, hsegments, hwalk, hdir⟩ := slot_eq_ok_iff.1 hslot
  rw [FilePath.segments_join q hn] at hsegments
  obtain ⟨rfl, -⟩ := List.append_inj' hsegments rfl
  rw [start, FilePath.isAbsolute_join q hn] at hwalk
  exact isDirectory_of_walk hn hcheck hwalk hdir

/-- What holds a directory that is there is there. -/
theorem isDirectory_of_join {q : FilePath} {n : String} (hn : FilePath.IsSegment n)
    (h : d.isDirectory (q.join ⟨n⟩) = true) : q.isEmpty = true ∨ d.isDirectory q = true := by
  obtain ⟨l, hlocate, -⟩ := find?_eq_some_iff.1 (eq_of_beq h)
  obtain ⟨hcheck, hwalk, -⟩ := locate_eq_ok_iff.1 hlocate
  rw [start, FilePath.isAbsolute_join q hn, FilePath.segments_join q hn, walk_concat] at hwalk
  obtain ⟨k, hwalk, henter⟩ := Except.bind_eq_ok_iff.1 hwalk
  exact isDirectory_of_walk hn hcheck hwalk (enter_eq_ok henter).1

theorem place_congr (h : f.workingDirectory = d.workingDirectory) (p : FilePath) :
    f.place p = d.place p := by
  rw [place, place, start, start, h]

/-- A directory that was missing is not there when what should hold it has been made. Below the
directory that holds it nothing has changed, so it would have been there all along. -/
theorem not_isDirectory_of_outer (hd : d.Sound) {q : FilePath} {n : String}
    (hn : FilePath.IsSegment n) (hup : ".." ∉ (q.join ⟨n⟩).segments)
    (hmissing : d.find? (q.join ⟨n⟩) = none) (hwd : f.workingDirectory = d.workingDirectory)
    (hdeep : ∀ m, (d.place q).length < m.length → f.get? m = d.get? m) :
    f.isDirectory (q.join ⟨n⟩) = false := by
  refine Bool.eq_false_iff.2 fun hdir => ?_
  obtain ⟨m, hlocate, hm⟩ := find?_eq_some_iff.1 (eq_of_beq hdir)
  obtain ⟨hcheck, hwalk, -⟩ := locate_eq_ok_iff.1 hlocate
  have hplace : m = d.place q ++ [n] := by
    rw [← place_join d q hn, ← place_congr hwd]
    exact eq_append_of_walk hup hwalk
  -- the directory itself is too deep to have been made, so all of the way to it was there
  have hmd : d.get? m = some .directory := by
    rw [← hdeep m (by simp [hplace]), hm]
  have hstart : ∀ k, k <+: m → d.get? k = some .directory := by
    intro k hk
    by_cases hkm : k = m
    · rwa [hkm]
    · exact hd.get?_of_prefix hmd hk hkm
  have hwalk' := walk_of_prefix hup hwalk hstart
  rw [start, hwd] at hwalk'
  have hfind := find?_eq_some_iff.2 ⟨m, locate_eq_ok_iff.2 ⟨hcheck, hwalk', fun _ => hmd⟩, hmd⟩
  rw [hmissing] at hfind
  cases hfind

/-- What is noted as missing ends where something is there. -/
theorem takeWhile_missing (h : p.isEmpty = true ∨ d.isDirectory p = true) :
    (p :: outer).takeWhile (fun a => !a.isEmpty && !d.pathExists a) = [] := by
  refine List.takeWhile_cons_of_neg ?_
  rcases h with h | h
  · simp [h]
  · simp [pathExists_of_isDirectory h]

/-- A directory that was made was missing. -/
theorem find?_of_makeDirectory_eq_ok {q : FilePath} {n : String} (hn : FilePath.IsSegment n)
    (h : d.makeDirectory (q.join ⟨n⟩) = .ok e) : d.find? (q.join ⟨n⟩) = none := by
  obtain ⟨l, name, slash, hslot, hsize, hadds, -⟩ := adds_of_makeDirectory h
  obtain ⟨-, hslash, -⟩ := slot_eq_ok_iff.1 hslot
  rw [FilePath.endsWithSlash_join q hn] at hslash
  subst hslash
  rw [find?_of_slot hslot hsize, hadds.absent]

/-- The directories made are those that were missing, and nothing is made deeper than they are.

The induction goes up the path, as the program does. A directory is there, or what should hold it
is, or neither; in the last case what holds it is made first, and then the directory itself must
still be missing. That is why depths are part of what is proved: what was made on the way is less
deep than the directory. -/
theorem makes_of_makeDirectories (hd : d.Sound) (ha : FilePath.Ascent p outer)
    (h : makeDirectories (p :: outer) d = (.ok (), e)) :
    Makes d ((p :: outer).takeWhile fun a => !a.isEmpty && !d.pathExists a) e ∧
      ∀ m, (d.place p).length < m.length → e.get? m = d.get? m := by
  induction ha generalizing e with
  | @stop p outer hp =>
    rcases makeDirectories_eq_ok h with ⟨hdone, rfl⟩ | ⟨hempty, hmake⟩ | ⟨hempty, hmake, -⟩
    · rw [takeWhile_missing hdone]
      exact ⟨.none, fun _ _ => rfl⟩
    -- the root and the working directory are never made
    · obtain ⟨e', he', -⟩ := makeDirectory_of_noNames (d := d) hempty hp
      rw [he'] at hmake
      cases hmake
    · obtain ⟨e', he', hne⟩ := makeDirectory_of_noNames (d := d) hempty hp
      rw [he'] at hmake
      exact absurd (Except.error.inj hmake) hne
  | @step q outer n hn hdots above ih =>
    have hup := noParents_of_ascent (.step hn hdots above)
    rcases makeDirectories_eq_ok h with ⟨hdone, rfl⟩ | ⟨hempty, hmake⟩ |
      ⟨hempty, hmake, f, houter, hretry⟩
    · -- it is there: nothing is noted and nothing is made
      rw [takeWhile_missing hdone]
      exact ⟨.none, fun _ _ => rfl⟩
    · -- only `q/n` itself is missing, and what it is made in is there
      have hmissing := find?_of_makeDirectory_eq_ok hn hmake
      rw [List.takeWhile_cons_of_pos (by simp [hempty, pathExists, hmissing]),
        takeWhile_missing (isDirectory_of_makeDirectory hn hmake)]
      exact ⟨.made .none hmake, fun m hm => get?_of_makeDirectory hup hmake hm⟩
    · -- `q` and what is above it are made first, and then `q/n` is tried again
      have hmissing : d.find? (q.join ⟨n⟩) = none :=
        find?_of_slot_eq_error (slot_of_makeDirectory_notFound hmake)
      obtain ⟨hmakes, hdeep⟩ := ih houter
      rw [List.takeWhile_cons_of_pos (by simp [hempty, pathExists, hmissing])]
      rcases hretry with hmake' | ⟨hdir, -⟩
      · -- it is made now; what is deeper than it is also deeper than `q`
        refine ⟨.made hmakes hmake', fun m hm => ?_⟩
        have hm' : (d.place q).length < m.length := by
          rw [place_join d q hn, List.length_append, List.length_singleton] at hm
          omega
        rw [← place_congr hmakes.workingDirectory] at hm
        rw [get?_of_makeDirectory hup hmake' hm, hdeep m hm']
      · -- it cannot have come to be there by what was made above it
        have hnot := not_isDirectory_of_outer hd hn hup hmissing hmakes.workingDirectory hdeep
        rw [hdir] at hnot
        cases hnot

end Disk

namespace ScopedFile

variable {d e : Disk} {f : ScopedFile} {s s' : Session} {path : FilePath}

/-- The directories made for a file are those noted as missing. -/
theorem makes_of_makeParent (hd : d.Sound) (hp : .parent ∉ path.components)
    (h : makeParent path d = (.ok (), e)) : d.Makes (missingDirectories d path) e := by
  rw [missingDirectories]
  rw [makeParent, FilePath.parent?] at h
  rcases FilePath.ancestors_of_noParents hp with hnone | ⟨q, hancestors, hascent⟩
  · rw [hnone] at h ⊢
    cases h
    exact .none
  · rw [hancestors] at h ⊢
    -- a path of one name is in the working directory, for which nothing is made
    by_cases hempty : q.isEmpty = true
    · simp only [List.head?_cons, hempty, if_true] at h
      cases h
      rw [List.takeWhile_cons_of_neg (by simp [hempty])]
      exact .none
    · simp only [List.head?_cons, hempty, if_false, Bool.false_eq_true] at h
      exact (Disk.makes_of_makeDirectories hd hascent h).1

/-- The disk `e` shows the tree of `d` with the directories made for a file and the file, which has
the given serial number and bytes. -/
def Holds (d : Disk) (f : ScopedFile) (serial : Nat) (bytes : List UInt8) (e : Disk) : Prop :=
  ∃ d' l name, d.Makes f.madeDirectories d' ∧ d'.slot f.path = .ok ⟨l, some name, false⟩ ∧
    name.utf8ByteSize ≤ Disk.nameLimit ∧
    (∀ k n bytes, (k, .file n bytes) ∈ d'.entries → n ≠ serial) ∧
    Disk.Adds d' (l ++ [name]) (.file serial bytes) e

/-- The creation of a file makes the directories noted as missing, and then the file. -/
theorem makes_of_create (hd : s.disk.Sound) (hp : .parent ∉ path.components) {h : FileHandle}
    (hcreate : create path s = (.ok (f, h), s')) :
    f = ⟨path, missingDirectories s.disk path⟩ ∧
      ∃ d, s.disk.Makes f.madeDirectories d ∧ d.createFile path = .ok (h, s'.disk) := by
  rw [create] at hcreate
  split at hcreate
  · cases hcreate
  rename_i d hparent
  split at hcreate
  · cases hcreate
  rename_i h' d' hfile
  cases hcreate
  exact ⟨rfl, d, makes_of_makeParent hd hp hparent, hfile⟩

/-- A file that is created where nothing is holds nothing yet, and stands in the directories made
for it. -/
theorem holds_of_create (hd : s.disk.Sound) (hp : .parent ∉ path.components)
    (hmissing : s.disk.find? path = none) {h : FileHandle}
    (hcreate : create path s = (.ok (f, h), s')) :
    f.path = path ∧ h.position = 0 ∧ Holds s.disk f h.serial [] s'.disk := by
  obtain ⟨rfl, d, hmakes, hfile⟩ := makes_of_create hd hp hcreate
  obtain ⟨l, name, hslot, hsize, hposition, hx⟩ := Disk.createFile_eq_ok hfile
  refine ⟨rfl, hposition, d, l, name, hmakes, hslot, hsize, ?_⟩
  rcases hx with ⟨bytes, hx, -⟩ | ⟨hserial, -, hadds⟩
  · -- a file that is there now was there before, and so was all of the way to it
    have hx' := hmakes.get?_file hx
    have hup := FilePath.not_mem_segments_of_noParents hp
    have hslot' := hd.slot_of_get? hmakes.workingDirectory hup hx' hslot
    rw [Disk.find?_of_slot hslot' hsize, hx'] at hmissing
    cases hmissing
  · -- its serial number is one that no file has had
    refine ⟨fun k n bytes hk => ?_, hadds⟩
    rw [hserial]
    exact Nat.ne_of_lt ((hmakes.sound hd).serial_lt k n bytes hk)

theorem Holds.mapFile {serial : Nat} {bytes : List UInt8} (hf : Holds d f serial bytes e)
    (g : List UInt8 → List UInt8) : Holds d f serial (g bytes) (e.mapFile serial g) := by
  obtain ⟨d', l, name, hmakes, hslot, hsize, hserial, hadds⟩ := hf
  exact ⟨d', l, name, hmakes, hslot, hsize, hserial, hadds.mapFile hserial g⟩

theorem Holds.write {h : FileHandle} {bytes : List UInt8} (hf : Holds d f h.serial bytes e)
    (new : List UInt8) :
    Holds d f h.serial (Disk.overlay bytes h.position new) (e.write h new).2 := by
  rw [Disk.write_eq]
  exact hf.mapFile fun old => Disk.overlay old h.position new

/-- Discarding the file gives the tree back. -/
theorem Holds.discard {serial : Nat} {bytes : List UInt8} (hd : d.Sound)
    (hf : Holds d f serial bytes s.disk) : Disk.SameTree (f.discard s).disk d := by
  obtain ⟨d', l, name, hmakes, hslot, hsize, -, hadds⟩ := hf
  obtain ⟨g, hremove, hg⟩ := Disk.exists_removeFile hslot hsize hadds
  rw [ScopedFile.discard, removeIfPresent, hremove]
  exact Disk.removeDirectories_of_makes hd hmakes hg

end ScopedFile

end StubGen
