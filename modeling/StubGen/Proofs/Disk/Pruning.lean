import StubGen.Proofs.Disk.Discarding

/-!
# Removing empty directories

Directories are removed one after the other, up to the first that is not an empty directory;
whatever the disk has become by then, which they are can be read off the entries. If nothing has
changed below the directories that were made for a file, none of them stops the removal: each holds
only what was made after it, and that is gone by then.

Main results:

* `exists_prunes_removeDirectories` — which directories are removed;
* `Makes.eq_nil_of_prunes` — directories that were left alone are removed to the last;
* `Prunes.get?_eq_or`, `Makes.get?_of_prunes` — what is left where.
-/

namespace StubGen

namespace Disk

variable {d d' e k t : Disk} {l m place : Location} {ls made gone rest : List Location}
  {p : FilePath} {ps : List FilePath}

/-! ## Removing empty directories -/

/-- A directory without entries. -/
def IsEmptyDirectory (d : Disk) (l : Location) : Prop :=
  d.get? l = some .directory ∧ d.hasChildren l = false

/-- Empty directories are removed one after the other. -/
inductive Prunes : Disk → List Location → Disk → Prop
  | none {d : Disk} : Prunes d [] d
  | removed {d e : Disk} {l : Location} {ls : List Location} (hempty : d.IsEmptyDirectory l)
      (rest : Prunes (d.erase l) ls e) : Prunes d (l :: ls) e

theorem IsEmptyDirectory.sound_erase (h : d.IsEmptyDirectory l) (hd : d.Sound) :
    (d.erase l).Sound :=
  hd.erase fun _ hy => eq_of_dropLast_eq_of_not_hasChildren h.2 hy

namespace Prunes

theorem sound (hd : d.Sound) (h : Prunes d ls e) : e.Sound := by
  induction h with
  | none => exact hd
  | removed hempty _ ih => exact ih (hempty.sound_erase hd)

theorem get? (h : Prunes d ls e) (hroot : [] ∉ ls) (m : Location) :
    e.get? m = if m ∈ ls then .none else d.get? m := by
  induction h with
  | none => rfl
  | @removed d e l ls _ _ ih =>
    rw [List.mem_cons, not_or] at hroot
    rw [ih hroot.2, get?_erase]
    by_cases hm : m ∈ ls
    · rw [if_pos hm, if_pos (List.mem_cons_of_mem _ hm)]
    · rw [if_neg hm]
      by_cases hml : m = l
      · -- the place itself, which is not the root
        rw [if_neg (hml ▸ Ne.symm hroot.1), if_pos hml, if_pos (hml ▸ List.mem_cons_self)]
      · -- another place, where only later removals can matter
        rw [if_neg hml, if_neg (List.not_mem_cons_of_ne_of_not_mem hml hm)]
        split
        · rename_i hnil
          rw [hnil]
          rfl
        · rfl

/-- Only directories are removed. -/
theorem get?_of_mem (h : Prunes d ls e) (hroot : [] ∉ ls) (hm : m ∈ ls) :
    d.get? m = some .directory := by
  induction h with
  | none => cases hm
  | @removed d e l ls hempty _ ih =>
    rw [List.mem_cons, not_or] at hroot
    rcases List.mem_cons.1 hm with rfl | hm
    · exact hempty.1
    · -- it was there before an earlier removal as well
      have hx := ih hroot.2 hm
      have hne : m ≠ [] := by
        rintro rfl
        exact hroot.2 hm
      rw [get?_erase, if_neg hne] at hx
      split at hx
      · cases hx
      · exact hx

end Prunes

/-- Without `..`, a path leads to a name on some disk with the given working directory. -/
def Named (w : Location) (p : FilePath) : Prop :=
  ".." ∉ p.segments ∧ ∃ (d : Disk) (l : Location) (name : String), d.workingDirectory = w ∧
    d.slot p = .ok ⟨l, some name, p.endsWithSlash⟩ ∧ name.utf8ByteSize ≤ nameLimit

namespace Named

theorem of_slot {name : String} {slash : Bool} (hup : ".." ∉ p.segments)
    (hslot : d.slot p = .ok ⟨l, some name, slash⟩) (hsize : name.utf8ByteSize ≤ nameLimit) :
    Named d.workingDirectory p := by
  obtain ⟨-, rfl, -⟩ := slot_eq_ok_iff.1 hslot
  exact ⟨hup, d, l, name, rfl, hslot, hsize⟩

/-- The name is there wherever something stands at it. -/
theorem exists_slot (h : Named d.workingDirectory p) (hd : d.Sound) {x : Entry}
    (hx : d.get? (d.destination p) = some x) :
    ∃ l name, d.destination p = l ++ [name] ∧ name.utf8ByteSize ≤ nameLimit ∧
      d.slot p = .ok ⟨l, some name, p.endsWithSlash⟩ := by
  obtain ⟨hup, e, l, name, hwd, hslot, hsize⟩ := h
  have hplace : d.destination p = l ++ [name] := by
    rw [← destination_congr hwd, destination_of_slot hslot]
  rw [hplace] at hx
  exact ⟨l, name, hplace, hsize, hd.slot_of_get? hwd hup hx hslot⟩

/-- Exactly the empty directories can be removed. -/
theorem removeDirectory_eq_ok_iff (h : Named d.workingDirectory p) (hd : d.Sound) :
    d.removeDirectory p = .ok e ↔
      d.IsEmptyDirectory (d.destination p) ∧ e = d.erase (d.destination p) := by
  constructor
  · intro hremove
    obtain ⟨hdir, hchildren, rfl⟩ := removeDirectory_eq_ok hremove
    exact ⟨⟨hdir, hchildren⟩, rfl⟩
  · -- a name that leads to an empty directory is all that the removal asks for
    rintro ⟨⟨hdir, hchildren⟩, rfl⟩
    obtain ⟨l, name, hplace, hsize, hslot⟩ := h.exists_slot hd hdir
    rw [hplace] at hdir hchildren ⊢
    rw [removeDirectory_eq_atName]
    refine atName_eq_ok_iff.2 ⟨l, name, _, hslot, hsize, ?_⟩
    simp only [hdir, hchildren]
    rfl

end Named

/-- Directories are removed up to the first that is not an empty directory. -/
theorem exists_prunes_removeDirectories (hd : d.Sound)
    (hps : ∀ p ∈ ps, Named d.workingDirectory p) :
    ∃ gone rest, ps.map d.destination = gone ++ rest ∧
      Prunes d gone (ScopedFile.removeDirectories ps d) ∧
      ∀ l ∈ rest.head?, ¬(ScopedFile.removeDirectories ps d).IsEmptyDirectory l := by
  -- removing an entry moves no path, so the places stay those on the first disk
  induction ps generalizing d with
  | nil => exact ⟨[], [], rfl, .none, fun l hl => nomatch hl⟩
  | cons p ps ih =>
    have hp := hps p List.mem_cons_self
    rw [ScopedFile.removeDirectories]
    split
    · -- it could be removed, and the removal goes on from the tree without it
      rename_i e hremove
      obtain ⟨hempty, rfl⟩ := (hp.removeDirectory_eq_ok_iff hd).1 hremove
      obtain ⟨gone, rest, hmap, hprunes, hstop⟩ :=
        ih (hempty.sound_erase hd) fun q hq => hps q (List.mem_cons_of_mem _ hq)
      refine ⟨d.destination p :: gone, rest, ?_, .removed hempty hprunes, hstop⟩
      rw [List.map_cons, List.cons_append, ← hmap]
      rfl
    · -- it could not, so it is not an empty directory
      rename_i hremove
      refine ⟨[], _, rfl, .none, fun l hl hempty => ?_⟩
      obtain rfl := Option.some.inj hl
      rw [(hp.removeDirectory_eq_ok_iff hd).2 ⟨hempty, rfl⟩] at hremove
      cases hremove

/-! ## Directories that were made -/

namespace Makes

theorem named (h : Makes d ps e) (hup : ∀ p ∈ ps, ".." ∉ p.segments) :
    ∀ p ∈ ps, Named d.workingDirectory p := by
  induction h with
  | none => exact fun p hp => nomatch hp
  | @made e f p ps houter hmake ih =>
    intro q hq
    rcases List.mem_cons.1 hq with rfl | hq
    · obtain ⟨l, name, slash, hslot, hsize, -⟩ := adds_of_makeDirectory hmake
      rw [← houter.workingDirectory]
      exact .of_slot (hup q List.mem_cons_self) hslot hsize
    · exact ih (fun r hr => hup r (List.mem_cons_of_mem _ hr)) q hq

theorem get? (h : Makes d ps e) (l : Location) :
    e.get? l = if l ∈ ps.map d.destination then some .directory else d.get? l := by
  induction h with
  | none => rfl
  | @made e f p ps houter hmake ih =>
    rw [(houter.adds hmake).get?, ih, List.map_cons]
    by_cases hl : l = d.destination p
    · rw [if_pos hl, if_pos (hl ▸ List.mem_cons_self)]
    · simp only [hl, List.mem_cons, false_or, if_false]

/-- Where a directory was made nothing was before. -/
theorem absent (h : Makes d ps e) : ∀ l ∈ ps.map d.destination, d.get? l = .none := by
  induction h with
  | none => exact fun l hl => nomatch hl
  | @made e f p ps houter hmake ih =>
    intro l hl
    rcases List.mem_cons.1 hl with rfl | hl
    · refine Option.eq_none_iff_forall_ne_some.2 fun x hx => ?_
      have habsent := (houter.adds hmake).absent
      rw [houter.kept hx] at habsent
      cases habsent
    · exact ih l hl

theorem nil_not_mem (h : Makes d ps e) : [] ∉ ps.map d.destination := by
  intro hnil
  have habsent := h.absent [] hnil
  cases habsent

/-- A directory that was made earlier is not below one that was made later, for then there would
have been nothing to make it in. -/
theorem pairwise (hd : d.Sound) (h : Makes d ps e) :
    (ps.map d.destination).Pairwise fun l m => ¬l <+: m := by
  induction h with
  | none => exact List.Pairwise.nil
  | @made e f p ps houter hmake ih =>
    refine List.Pairwise.cons (fun m hm hbelow => ?_) ih
    have habsent := (houter.adds hmake).absent
    have hmdir : e.get? m = some .directory := by
      rw [houter.get?, if_pos hm]
    -- the later one was missing when the earlier one was there already
    by_cases heq : d.destination p = m
    · rw [heq, hmdir] at habsent
      cases habsent
    · have hdir := Sound.get?_of_prefix (houter.sound hd) hmdir hbelow heq
      rw [hdir] at habsent
      cases habsent

end Makes

/-- A place in one of the given directories, or one of them. -/
def Below (made : List Location) (l : Location) : Prop := ∃ m ∈ made, m <+: l

/-- Directories that others have left alone are removed to the last. Suppose that one stays, and
take the first: it is a directory, as it was made, and then it must have something in it. -/
theorem Makes.eq_nil_of_prunes (hd : d.Sound) (h : Makes d ps d') {c : Disk} (hc : c.Sound)
    (hsame : ∀ l, Below (ps.map d.destination) l → c.get? l = d'.get? l)
    (hmap : ps.map d.destination = gone ++ rest) (hprunes : Prunes c gone e)
    (hstop : ∀ l ∈ rest.head?, ¬e.IsEmptyDirectory l) : rest = [] := by
  have hroot : [] ∉ gone := fun hnil => h.nil_not_mem (hmap ▸ List.mem_append_left _ hnil)
  have hpairwise := h.pairwise hd
  rw [hmap, List.pairwise_append] at hpairwise
  cases rest with
  | nil => rfl
  | cons l rest =>
    have hl : l ∈ ps.map d.destination := by rw [hmap]; simp
    -- those that were removed are all different from it
    have hgone : l ∉ gone := by
      intro hmem
      exact hpairwise.2.2 l hmem l List.mem_cons_self List.prefix_rfl
    refine absurd ⟨?_, ?_⟩ (hstop l rfl)
    · rw [hprunes.get? hroot, if_neg hgone, hsame l ⟨l, hl, List.prefix_rfl⟩, h.get?, if_pos hl]
    · -- what could be in it was made before it, or was there before anything was made
      rw [hasChildren, List.any_eq_false]
      intro y hy hchild
      rw [Bool.and_eq_true, bne_iff_ne, List.isPrefixOf_iff_prefix] at hchild
      obtain ⟨hne, hbelow⟩ := hchild
      have hx := (hprunes.sound hc).get?_of_mem hy
      rw [hprunes.get? hroot] at hx
      split at hx
      · cases hx
      rename_i hkept
      rw [hsame y.1 ⟨l, hl, hbelow⟩, h.get?] at hx
      split at hx
      -- what is left in the directory was made before it, so it is not in the directory
      · rename_i hmade
        rw [hmap, List.mem_append, List.mem_cons] at hmade
        obtain hmade | hmade | hmade := hmade
        · exact hkept hmade
        · exact hne hmade
        · exact (List.pairwise_cons.1 hpairwise.2.1).1 y.1 hmade hbelow
      -- and nothing was in the directory before it was made
      · have hdir := hd.get?_of_prefix hx hbelow hne.symm
        rw [h.absent l hl] at hdir
        cases hdir

/-! ## The file -/

/-- The disk without the file at a place, if there is one. -/
def withoutFile (d : Disk) (l : Location) : Disk :=
  match d.get? l with
  | some (.file ..) => d.erase l
  | _ => d

theorem withoutFile_of_file {serial : Nat} {bytes : List UInt8}
    (h : d.get? l = some (.file serial bytes)) : d.withoutFile l = d.erase l := by
  rw [withoutFile, h]

theorem withoutFile_of_not_file (h : ∀ serial bytes, d.get? l ≠ some (.file serial bytes)) :
    d.withoutFile l = d := by
  rw [withoutFile]
  split
  · rename_i serial bytes hx
    exact absurd hx (h serial bytes)
  · rfl

theorem withoutFile_cases (d : Disk) (l : Location) :
    (∃ serial bytes, d.get? l = some (.file serial bytes)) ∧ d.withoutFile l = d.erase l ∨
      (∀ serial bytes, d.get? l ≠ some (.file serial bytes)) ∧ d.withoutFile l = d := by
  by_cases h : ∃ serial bytes, d.get? l = some (.file serial bytes)
  · obtain ⟨serial, bytes, hx⟩ := h
    exact .inl ⟨⟨serial, bytes, hx⟩, withoutFile_of_file hx⟩
  · have hnot : ∀ serial bytes, d.get? l ≠ some (.file serial bytes) :=
      fun serial bytes hx => h ⟨serial, bytes, hx⟩
    exact .inr ⟨hnot, withoutFile_of_not_file hnot⟩

theorem workingDirectory_withoutFile (d : Disk) (l : Location) :
    (d.withoutFile l).workingDirectory = d.workingDirectory := by
  rcases d.withoutFile_cases l with ⟨-, h⟩ | ⟨-, h⟩ <;> rw [h]
  rfl

theorem Sound.withoutFile (hd : d.Sound) (l : Location) : (d.withoutFile l).Sound := by
  rcases d.withoutFile_cases l with ⟨⟨serial, bytes, hx⟩, h⟩ | ⟨-, h⟩ <;> rw [h]
  · exact hd.erase fun y hy => hd.eq_of_dropLast_eq_file hx hy
  · exact hd

theorem get?_withoutFile_of_ne (h : m ≠ l) : (d.withoutFile l).get? m = d.get? m := by
  rcases d.withoutFile_cases l with ⟨-, hd⟩ | ⟨-, hd⟩ <;> rw [hd]
  rw [get?_erase, if_neg h]
  split
  · rename_i hm
    rw [hm]
    rfl
  · rfl

/-- At the place itself only a directory stays. -/
theorem get?_withoutFile_self (h : d.get? l ≠ some .directory) :
    (d.withoutFile l).get? l = none := by
  rcases d.withoutFile_cases l with ⟨⟨serial, bytes, hx⟩, hd⟩ | ⟨hnot, hd⟩ <;> rw [hd]
  · rw [get?_erase, if_pos rfl, if_neg]
    rintro rfl
    cases hx
  · cases hx : d.get? l with
    | none => rfl
    | some x =>
      cases x with
      | directory => exact absurd hx h
      | file serial bytes => exact absurd hx (hnot serial bytes)

/-! ## What is taken back -/

/-- What is still there of a file that was created at a place and of the directories that were made
for it, on the disk `t`: everything in these directories, and what stands at the place unless it is
another directory. -/
def Owns (place : Location) (made : List Location) (t : Disk) (l : Location) : Prop :=
  Below made l ∨ l = place ∧ t.get? l ≠ some .directory

/-- What was removed is gone, and so is the file; everything else is as it was. -/
theorem Prunes.get?_eq_or (h : Prunes (t.withoutFile place) gone e) (hroot : [] ∉ gone)
    (hgone : gone ⊆ made) (l : Location) :
    e.get? l = t.get? l ∨ e.get? l = .none ∧
      (l = place ∧ (∃ serial bytes, t.get? l = some (.file serial bytes)) ∨
        l ∈ made ∧ t.get? l = some .directory) := by
  rw [h.get? hroot]
  split
  · -- a directory that was removed; it is one in the tree with the file as well
    rename_i hl
    have hdir := h.get?_of_mem hroot hl
    refine .inr ⟨rfl, .inr ⟨hgone hl, ?_⟩⟩
    by_contra hnot
    by_cases hplace : l = place
    · subst hplace
      rw [get?_withoutFile_self hnot] at hdir
      cases hdir
    · rw [get?_withoutFile_of_ne hplace] at hdir
      exact hnot hdir
  · -- at the place of the file, the file is gone or there was none
    by_cases hplace : l = place
    · subst hplace
      rcases t.withoutFile_cases l with ⟨hfile, -⟩ | ⟨-, hsame⟩
      · refine .inr ⟨get?_withoutFile_self fun hdir => ?_, .inl ⟨rfl, hfile⟩⟩
        obtain ⟨serial, bytes, hx⟩ := hfile
        rw [hdir] at hx
        cases hx
      · exact .inl (by rw [hsame])
    · exact .inl (get?_withoutFile_of_ne hplace)

/-- What was created and then left alone is taken back to the last. Others may have changed what
they like elsewhere, and may have removed the file or put another in its place; then what belongs to
the creation is as it was before it, and all else is as the others have left it. -/
theorem Makes.get?_of_prunes (hd : d.Sound) (h : Makes d ps k) {serial : Nat} {bytes : List UInt8}
    (hadds : Adds k place (.file serial bytes) d') (ht : t.Sound)
    (hsame : ∀ l, Below (ps.map d.destination) l →
      t.get? l = d'.get? l ∨ l = place ∧ t.get? l ≠ some .directory)
    (hmap : ps.map d.destination = gone ++ rest) (hprunes : Prunes (t.withoutFile place) gone e)
    (hstop : ∀ l ∈ rest.head?, ¬e.IsEmptyDirectory l) :
    (∀ l, Owns place (ps.map d.destination) t l → e.get? l = d.get? l) ∧
      ∀ l, ¬Owns place (ps.map d.destination) t l → e.get? l = t.get? l := by
  -- without the file, the directories are as they were made
  have hbelow : ∀ l, Below (ps.map d.destination) l →
      (t.withoutFile place).get? l = k.get? l := by
    intro l hl
    -- the file is gone on both sides, unless others have put a directory in its place
    by_cases hplace : l = place
    · subst hplace
      rw [get?_withoutFile_self, hadds.absent]
      intro hdir
      rcases hsame l hl with hx | ⟨-, hnot⟩
      · rw [hdir, hadds.get?_self] at hx
        cases hx
      · exact hnot hdir
    · rw [get?_withoutFile_of_ne hplace]
      rcases hsame l hl with hx | ⟨heq, -⟩
      · rw [hx, hadds.get?, if_neg hplace]
      · exact absurd heq hplace
  -- so every directory that was made can be removed
  obtain rfl := h.eq_nil_of_prunes hd (ht.withoutFile place) hbelow hmap hprunes hstop
  rw [List.append_nil] at hmap
  have hx : ∀ l, e.get? l =
      if l ∈ ps.map d.destination then .none else (t.withoutFile place).get? l := by
    rw [hmap]
    exact hprunes.get? (hmap ▸ h.nil_not_mem)
  constructor
  · -- what belongs to the creation: the directories and what is below them, and the place of the
    -- file
    intro l hl
    rw [hx]
    split
    · rename_i hmade
      exact (h.absent l hmade).symm
    · rename_i hmade
      rcases hl with hl | ⟨rfl, hnot⟩
      · rw [hbelow l hl, h.get?, if_neg hmade]
      · have habsent := hadds.absent
        rw [h.get?, if_neg hmade] at habsent
        rw [get?_withoutFile_self hnot, habsent]
  · -- what others have done elsewhere
    intro l hl
    have hmade : l ∉ ps.map d.destination := fun hl' => hl (.inl ⟨l, hl', List.prefix_rfl⟩)
    rw [hx, if_neg hmade]
    by_cases hplace : l = place
    · rw [withoutFile_of_not_file]
      intro serial bytes hfile
      refine hl (.inr ⟨hplace, ?_⟩)
      rw [hplace, hfile]
      simp
    · exact get?_withoutFile_of_ne hplace

/-- A place that others have not changed is what it was before. -/
theorem Makes.get?_of_not_owns (h : Makes d ps k) {serial : Nat} {bytes : List UInt8}
    (hadds : Adds k place (.file serial bytes) d')
    (hl : ¬Owns place (ps.map d.destination) t l) (hsame : t.get? l = d'.get? l) :
    t.get? l = d.get? l := by
  have hplace : l ≠ place := by
    rintro rfl
    refine hl (.inr ⟨rfl, fun hdir => ?_⟩)
    rw [hsame, hadds.get?_self] at hdir
    cases hdir
  have hmade : l ∉ ps.map d.destination := fun hl' => hl (.inl ⟨l, hl', List.prefix_rfl⟩)
  rw [hsame, hadds.get?, if_neg hplace, h.get?, if_neg hmade]

end Disk

end StubGen
