import StubGen.Proofs.Disk.Creation

/-!
# Giving up a file

Discarding a file removes it with the directories that were made for it, as far as they are empty.
So it spares every file elsewhere. On a path without `..` it removes what the creation of the file
has made and no more: what is left is the tree from before, without the file if there was one.

Main results:

* `spares_discard`, `spares_of_create_error` — giving up a file spares the files elsewhere;
* `destination_of_parent?` — a path leads one component further than its parent;
* `sameTree_discard` — what is left of a file that was created, written and given up.
-/

namespace StubGen

/-! ## What is spared -/

namespace ScopedFile

variable {d : Disk} {s : Session} {f : ScopedFile} {path : FilePath} {k : Location}

theorem spares_removeIfPresent (hs : s.disk.Sound) (path : FilePath) :
    Disk.Spares (s.disk.destination path) s.disk (removeIfPresent path s).disk := by
  rw [removeIfPresent]
  split
  · rename_i d hremove
    exact Disk.spares_of_removeFile hs hremove
  · exact .refl hs
  · exact .refl hs

/-- A directory is removed only when it is empty. -/
theorem spares_removeDirectories (hd : d.Sound) (ps : List FilePath) :
    Disk.Spares k d (removeDirectories ps d) := by
  induction ps generalizing d with
  | nil => exact .refl hd
  | cons p ps ih =>
    rw [removeDirectories]
    split
    · rename_i e hremove
      have hfirst : Disk.Spares k d e := Disk.spares_of_removeDirectory hd hremove
      exact hfirst.trans (ih hfirst.sound)
    · exact .refl hd

theorem spares_discard (hs : s.disk.Sound) (f : ScopedFile) :
    Disk.Spares (s.disk.destination f.path) s.disk (f.discard s).disk := by
  have hfile := spares_removeIfPresent hs f.path
  exact hfile.trans (spares_removeDirectories hfile.sound _)

end ScopedFile

namespace Disk

variable {d e f : Disk} {p path : FilePath} {k : Location} {serial : Nat} {bytes : List UInt8}

theorem Writes.spares (h : d.Writes path serial bytes e) :
    Spares (d.destination path) d e :=
  ⟨h.sound, h.workingDirectory, fun l n old hne hl => (h.others l n old hne).2 hl⟩

theorem Spares.destination (h : Spares k d e) (p : FilePath) : e.destination p = d.destination p :=
  destination_congr h.workingDirectory p

end Disk

namespace ScopedFile

variable {s s' : Session} {path : FilePath}

/-- A file that cannot be created leaves the files elsewhere alone. What has been made for it when
it fails is directories, and what is discarded is a file at its own path and empty directories. -/
theorem spares_of_create_error (hs : s.disk.Sound) {e : IoError}
    (h : create path s = (.error e, s')) :
    Disk.Spares (s.disk.destination path) s.disk s'.disk := by
  have hgrows := grows_makeParent hs path
  -- what is discarded is discarded from a tree with more directories, and at the same place
  have hdiscard : ∀ d, Disk.Grows (path.ancestors.map s.disk.destination) s.disk d →
      Disk.Spares (s.disk.destination path) s.disk
        (discard ⟨path, missingDirectories s.disk path⟩ (s.withDisk d)).disk := by
    intro d hd
    have hgrown : Disk.Spares (s.disk.destination path) s.disk d := .of_grows hd
    have hgone := spares_discard (s := s.withDisk d) hd.sound
      ⟨path, missingDirectories s.disk path⟩
    rw [Session.disk_withDisk, hgrown.destination] at hgone
    exact hgrown.trans hgone
  rw [create] at h
  split at h
  · -- its directory could not be made
    rename_i d hparent
    rw [hparent] at hgrows
    cases h
    exact hdiscard d hgrows
  · -- its directory could be made, and it itself failed
    rename_i d hparent
    rw [hparent] at hgrows
    split at h
    · cases h
      exact hdiscard d hgrows
    · cases h

end ScopedFile

/-! ## Paths by components -/

namespace Disk

variable {d e : Disk} {l : Location} {p q : FilePath} {serial : Nat} {bytes : List UInt8}

/-- Where one component of a path leads. -/
def followComponent (l : Location) : PathComponent → Location
  | .root => []
  | .current => l
  | .parent => l.dropLast
  | .name n => l ++ [n]

/-- The place of a path can be read off its components as well as off its segments. A `.` leads
nowhere, wherever it stands. -/
theorem destination_eq_foldl (d : Disk) (p : FilePath) :
    d.destination p = p.components.foldl followComponent d.workingDirectory := by
  -- segments and components differ in the `.` alone
  have hsegments : ∀ (ss : List String) (l : Location), ss.foldl follow l =
      ((ss.filter (· != ".")).map FilePath.component).foldl followComponent l := by
    intro ss
    induction ss with
    | nil => exact fun _ => rfl
    | cons s ss ih =>
      intro l
      rw [List.foldl_cons, ih]
      by_cases hdot : s = "."
      · simp [hdot, follow]
      · by_cases hdots : s = ".."
        · simp [hdots, follow, FilePath.component, followComponent]
        · simp [hdot, hdots, follow, FilePath.component, followComponent]
  show p.segments.foldl follow (if p.isAbsolute then [] else d.workingDirectory) =
    ((if p.isAbsolute then [PathComponent.root]
      else if p.segments.head? == some "." then [PathComponent.current] else []) ++
        (p.segments.filter (· != ".")).map FilePath.component).foldl followComponent _
  rw [hsegments, List.foldl_append]
  by_cases habsolute : p.isAbsolute = true
  · simp [habsolute, followComponent]
  · by_cases hcurrent : p.segments.head? == some "." <;>
      simp [habsolute, hcurrent, followComponent]

/-- A path leads one component further than its parent. -/
theorem destination_of_parent? (h : p.parent? = some q) :
    ∃ c, p.components = q.components ++ [c] ∧
      d.destination p = followComponent (d.destination q) c := by
  obtain ⟨c, outer, hcs, houter, rfl, -⟩ := FilePath.above_eq_cons (FilePath.trail_components p) h
  have hcomponents : p.components = (FilePath.ofComponents outer.reverse).components ++ [c] := by
    rw [FilePath.components_ofComponents houter, ← List.reverse_cons, ← hcs, List.reverse_reverse]
  refine ⟨c, hcomponents, ?_⟩
  rw [destination_eq_foldl, hcomponents, List.foldl_append, destination_eq_foldl]
  rfl

theorem components_of_segments {before : List String} {n : String}
    (h : p.segments = before ++ [n]) (hdot : n ≠ ".") :
    ∃ cs, p.components = cs ++ [FilePath.component n] := by
  rw [FilePath.components, h, List.filter_append, List.map_append, ← List.append_assoc,
    List.filter_cons_of_pos (by simpa using hdot)]
  exact ⟨_, rfl⟩

/-! ## Over a file that was there -/

theorem Makes.kept {x : Entry} {ps : List FilePath} (h : Makes d ps e) (hl : d.get? l = some x) :
    e.get? l = some x := by
  induction h with
  | none => exact hl
  | made _ hmake ih =>
    obtain ⟨_, _, _, _, _, hadds, _⟩ := adds_of_makeDirectory hmake
    exact hadds.get?_of_get? ih

/-- Each directory is made where its path leads to. -/
theorem Makes.adds {f : Disk} {ps : List FilePath} (h : Makes d ps e)
    (hmake : e.makeDirectory p = .ok f) : Adds e (d.destination p) .directory f := by
  obtain ⟨l, name, slash, hslot, -, hadds, -⟩ := adds_of_makeDirectory hmake
  rwa [← destination_congr h.workingDirectory, destination_of_slot hslot]

/-- Nothing is made to hold a file that is there, for what holds it is there. This is what keeps
directories from being removed when an existing file was written over. -/
theorem missingDirectories_of_file (hd : d.Sound) (hp : .parent ∉ p.components)
    {n : String} {before : List String} (hsegments : p.segments = before ++ [n]) (hdot : n ≠ ".")
    (hl : d.get? (d.destination p) = some (.file serial bytes))
    (hmakes : d.Makes (ScopedFile.missingDirectories d p) e) :
    ScopedFile.missingDirectories d p = [] := by
  cases hmissing : ScopedFile.missingDirectories d p with
  | nil => rfl
  | cons q outer =>
    -- the first directory that is missing would be the parent
    have hq : p.parent? = some q := by
      have hancestors : q ∈ p.ancestors.head? := by
        rw [ScopedFile.missingDirectories] at hmissing
        cases hancestors : p.ancestors with
        | nil =>
          rw [hancestors] at hmissing
          cases hmissing
        | cons a as =>
          rw [hancestors, List.takeWhile_cons] at hmissing
          split at hmissing
          · rw [(List.cons.inj hmissing).1]
            rfl
          · cases hmissing
      exact hancestors
    -- the parent would have been made where a directory must have been already
    obtain ⟨c, hcomponents, hdestination⟩ := destination_of_parent? (d := d) hq
    obtain ⟨cs, hlast⟩ := components_of_segments hsegments hdot
    obtain ⟨-, hc⟩ := List.append_inj' (hcomponents.symm.trans hlast) rfl
    have hname : c = .name n := by
      rw [(List.cons.inj hc).1, FilePath.component]
      split
      · rename_i hdots
        refine absurd ?_ hp
        rw [hlast, FilePath.component, if_pos hdots]
        exact List.mem_append_right _ (List.mem_singleton_self _)
      · rfl
    -- which stands right above the file
    rw [hname, followComponent] at hdestination
    rw [hdestination] at hl
    have hdir : d.get? (d.destination q) = some .directory :=
      hd.get?_of_prefix hl (List.prefix_append _ _) (by simp)
    rw [hmissing] at hmakes
    cases hmakes with
    | made houter hmake =>
      have habsent := (houter.adds hmake).absent
      rw [houter.kept hdir] at habsent
      cases habsent

theorem sameTree_erase (h : d.get? l = none) : SameTree d (d.erase l) := by
  refine ⟨?_, rfl⟩
  show d.entries = d.entries.filter fun x => x.1 ≠ l
  exact (List.filter_eq_self.2 (by simpa using ne_of_get?_eq_none h)).symm

/-- Only the entry of a file tells that its bytes have changed. -/
theorem sameTree_mapFile_erase (hd : d.Sound) (hl : d.get? l = some (.file serial bytes))
    (f : List UInt8 → List UInt8) : SameTree ((d.mapFile serial f).erase l) (d.erase l) := by
  refine ⟨?_, rfl⟩
  show (d.entries.map fun x => (x.1, mapEntry serial f x.2)).filter (fun x => x.1 ≠ l) =
    d.entries.filter fun x => x.1 ≠ l
  rw [List.filter_map]
  conv_rhs => rw [← List.map_id (d.entries.filter fun x => x.1 ≠ l)]
  refine List.map_congr_left fun y hy => Prod.ext rfl ?_
  obtain ⟨hmem, hne⟩ := List.mem_filter.1 hy
  have hyl : y.1 ≠ l := by simpa using hne
  exact hd.mapEntry_of_ne hl (hd.get?_of_mem hmem) hyl f

theorem removeFile_of_slot {name : String} (hslot : d.slot p = .ok ⟨l, some name, false⟩)
    (hsize : name.utf8ByteSize ≤ nameLimit)
    (hl : d.get? (l ++ [name]) = some (.file serial bytes)) :
    d.removeFile p = .ok (d.erase (l ++ [name])) := by
  rw [removeFile_eq_atName]
  refine atName_eq_ok_iff.2 ⟨l, name, false, hslot, hsize, ?_⟩
  simp only [hl]
  rfl

end Disk

namespace ScopedFile

variable {s s' s₂ : Session} {f : ScopedFile} {h : FileHandle} {path : FilePath}
  {g : List UInt8 → List UInt8}

/-- A file that is created over another one takes nothing with it when it is given up. It was
emptied then, and nothing else was done, so only the file itself is gone. -/
theorem sameTree_discard_over (hs : s.disk.Sound) (hp : .parent ∉ path.components) {serial : Nat}
    {old : List UInt8} (hl : s.disk.get? (s.disk.destination path) = some (.file serial old))
    (hcreate : create path s = (.ok (f, h), s')) (hs₂ : s₂.disk = s'.disk.mapFile h.serial g) :
    (f.discard s₂).disk.SameTree (s.disk.erase (s.disk.destination path)) := by
  obtain ⟨rfl, d, hmakes, hfile⟩ := makes_of_create hs hp hcreate
  obtain ⟨l, name, hslot, hsize, -, hcases⟩ := Disk.createFile_eq_ok hfile
  obtain ⟨-, -, hdot, -, before, hsegments, -, -⟩ := Disk.slot_eq_ok_iff.1 hslot
  have hnone := Disk.missingDirectories_of_file hs hp hsegments hdot hl hmakes
  -- so the directories are those of before, and the file is emptied
  rw [hnone] at hmakes
  cases hmakes
  rw [Disk.destination_of_slot hslot] at hl ⊢
  rcases hcases with ⟨bytes, hx, hput⟩ | ⟨-, -, hadds⟩
  · -- the file with its number is still at its place, whatever has been written to it
    rw [hput, Disk.put_eq_setBytes hs hx, Disk.setBytes, Disk.mapFile_mapFile] at hs₂
    have hdir : ∀ k, s.disk.get? k = some .directory → s₂.disk.get? k = some .directory := by
      intro k hk
      rw [hs₂, Disk.get?_mapFile_eq_directory_iff]
      exact hk
    have hslot₂ : s₂.disk.slot path = .ok ⟨l, some name, false⟩ := by
      refine Disk.slot_mono ?_ hdir hslot
      rw [hs₂]
      rfl
    have hx₂ : s₂.disk.get? (l ++ [name]) = some (.file h.serial (g [])) := by
      rw [hs₂, Disk.get?_mapFile, hx, Option.map_some, Disk.mapEntry, if_pos rfl]
      rfl
    have hremove := Disk.removeFile_of_slot hslot₂ hsize hx₂
    rw [discard, removeIfPresent, hremove, hnone]
    show Disk.SameTree (s₂.disk.erase (l ++ [name])) _
    rw [hs₂]
    exact Disk.sameTree_mapFile_erase hs hx _
  · -- the file is there, so it is not a new one
    rw [hadds.absent] at hl
    cases hl

/-- What is left of a file that was created, written and given up: the tree from before, without the
file. -/
theorem sameTree_discard (hs : s.disk.Sound) (hp : .parent ∉ path.components)
    (hcreate : create path s = (.ok (f, h), s')) (hs₂ : s₂.disk = s'.disk.mapFile h.serial g) :
    (f.discard s₂).disk.SameTree (s.disk.erase (s.disk.destination path)) := by
  have hwrites := (writes_of_create hs hcreate).2.2.2
  cases hl : s.disk.get? (s.disk.destination path) with
  | none =>
    -- nothing is at the path, so what is made is taken back
    have hmissing : s.disk.find? path = none := by
      refine Option.eq_none_iff_forall_ne_some.2 fun x hfind => ?_
      obtain ⟨k, hlocate, hk⟩ := Disk.find?_eq_some_iff.1 hfind
      rw [Disk.destination_of_locate hlocate, hk] at hl
      cases hl
    have hholds := (holds_of_create hs hp hmissing hcreate).2.2.mapFile g
    rw [← hs₂] at hholds
    exact (hholds.discard hs).trans (Disk.sameTree_erase hl)
  | some x =>
    cases x with
    | directory =>
      -- no file could have been created there
      have hdir := hwrites.kept _ hl
      rw [hwrites.file] at hdir
      cases hdir
    | file serial old => exact sameTree_discard_over hs hp hl hcreate hs₂

end ScopedFile

end StubGen
