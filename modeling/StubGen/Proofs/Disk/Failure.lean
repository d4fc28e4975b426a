import StubGen.Proofs.Disk.Creation

/-!
# Files that cannot be created

A file cannot be created when one of its directories cannot be made, or when the file itself cannot.
In the second case all directories have been made that were missing, and all of them are taken back.
In the first case some may have been made, the outermost ones. Then the removal starts with the
innermost directory, which is not there, and stops: what was made stays.

Main results:

* `exists_makes_of_makeDirectories_error` — before a directory fails, an outer part of what is
  missing has been made;
* `create_error_leaves` — what is left of a file that could not be created;
* `Overlong.create_leaves_directory` — a directory that stays.
-/

namespace StubGen

namespace Disk

variable {d d' : Disk} {p : FilePath} {ps outer : List FilePath} {e : IoError}

/-! ## Directories that cannot be made -/

/-- The ways in which a directory cannot be made: at once, or because of what should hold it, or
when what should hold it has been made. -/
theorem makeDirectories_eq_error (h : makeDirectories (p :: outer) d = (.error e, d')) :
    p.isEmpty = false ∧
      (d'.isDirectory p = false ∧ d' = d ∨
        d.makeDirectory p = .error (.os .notFound) ∧
          (makeDirectories outer d = (.error e, d') ∨
            makeDirectories outer d = (.ok (), d') ∧ d'.isDirectory p = false)) := by
  -- a failure counts only where no directory is there
  have hsettle : ∀ {e' : IoError} {f : Disk}, f.makeDirectory p = .error e' →
      (if e' = .os .alreadyExists ∧ f.isDirectory p then
        ((.ok () : Except IoError Unit), f) else (.error e', f)) = (.error e, d') →
      d'.isDirectory p = false ∧ d' = f := by
    intro e' f hmake h
    split at h
    · cases h
    · rename_i hnot
      cases h
      refine ⟨Bool.eq_false_iff.2 fun hdir => hnot ⟨?_, hdir⟩, rfl⟩
      exact Except.error.inj (hmake.symm.trans (makeDirectory_of_isDirectory hdir))
  rw [makeDirectories] at h
  split at h
  · cases h
  rename_i hempty
  refine ⟨Bool.not_eq_true _ ▸ hempty, ?_⟩
  -- made at once, missing what should hold it, or failed for another reason
  split at h
  · cases h
  · rename_i hmake
    refine .inr ⟨hmake, ?_⟩
    split at h
    · rename_i houter
      cases h
      exact .inl houter
    · rename_i f houter
      split at h
      · cases h
      · rename_i hmake'
        obtain ⟨hdir, rfl⟩ := hsettle hmake' h
        exact .inr ⟨houter, hdir⟩
  · rename_i hmake
    exact .inl (hsettle hmake h)

/-- Before a directory fails, an outer part of what is missing has been made; the directory itself
is not there. -/
theorem exists_makes_of_makeDirectories_error (hd : d.Sound) (ha : FilePath.Ascent p outer)
    (h : makeDirectories (p :: outer) d = (.error e, d')) :
    d'.isDirectory p = false ∧
      ∃ made, made <:+ (p :: outer).takeWhile (fun a => !a.isEmpty && !d.pathExists a) ∧
        Makes d made d' := by
  induction ha generalizing e d' with
  | stop hp =>
    obtain ⟨hempty, ⟨hdir, rfl⟩ | ⟨hmake, -⟩⟩ := makeDirectories_eq_error h
    · exact ⟨hdir, [], List.nil_suffix, .none⟩
    -- nothing holds the root or the working directory that could be missing
    · obtain ⟨e', he', hne⟩ := makeDirectory_of_noNames (d := d) hempty hp
      rw [he'] at hmake
      exact absurd (Except.error.inj hmake) hne
  | @step q outer n hn hdots above ih =>
    obtain ⟨hempty, ⟨hdir, rfl⟩ | ⟨hmake, hrest⟩⟩ := makeDirectories_eq_error h
    · -- the directory fails at once, and nothing has been made
      exact ⟨hdir, [], List.nil_suffix, .none⟩
    -- otherwise it is missing, and what should hold it is made first
    have hmissing : d.find? (q.join ⟨n⟩) = none :=
      find?_of_slot_eq_error (slot_of_makeDirectory_notFound hmake)
    rw [List.takeWhile_cons_of_pos (by simp [hempty, pathExists, hmissing])]
    rcases hrest with houter | ⟨houter, hdir⟩
    -- what is in a directory that is not there is not there either
    · obtain ⟨hnot, made, hsuffix, hmakes⟩ := ih houter
      refine ⟨Bool.eq_false_iff.2 fun hdir => ?_, made, hsuffix.trans (List.suffix_cons _ _),
        hmakes⟩
      rcases isDirectory_of_join hn hdir with hq | hq
      · rw [(makeDirectories_eq_error houter).1] at hq
        cases hq
      · rw [hnot] at hq
        cases hq
    · -- what holds it could be made, so all that was missing there has been
      obtain ⟨hmakes, -⟩ := makes_of_makeDirectories hd above houter
      exact ⟨hdir, _, List.suffix_cons _ _, hmakes⟩

namespace Makes

theorem length_entries (h : Makes d ps d') :
    d'.entries.length = d.entries.length + ps.length := by
  induction h with
  | none => rfl
  | made _ hmake ih =>
    obtain ⟨_, _, _, _, _, hadds, _⟩ := adds_of_makeDirectory hmake
    rw [hadds.entries, List.length_append, List.length_singleton, List.length_cons, ih,
      Nat.add_assoc]

/-- Nothing was made if the tree is the same. -/
theorem eq_nil (h : Makes d ps d') (hsame : SameTree d' d) : ps = [] := by
  have hlength := h.length_entries
  rw [hsame.entries] at hlength
  exact List.length_eq_zero_iff.1 (by omega)

theorem isDirectory_head (h : Makes d (p :: ps) d') : d'.isDirectory p = true := by
  cases h with
  | made _ hmake => exact isDirectory_of_makeDirectory_eq_ok hmake

end Makes

end Disk

namespace ScopedFile

variable {d d' : Disk} {s s' : Session} {path p : FilePath} {made : List FilePath} {e : IoError}

/-! ## What is left -/

/-- Where nothing was, there is no file to be removed after directories have been made. -/
theorem disk_removeIfPresent (hd : d.Sound) (hp : .parent ∉ path.components)
    (hmissing : d.find? path = none) (hmakes : d.Makes made s.disk) :
    (removeIfPresent path s).disk = s.disk := by
  -- there is a file, but a file that is there now was there before
  rw [removeIfPresent]
  split
  · rename_i f hremove
    rw [Disk.removeFile_eq_atName] at hremove
    obtain ⟨l, name, slash, hslot, hsize, hact⟩ := Disk.atName_eq_ok_iff.1 hremove
    split at hact
    · cases hact
    · cases hact
    rename_i serial bytes hx
    cases slash with
    | true => cases hact
    | false =>
      have hx := hmakes.get?_file hx
      have hup := FilePath.not_mem_segments_of_noParents hp
      have hslot := hd.slot_of_get? hmakes.workingDirectory hup hx hslot
      rw [Disk.find?_of_slot hslot hsize, hx] at hmissing
      cases hmissing
  · rfl
  · rfl

/-- A directory that is not there stops the removal. -/
theorem removeDirectories_of_not_isDirectory (h : d.isDirectory p = false) (ps : List FilePath) :
    removeDirectories (p :: ps) d = d := by
  rw [removeDirectories]
  split
  · rename_i hremove
    rw [Disk.isDirectory_of_removeDirectory hremove] at h
    cases h
  · rfl

/-- What has been made when the directory of a file fails is not all that was missing, unless
nothing was missing; and none of it is removed. -/
theorem exists_makes_of_makeParent_error (hd : d.Sound) (hp : .parent ∉ path.components)
    (h : makeParent path d = (.error e, d')) :
    ∃ made, made <:+ missingDirectories d path ∧ d.Makes made d' ∧
      (made = missingDirectories d path → made = []) ∧
      removeDirectories (missingDirectories d path) d' = d' := by
  rw [makeParent, FilePath.parent?] at h
  -- a path of one name has nothing made for it
  rcases FilePath.ancestors_of_noParents hp with hnone | ⟨q, hancestors, hascent⟩
  · rw [hnone] at h
    cases h
  rw [hancestors] at h
  -- nothing is made for a path in the working directory either
  simp only [List.head?_cons] at h
  split at h
  · cases h
  obtain ⟨hnot, made, hsuffix, hmakes⟩ :=
    Disk.exists_makes_of_makeDirectories_error hd hascent h
  rw [← hancestors] at hsuffix
  refine ⟨made, hsuffix, hmakes, fun hall => ?_, ?_⟩
  · cases made with
    | nil => rfl
    | cons p made =>
      -- the innermost directory would be the parent
      rw [missingDirectories, hancestors, List.takeWhile_cons] at hall
      split at hall
      · obtain ⟨rfl, -⟩ := List.cons.inj hall
        rw [hmakes.isDirectory_head] at hnot
        cases hnot
      · cases hall
  · -- the parent is not there, so it cannot be removed, and there the removal ends
    rw [missingDirectories, hancestors, List.takeWhile_cons]
    split
    · exact removeDirectories_of_not_isDirectory hnot _
    · rfl

/-- What is left of a file that could not be created where nothing was before. The directories that
have been made for it are an outer part of those that were missing, and all of them if it is the
file itself that failed. All of them are taken back; but if they are not all, none of them is,
because the removal begins with the innermost directory that was missing, and ends at the first one
that is not there. -/
theorem create_error_leaves (hs : s.disk.Sound) (hp : .parent ∉ path.components)
    (hmissing : s.disk.find? path = none) (h : create path s = (.error e, s')) :
    ∃ made, made <:+ missingDirectories s.disk path ∧
      s.disk.Makes made (makeParent path s.disk).2 ∧
      ((makeParent path s.disk).1 = .ok () → made = missingDirectories s.disk path) ∧
      (s'.disk.SameTree s.disk ↔ made = [] ∨ made = missingDirectories s.disk path) ∧
      (made ≠ missingDirectories s.disk path → s'.disk = (makeParent path s.disk).2) := by
  rw [create] at h
  split at h
  · -- a directory failed
    rename_i e' d hparent
    cases h
    obtain ⟨made, hsuffix, hmakes, hall, hstop⟩ := exists_makes_of_makeParent_error hs hp hparent
    -- nothing is removed
    have hdisk : (discard ⟨path, missingDirectories s.disk path⟩ (s.withDisk d)).disk = d := by
      rw [discard, disk_removeIfPresent (s := s.withDisk d) hs hp hmissing hmakes]
      exact hstop
    rw [hparent, hdisk]
    -- so the tree is the one before only if nothing was made
    refine ⟨made, hsuffix, hmakes, fun hok => (by cases hok),
      ⟨fun hsame => .inl (hmakes.eq_nil hsame), ?_⟩, fun _ => rfl⟩
    intro h
    obtain rfl : made = [] := h.elim id hall
    cases hmakes
    exact ⟨rfl, rfl⟩
  · -- the file failed, after all its directories had been made; they are removed again
    rename_i d hparent
    split at h
    · rename_i e' hfile
      cases h
      have hmakes := makes_of_makeParent hs hp hparent
      have hsame : (discard ⟨path, missingDirectories s.disk path⟩ (s.withDisk d)).disk.SameTree
          s.disk := by
        rw [discard, disk_removeIfPresent (s := s.withDisk d) hs hp hmissing hmakes]
        exact Disk.removeDirectories_of_makes hs hmakes ⟨rfl, rfl⟩
      rw [hparent]
      exact ⟨_, List.suffix_rfl, hmakes, fun _ => rfl, ⟨fun _ => .inr rfl, fun _ => hsame⟩,
        fun h => absurd rfl h⟩
    · cases h

end ScopedFile

/-! ## A name that is too long -/

namespace Overlong

open FilePath (IsSegment)

/-- A name that is too long for a directory, in a path that is not. -/
structure IsOverlong (name : String) : Prop where
  isSegment : IsSegment name
  ne_dots : name ≠ ".."
  noNul : '\x00' ∉ name.toList
  tooLong : Disk.nameLimit < name.utf8ByteSize
  fits : name.utf8ByteSize + 2 ≤ Disk.pathLimit

theorem utf8ByteSize_replicate (n : Nat) :
    (String.ofList (List.replicate n 'n')).utf8ByteSize = n := by
  induction n with
  | zero => rfl
  | succ n ih =>
    rw [List.replicate_succ, String.ofList_cons, String.utf8ByteSize_append, ih, Nat.add_comm]
    rfl

theorem isOverlong_replicate {n : Nat} (hlong : Disk.nameLimit < n)
    (hfits : n + 2 ≤ Disk.pathLimit) : IsOverlong (String.ofList (List.replicate n 'n')) := by
  have hsize := utf8ByteSize_replicate n
  have hne : ∀ s : String, s.utf8ByteSize ≤ Disk.nameLimit →
      String.ofList (List.replicate n 'n') ≠ s := by
    rintro s hs rfl
    omega
  have hmem : ∀ c, c ≠ 'n' → c ∉ (String.ofList (List.replicate n 'n')).toList := by
    intro c hc h
    rw [String.toList_ofList] at h
    exact hc (List.eq_of_mem_replicate h)
  exact ⟨⟨hne _ (by decide), hne _ (by decide), hmem _ (by decide)⟩, hne _ (by decide),
    hmem _ (by decide), by omega, by omega⟩

variable {name : String}

/-- The directory of a name, in the directory `a`. -/
def directory (name : String) : FilePath := (⟨"a"⟩ : FilePath).join ⟨name⟩

/-- The disk with the directory `a`. -/
def disk : Disk := ⟨[(["a"], .directory)], 0, []⟩

theorem text_directory (h : IsOverlong name) : (directory name).text = "a/" ++ name := by
  rw [directory, FilePath.join_of_isSegment _ h.isSegment, if_neg (by decide)]
  rfl

theorem isEmpty_directory (h : IsOverlong name) : (directory name).isEmpty = false :=
  FilePath.isEmpty_join ⟨"a"⟩ h.isSegment

theorem checkPath_directory (h : IsOverlong name) : Disk.checkPath (directory name) = .ok () := by
  have hnul : '\x00' ∉ (directory name).chars := by
    rw [FilePath.chars, text_directory h, String.toList_append, List.mem_append, not_or]
    exact ⟨by decide, h.noNul⟩
  have hsize : ¬(directory name).text.utf8ByteSize > Disk.pathLimit := by
    have hfits := h.fits
    have htwo : "a/".utf8ByteSize = 2 := by decide
    rw [text_directory h, String.utf8ByteSize_append, htwo]
    omega
  rw [Disk.checkPath, if_neg (by simpa using hnul), if_neg (by simp [isEmpty_directory h]),
    if_neg hsize]

theorem slot_directory (h : IsOverlong name) {d : Disk} (hd : d.workingDirectory = []) :
    d.slot (directory name) = (d.walk [] ["a"]).bind fun l =>
      if d.get? l = some .directory then .ok ⟨l, some name, (directory name).endsWithSlash⟩
      else .error (.os .notADirectory) := by
  have hdot : ¬(name = "." ∨ name = "..") := not_or.2 ⟨h.isSegment.ne_dot, h.ne_dots⟩
  have hsegments : (directory name).segments = ["a"] ++ [name] :=
    FilePath.segments_join ⟨"a"⟩ h.isSegment
  rw [Disk.slot_of_segments (checkPath_directory h) hsegments, if_neg hdot, Disk.start, hd,
    ite_self]

theorem makeDirectory_empty (h : IsOverlong name) :
    Disk.empty.makeDirectory (directory name) = .error (.os .notFound) := by
  refine Disk.makeDirectory_of_slot_eq_error ?_
  rw [slot_directory h rfl]
  rfl

theorem makeDirectory_disk (h : IsOverlong name) :
    disk.makeDirectory (directory name) = .error (.os .nameTooLong) := by
  have hslot : disk.slot (directory name) =
      .ok ⟨["a"], some name, (directory name).endsWithSlash⟩ := by
    rw [slot_directory h rfl]
    rfl
  have hchild : Disk.child ["a"] name = .error (.os .nameTooLong) := by
    rw [Disk.child, if_pos h.tooLong]
  rw [Disk.makeDirectory_eq_atName, Disk.atName, hslot]
  show (Disk.child ["a"] name >>= _) = _
  rw [hchild]
  rfl

/-- The directory `a` is made, and then the name is refused. -/
theorem makeDirectories_directory (h : IsOverlong name) (outer : List FilePath) :
    Disk.makeDirectories (directory name :: ⟨"a"⟩ :: outer) .empty =
      (.error (.os .nameTooLong), disk) := by
  have houter : Disk.makeDirectories (⟨"a"⟩ :: outer) .empty = (.ok (), disk) := by
    have hmake : Disk.empty.makeDirectory ⟨"a"⟩ = .ok disk := by decide
    rw [Disk.makeDirectories, if_neg (by decide), hmake]
  rw [Disk.makeDirectories, if_neg (by simp [isEmpty_directory h]), makeDirectory_empty h]
  simp only [houter, makeDirectory_disk h]
  rfl

/-- A file in the directory of a name. -/
def path (name : String) : FilePath := ⟨"a/" ++ name ++ "/f"⟩

/-- A session on a disk that holds the root directory alone. -/
def session : Session := { disk := .empty }

theorem isSegment_f : IsSegment "f" := ⟨by decide, by decide, by decide⟩

theorem path_eq_join (h : IsOverlong name) : path name = (directory name).join ⟨"f"⟩ := by
  have hslash : (directory name).endsWithSlash = false :=
    FilePath.endsWithSlash_join ⟨"a"⟩ h.isSegment
  have htext : "a/" ++ name ++ "/f" = "a/" ++ name ++ "/" ++ "f" := by
    have hlast : "/f" = "/" ++ "f" := by decide
    exact (congrArg ("a/" ++ name ++ ·) hlast).trans String.append_assoc.symm
  rw [FilePath.join_of_isSegment _ isSegment_f, isEmpty_directory h, hslash, text_directory h,
    if_neg (by decide), path, htext]

theorem component_name (h : IsOverlong name) : FilePath.component name = .name name := by
  rw [FilePath.component, if_neg (by simpa using h.ne_dots)]

theorem components_path (h : IsOverlong name) :
    (path name).components = [.name "a", .name name, .name "f"] := by
  rw [path_eq_join h, FilePath.components_join _ isSegment_f, directory,
    FilePath.components_join _ h.isSegment, component_name h]
  rfl

theorem ancestors_path (h : IsOverlong name) :
    (path name).ancestors = [directory name, ⟨"a"⟩, ⟨""⟩] := by
  have htrail : FilePath.Trail [FilePath.component "a"] :=
    .segment ⟨by decide, by decide, by decide⟩ .here
  have hdirectory : FilePath.ofComponents [.name "a", FilePath.component name] = directory name :=
    FilePath.ofComponents_concat htrail h.isSegment
  rw [component_name h] at hdirectory
  rw [FilePath.ancestors, components_path h, ← hdirectory]
  rfl

theorem noParents (h : IsOverlong name) : .parent ∉ (path name).components := by
  rw [components_path h]
  simp

theorem makeParent_path (h : IsOverlong name) :
    ScopedFile.makeParent (path name) .empty = (.error (.os .nameTooLong), disk) := by
  have hparent : (path name).parent? = some (directory name) := by
    rw [FilePath.parent?, ancestors_path h]
    rfl
  have hancestors : (directory name).ancestors = [⟨"a"⟩, ⟨""⟩] :=
    (List.cons.inj ((FilePath.ancestors_of_parent? hparent).symm.trans (ancestors_path h))).2
  rw [ScopedFile.makeParent, hparent]
  simp only [isEmpty_directory h, Disk.makeDirectoryTree, hancestors, makeDirectories_directory h,
    Bool.false_eq_true, if_false]

theorem find?_path (h : IsOverlong name) : Disk.empty.find? (path name) = none := by
  refine Option.eq_none_iff_forall_ne_some.2 fun x hfind => ?_
  obtain ⟨l, hlocate, -⟩ := Disk.find?_eq_some_iff.1 hfind
  obtain ⟨-, hwalk, -⟩ := Disk.locate_eq_ok_iff.1 hlocate
  have hstart : Disk.empty.start (path name) = [] := ite_self _
  have hsegments : (path name).segments = ["a", name, "f"] := by
    rw [path_eq_join h, FilePath.segments_join _ isSegment_f, directory,
      FilePath.segments_join _ h.isSegment]
    rfl
  rw [hstart, hsegments] at hwalk
  obtain ⟨k, henter, -⟩ := Disk.walk_cons_eq_ok_iff.1 hwalk
  cases henter

/-- The directory `a` stays, for what is removed first is the directory that was refused. -/
theorem create_path (h : IsOverlong name) :
    ∃ s', ScopedFile.create (path name) session = (.error (.os .nameTooLong), s') ∧
      s'.disk = disk := by
  have hmakes : Disk.empty.Makes [⟨"a"⟩] disk := .made .none (by decide)
  obtain ⟨-, -, -, -, hstop⟩ :=
    ScopedFile.exists_makes_of_makeParent_error Disk.sound_empty (noParents h) (makeParent_path h)
  refine ⟨ScopedFile.discard ⟨path name, ScopedFile.missingDirectories .empty (path name)⟩
    { disk := disk }, ?_, ?_⟩
  · rw [ScopedFile.create, session, makeParent_path h]
    rfl
  · rw [ScopedFile.discard,
      ScopedFile.disk_removeIfPresent Disk.sound_empty (noParents h) (find?_path h) hmakes]
    exact hstop

/-- A name of 256 characters. -/
@[irreducible]
def longName : String := String.ofList (List.replicate 256 'n')

theorem isOverlong_longName : IsOverlong longName := by
  have hlong : Disk.nameLimit < 256 := by decide
  have hfits : 256 + 2 ≤ Disk.pathLimit := by decide
  have h := isOverlong_replicate hlong hfits
  unfold longName
  exact h

theorem create_error_leaves_of_longName :
    session.disk.Sound ∧ .parent ∉ (path longName).components ∧
      session.disk.find? (path longName) = none ∧
    ∃ s', ScopedFile.create (path longName) session = (.error (.os .nameTooLong), s') ∧
    ∃ made, made <:+ ScopedFile.missingDirectories session.disk (path longName) ∧
      session.disk.Makes made (ScopedFile.makeParent (path longName) session.disk).2 ∧
      ((ScopedFile.makeParent (path longName) session.disk).1 = .ok () →
        made = ScopedFile.missingDirectories session.disk (path longName)) ∧
      (s'.disk.SameTree session.disk ↔
        made = [] ∨ made = ScopedFile.missingDirectories session.disk (path longName)) ∧
      (made ≠ ScopedFile.missingDirectories session.disk (path longName) →
        s'.disk = (ScopedFile.makeParent (path longName) session.disk).2) := by
  have hsound : session.disk.Sound := Disk.sound_empty
  have hparents := noParents isOverlong_longName
  have hmissing := find?_path isOverlong_longName
  obtain ⟨s', hcreate, -⟩ := create_path isOverlong_longName
  exact ⟨hsound, hparents, hmissing, s', hcreate,
    ScopedFile.create_error_leaves hsound hparents hmissing hcreate⟩

/-- Of a file in a directory with a name that is too long the directory above it is left. -/
theorem create_leaves_directory :
    session.disk.Sound ∧ .parent ∉ (path longName).components ∧
      session.disk.find? (path longName) = none ∧ session.disk.entries = [] ∧
      ∃ s', ScopedFile.create (path longName) session = (.error (.os .nameTooLong), s') ∧
        s'.disk.entries = [(["a"], .directory)] := by
  obtain ⟨s', hcreate, hdisk⟩ := create_path isOverlong_longName
  refine ⟨Disk.sound_empty, noParents isOverlong_longName, find?_path isOverlong_longName, rfl, s',
    hcreate, ?_⟩
  rw [hdisk]
  rfl

end Overlong

end StubGen
