import StubGen.Proofs.Disk.Discarding
import StubGen.Proofs.Tar.Reading
import StubGen.Tar.Format

/-!
# Archives that are complete or gone

Packaging opens the compiled unit, opens the archive and its entry, copies the unit piece by piece,
closes the entry and finishes the archive. Each of these calls may fail. Whichever it is, its
failure is that of the whole, and the archive that was begun is taken back. The format is only
trusted with the file that it was given.

Main results:

* `ArchiveFormat.archiveFile_eq_error_iff` — the calls by which an archive can fail;
* `ArchiveFormat.Confined.archiveFile` — an archiver that stays in its file changes nothing else;
* `ArchiveFormat.archiveFile_tar` — what an archive in tar format consists of;
* `PackageJob.run_outcome` — what is left of a package, whatever fails or not.
-/

namespace StubGen

namespace Disk

theorem mapFile_id (d : Disk) (serial : Nat) : d.mapFile serial id = d := by
  have hentry : ∀ x, mapEntry serial id x = x := by
    intro x
    cases x with
    | directory => rfl
    | file n bytes => simp [mapEntry]
  simp [mapFile, hentry]

theorem write_nil (d : Disk) (h : FileHandle) : d.write h [] = (h, d) := by
  rw [write_eq]
  exact congrArg (h, ·) (d.mapFile_id h.serial)

end Disk

namespace ArchiveFormat

variable {format : ArchiveFormat} {α β : Type} {d d' : Disk} {e : IoError} {entry : String}
  {file : FilePath} {handle : FileHandle} {st st' : format.State}

/-! ## Where an archive can fail -/

theorem andThen_eq_error_iff {step : Except IoError α × Disk}
    {next : α → Disk → Except IoError β × Disk} :
    andThen step next = (.error e, d') ↔
      step = (.error e, d') ∨ ∃ a d₁, step = (.ok a, d₁) ∧ next a d₁ = (.error e, d') := by
  obtain ⟨result, d₁⟩ := step
  cases result with
  | error e' => simp [andThen]
  | ok a => simp [andThen]

theorem andThen_eq_ok_iff {step : Except IoError α × Disk}
    {next : α → Disk → Except IoError β × Disk} {b : β} :
    andThen step next = (.ok b, d') ↔
      ∃ a d₁, step = (.ok a, d₁) ∧ next a d₁ = (.ok b, d') := by
  obtain ⟨result, d₁⟩ := step
  cases result with
  | error e' => simp [andThen]
  | ok a => simp [andThen]

/-- Copying fails with the first piece that cannot be written. -/
theorem writeChunks_eq_error_iff {cs : List (List UInt8)} :
    format.writeChunks cs st d = (.error e, d') ↔
      ∃ (k : Nat) (c : List UInt8) (st' : format.State) (d₁ : Disk),
        format.writeChunks (cs.take k) st d = (.ok st', d₁) ∧ cs[k]? = some c ∧
          format.write c st' d₁ = (.error e, d') := by
  induction cs generalizing st d with
  | nil => simp [writeChunks]
  | cons c cs ih =>
    rw [writeChunks]
    constructor
    · -- it is the first piece, or one of those after it
      intro h
      split at h
      · rename_i hfirst
        cases h
        exact ⟨0, c, st, d, rfl, rfl, hfirst⟩
      · rename_i st₁ d₁ hfirst
        obtain ⟨k, c', st', d₂, htake, hk, hwrite⟩ := ih.1 h
        refine ⟨k + 1, c', st', d₂, ?_, hk, hwrite⟩
        rw [List.take_succ_cons, writeChunks, hfirst]
        exact htake
    · -- up to the piece that fails both run alike
      rintro ⟨k, c', st', d₁, htake, hk, hwrite⟩
      cases k with
      | zero =>
        obtain rfl := Option.some.inj hk
        rw [List.take_zero, writeChunks] at htake
        cases htake
        rw [hwrite]
      | succ k =>
        rw [List.take_succ_cons, writeChunks] at htake
        split at htake
        · cases htake
        · rename_i st₁ d₂ hfirst
          exact ih.2 ⟨k, c', st', d₁, htake, hk, hwrite⟩

/-- The pieces in which a file is copied. -/
def pieces (bytes : List UInt8) : List (List UInt8) := chunks chunkSize bytes.length bytes

/-- The call at which writing an archive fails, with the failure and the disk that it leaves. -/
inductive FailsAt (format : ArchiveFormat) (h : FileHandle) (entry : String) (file : FilePath)
    (d : Disk) : IoError → Disk → Prop
  | missing {e : IoError} (hfile : d.openFile file = .error e) : FailsAt format h entry file d e d
  | openArchive {e : IoError} {d' : Disk} {content : Except IoError (List UInt8)}
      (hfile : d.openFile file = .ok content) (hfails : format.openArchive h d = (.error e, d')) :
      FailsAt format h entry file d e d'
  | openEntry {e : IoError} {d₁ d' : Disk} {content : Except IoError (List UInt8)}
      {st : format.State} (hfile : d.openFile file = .ok content)
      (hopen : format.openArchive h d = (.ok st, d₁))
      (hfails : format.openEntry entry st d₁ = (.error e, d')) : FailsAt format h entry file d e d'
  | read {e : IoError} {d₂ : Disk} {st : format.State} (hfile : d.openFile file = .ok (.error e))
      (hentry : andThen (format.openArchive h d) (format.openEntry entry) = (.ok st, d₂)) :
      FailsAt format h entry file d e d₂
  | write {e : IoError} {d₂ d₃ d' : Disk} {bytes c : List UInt8} {st st' : format.State} (k : Nat)
      (hfile : d.openFile file = .ok (.ok bytes))
      (hentry : andThen (format.openArchive h d) (format.openEntry entry) = (.ok st, d₂))
      (hbefore : format.writeChunks ((pieces bytes).take k) st d₂ = (.ok st', d₃))
      (hk : (pieces bytes)[k]? = some c) (hfails : format.write c st' d₃ = (.error e, d')) :
      FailsAt format h entry file d e d'
  | closeEntry {e : IoError} {d₂ d₃ d' : Disk} {bytes : List UInt8} {st st' : format.State}
      (hfile : d.openFile file = .ok (.ok bytes))
      (hentry : andThen (format.openArchive h d) (format.openEntry entry) = (.ok st, d₂))
      (hcopy : format.writeChunks (pieces bytes) st d₂ = (.ok st', d₃))
      (hfails : format.closeEntry st' d₃ = (.error e, d')) : FailsAt format h entry file d e d'
  | finish {e : IoError} {d₂ d₃ d₄ d' : Disk} {bytes : List UInt8} {st st' st'' : format.State}
      (hfile : d.openFile file = .ok (.ok bytes))
      (hentry : andThen (format.openArchive h d) (format.openEntry entry) = (.ok st, d₂))
      (hcopy : format.writeChunks (pieces bytes) st d₂ = (.ok st', d₃))
      (hclose : format.closeEntry st' d₃ = (.ok st'', d₄))
      (hfails : format.finish st'' d₄ = (.error e, d')) : FailsAt format h entry file d e d'

/-- If writing an archive fails, one of its calls has failed. The calls are bound to each other from
the left, so the last of them is the outermost, and the proof goes from the last call back to the
first. -/
theorem failsAt_of_archiveFile (h : format.archiveFile handle entry file d = (.error e, d')) :
    format.FailsAt handle entry file d e d' := by
  rw [archiveFile] at h
  cases hfile : d.openFile file with
  | error e' =>
    rw [hfile] at h
    cases h
    exact .missing hfile
  | ok content =>
    simp only [hfile] at h
    rcases andThen_eq_error_iff.1 h with h | ⟨st'', d₄, hclosed, hfails⟩
    · rcases andThen_eq_error_iff.1 h with h | ⟨st', d₃, hcopied, hfails⟩
      · rcases andThen_eq_error_iff.1 h with h | ⟨st, d₂, hentry, hfails⟩
        · rcases andThen_eq_error_iff.1 h with hfails | ⟨st, d₁, hopen, hfails⟩
          · exact .openArchive hfile hfails
          · exact .openEntry hfile hopen hfails
        · -- copying fails because the file cannot be read, or with one of its pieces
          cases content with
          | error e' =>
            cases hfails
            exact .read hfile hentry
          | ok bytes =>
            obtain ⟨k, c, st', d₃, hbefore, hk, hfails⟩ := writeChunks_eq_error_iff.1 hfails
            exact .write k hfile hentry hbefore hk hfails
      · -- the entry is closed only if the file has been read to its end
        obtain ⟨st, d₂, hentry, hcopy⟩ := andThen_eq_ok_iff.1 hcopied
        cases content with
        | error e' => cases hcopy
        | ok bytes => exact .closeEntry hfile hentry hcopy hfails
    · -- and so it is with the last call
      obtain ⟨st', d₃, hcopied, hclose⟩ := andThen_eq_ok_iff.1 hclosed
      obtain ⟨st, d₂, hentry, hcopy⟩ := andThen_eq_ok_iff.1 hcopied
      cases content with
      | error e' => cases hcopy
      | ok bytes => exact .finish hfile hentry hcopy hclose hfails

/-- The failure of a call is that of all that should have come after it. -/
theorem archiveFile_of_failsAt (hfails : format.FailsAt handle entry file d e d') :
    format.archiveFile handle entry file d = (.error e, d') := by
  -- a call that failed is followed by no other
  have hmore : ∀ {α β : Type} {step : Except IoError α × Disk}
      {next : α → Disk → Except IoError β × Disk}, step = (.error e, d') →
        andThen step next = (.error e, d') := fun h => andThen_eq_error_iff.2 (.inl h)
  rw [archiveFile]
  cases hfails with
  | missing hfile => rw [hfile]
  | openArchive hfile hfails =>
    simp only [hfile]
    exact hmore (hmore (hmore (hmore hfails)))
  | openEntry hfile hopen hfails =>
    simp only [hfile]
    exact hmore (hmore (hmore (andThen_eq_error_iff.2 (.inr ⟨_, _, hopen, hfails⟩))))
  | read hfile hentry =>
    simp only [hfile]
    exact hmore (hmore (andThen_eq_error_iff.2 (.inr ⟨_, _, hentry, rfl⟩)))
  | write k hfile hentry hbefore hk hfails =>
    simp only [hfile]
    have hcopy := writeChunks_eq_error_iff.2 ⟨k, _, _, _, hbefore, hk, hfails⟩
    exact hmore (hmore (andThen_eq_error_iff.2 (.inr ⟨_, _, hentry, hcopy⟩)))
  | closeEntry hfile hentry hcopy hfails =>
    simp only [hfile]
    have hcopied := andThen_eq_ok_iff.2 ⟨_, _, hentry, hcopy⟩
    exact hmore (andThen_eq_error_iff.2 (.inr ⟨_, _, hcopied, hfails⟩))
  | finish hfile hentry hcopy hclose hfails =>
    simp only [hfile]
    have hcopied := andThen_eq_ok_iff.2 ⟨_, _, hentry, hcopy⟩
    have hclosed := andThen_eq_ok_iff.2 ⟨_, _, hcopied, hclose⟩
    exact andThen_eq_error_iff.2 (.inr ⟨_, _, hclosed, hfails⟩)

/-- Writing an archive fails exactly as one of its calls does. -/
theorem archiveFile_eq_error_iff :
    format.archiveFile handle entry file d = (.error e, d') ↔
      format.FailsAt handle entry file d e d' :=
  ⟨failsAt_of_archiveFile, archiveFile_of_failsAt⟩

/-! ## Archivers that stay in their file -/

/-- The disk has changed in the bytes of one file at most, and a result is as it should be. -/
def Stays (serial : Nat) (d : Disk) (P : α → Prop) (r : Except IoError α × Disk) : Prop :=
  (∃ f, r.2 = d.mapFile serial f) ∧ ∀ a, r.1 = .ok a → P a

/-- An archiver does nothing but change the file that it was given the handle of: `owns` tells which
archives under way belong to which file. Each call is asked for this on its own, so that nothing has
to be known of the order in which they come. -/
structure Confined (format : ArchiveFormat) (owns : Nat → format.State → Prop) : Prop where
  openArchive : ∀ h d, Stays h.serial d (owns h.serial) (format.openArchive h d)
  openEntry : ∀ serial st, owns serial st → ∀ path d,
    Stays serial d (owns serial) (format.openEntry path st d)
  write : ∀ serial st, owns serial st → ∀ bytes d,
    Stays serial d (owns serial) (format.write bytes st d)
  closeEntry : ∀ serial st, owns serial st → ∀ d,
    Stays serial d (owns serial) (format.closeEntry st d)
  finish : ∀ serial st, owns serial st → ∀ d,
    Stays serial d (fun _ => True) (format.finish st d)

/-- Two changes of one file are one change of it. -/
theorem Stays.andThen {serial : Nat} {P : α → Prop} {Q : β → Prop}
    {step : Except IoError α × Disk} {next : α → Disk → Except IoError β × Disk}
    (hstep : Stays serial d P step) (hnext : ∀ a, P a → ∀ d, Stays serial d Q (next a d)) :
    Stays serial d Q (andThen step next) := by
  obtain ⟨result, d₁⟩ := step
  obtain ⟨⟨f, rfl⟩, ha⟩ := hstep
  cases result with
  | error e => exact ⟨⟨f, rfl⟩, fun b hb => nomatch hb⟩
  | ok a =>
    obtain ⟨⟨g, hg⟩, hb⟩ := hnext a (ha a rfl) (d.mapFile serial f)
    refine ⟨⟨g ∘ f, ?_⟩, hb⟩
    rw [← Disk.mapFile_mapFile]
    exact hg

theorem stays_here {serial : Nat} {P : α → Prop} {r : Except IoError α} (h : ∀ a, r = .ok a → P a) :
    Stays serial d P (r, d) :=
  ⟨⟨id, (d.mapFile_id serial).symm⟩, h⟩

namespace Confined

variable {owns : Nat → format.State → Prop} {serial : Nat}

/-- The pieces of the data are written one by one, each with an archive of the file in hand. -/
theorem writeChunks (hformat : format.Confined owns) (cs : List (List UInt8)) (st : format.State)
    (hst : owns serial st) (d : Disk) :
    Stays serial d (owns serial) (format.writeChunks cs st d) := by
  induction cs generalizing st d with
  | nil =>
    refine stays_here fun a ha => ?_
    cases ha
    exact hst
  | cons c cs ih =>
    have hcons : format.writeChunks (c :: cs) st d =
        andThen (format.write c st d) (format.writeChunks cs) := by
      rw [ArchiveFormat.writeChunks]
      obtain ⟨result, d⟩ := format.write c st d
      cases result <;> rfl
    rw [hcons]
    exact (hformat.write serial st hst c d).andThen ih

/-- An archiver that stays in its file changes nothing else, whether it fails or not. -/
theorem archiveFile (hformat : format.Confined owns) (h : FileHandle) (entry : String)
    (file : FilePath) (d : Disk) :
    ∃ f, (format.archiveFile h entry file d).2 = d.mapFile h.serial f := by
  -- a file that cannot be read is a failure that changes nothing
  have hcopy : ∀ (content : Except IoError (List UInt8)) (st : format.State), owns h.serial st →
      ∀ d, Stays h.serial d (owns h.serial) (format.copyContent content st d) := by
    intro content st hst d
    cases content with
    | error e => exact stays_here fun a ha => nomatch ha
    | ok bytes => exact hformat.writeChunks _ st hst d
  rw [ArchiveFormat.archiveFile]
  cases d.openFile file with
  | error e => exact ⟨id, (d.mapFile_id h.serial).symm⟩
  | ok content =>
    have hentry := (hformat.openArchive h d).andThen fun st hst =>
      hformat.openEntry h.serial st hst entry
    have hclosed := (hentry.andThen (hcopy content)).andThen (hformat.closeEntry h.serial)
    exact (hclosed.andThen (hformat.finish h.serial)).1

end Confined

/-! ## Archives in tar format -/

/-- The pieces of a list make up the list, if there are enough of them. -/
theorem flatten_chunks {size : Nat} (hsize : 0 < size) {limit : Nat} {bytes : List UInt8}
    (h : bytes.length ≤ limit) : (chunks size limit bytes).flatten = bytes := by
  induction limit generalizing bytes with
  | zero => rw [List.length_eq_zero_iff.1 (Nat.le_zero.1 h), chunks, List.flatten_nil]
  | succ limit ih =>
    cases bytes with
    | nil => rfl
    | cons b bs =>
      have hrest : ((b :: bs).drop size).length ≤ limit := by
        rw [List.length_drop]
        omega
      show ((b :: bs).take size :: chunks size limit ((b :: bs).drop size)).flatten = b :: bs
      rw [List.flatten_cons, ih hrest, List.take_append_drop]

/-- A format that collects data has all of it after the last piece. -/
theorem writeChunks_of_collects (format : ArchiveFormat) (collected : List UInt8 → format.State)
    (hwrite : ∀ data c d, format.write c (collected data) d = (.ok (collected (data ++ c)), d))
    (cs : List (List UInt8)) (data : List UInt8) (d : Disk) :
    format.writeChunks cs (collected data) d = (.ok (collected (data ++ cs.flatten)), d) := by
  induction cs generalizing data with
  | nil => rw [writeChunks, List.flatten_nil, List.append_nil]
  | cons c cs ih =>
    rw [writeChunks, hwrite]
    simp only
    rw [ih, List.append_assoc, List.flatten_cons]

end ArchiveFormat

namespace Tar.OpenArchive

variable {d : Disk} {h : FileHandle} {current : Option OpenEntry}

/-- An archive with nothing left to write for now. -/
def drained (h : FileHandle) (current : Option OpenEntry) : OpenArchive := ⟨h, ⟨current, []⟩⟩

theorem continued_ok (a : OpenArchive) (archiver : Archiver) (d : Disk) :
    a.continued (.ok archiver) d =
      (.ok (drained (d.write a.handle archiver.output).1 archiver.current),
        (d.write a.handle archiver.output).2) := rfl

/-- Nothing is written as long as the archiver puts nothing out. -/
theorem continued_of_noOutput (a : OpenArchive) :
    a.continued (.ok ⟨current, []⟩) d = (.ok (drained a.handle current), d) := by
  rw [continued_ok, Disk.write_nil]

end Tar.OpenArchive

namespace ArchiveFormat

open Tar.OpenArchive (drained continued_ok continued_of_noOutput)

/-- The archiver of the tar format never lets go of the handle it was given, and it writes through
nothing else. -/
theorem confined_tar : tar.Confined fun serial a => a.handle.serial = serial := by
  -- all calls but the first and the last write what the archiver puts out
  have hcontinued : ∀ (serial : Nat) (a : Tar.OpenArchive), a.handle.serial = serial →
      ∀ (r : Except Tar.ArchiveError Tar.Archiver) (d : Disk),
      Stays serial d (fun a => a.handle.serial = serial) (a.continued r d) := by
    rintro serial a rfl r d
    cases r with
    | error e => exact stays_here fun a ha => nomatch ha
    | ok archiver =>
      rw [continued_ok, Disk.write_eq]
      refine ⟨⟨_, rfl⟩, fun a ha => ?_⟩
      cases ha
      rfl
  exact {
    openArchive := fun h d => stays_here fun a ha => by cases ha; rfl
    openEntry := fun serial a ha path d => hcontinued serial a ha _ d
    write := fun serial a ha bytes d => hcontinued serial a ha _ d
    closeEntry := fun serial a ha d => hcontinued serial a ha _ d
    finish := by
      rintro serial a rfl d
      show Stays _ d _ (Tar.OpenArchive.finish a d)
      unfold Tar.OpenArchive.finish
      split
      · exact stays_here fun _ _ => trivial
      · rw [Disk.write_eq]
        exact ⟨⟨_, rfl⟩, fun _ _ => trivial⟩ }

/-- A tar archive of a file consists of the entry and the blocks that end it. The five calls are
followed one by one: the entry is collected while it is open, and put out when it is closed. -/
theorem archiveFile_tar {serial : Nat} {content bytes : List UInt8}
    (hempty : d.setBytes serial [] = d) (hfile : d.openFile file = .ok (.ok content))
    (hentry : Tar.entry ⟨entry⟩ content = .ok bytes) :
    tar.archiveFile ⟨serial, 0⟩ entry file d =
      (.ok (), d.setBytes serial (bytes ++ Tar.endBlocks)) := by
  -- nothing is written until the entry is closed
  have hopen : tar.openEntry entry ⟨⟨serial, 0⟩, .empty⟩ d =
      (.ok (drained ⟨serial, 0⟩ (some ⟨entry, []⟩)), d) := continued_of_noOutput _
  have hcopy : tar.copyContent (.ok content) (drained ⟨serial, 0⟩ (some ⟨entry, []⟩)) d =
      (.ok (drained ⟨serial, 0⟩ (some ⟨entry, content⟩)), d) := by
    have hall := writeChunks_of_collects tar
      (fun data => drained ⟨serial, 0⟩ (some ⟨entry, data⟩))
      (fun _ _ _ => continued_of_noOutput _) (pieces content) [] d
    rwa [pieces, flatten_chunks (by decide) (Nat.le_refl _)] at hall
  -- then the whole entry is, at the start of the empty file
  have hclose : tar.closeEntry (drained ⟨serial, 0⟩ (some ⟨entry, content⟩)) d =
      (.ok (drained ⟨serial, bytes.length⟩ none), d.setBytes serial bytes) := by
    have hdrain := d.write_setBytes serial [] bytes
    rw [hempty] at hdrain
    have hclosed : Tar.Archiver.closeEntry ⟨some ⟨entry, content⟩, []⟩ =
        (.ok (), ⟨none, bytes⟩) := by
      simp [Tar.Archiver.closeEntry, hentry]
    show Tar.OpenArchive.continued _ ((Tar.Archiver.closeEntry ⟨some ⟨entry, content⟩, []⟩).1.map
      fun _ => (Tar.Archiver.closeEntry ⟨some ⟨entry, content⟩, []⟩).2) d = _
    rw [hclosed, Except.map, continued_ok]
    exact congrArg (fun r => (Except.ok (drained r.1 none), r.2)) hdrain
  -- and the closing blocks follow it
  have hfinish : tar.finish (drained ⟨serial, bytes.length⟩ none) (d.setBytes serial bytes) =
      (.ok (), d.setBytes serial (bytes ++ Tar.endBlocks)) :=
    congrArg (fun r => (Except.ok (), r.2)) (d.write_setBytes serial bytes Tar.endBlocks)
  -- the calls in their order
  rw [archiveFile, hfile]
  show andThen (andThen (andThen (tar.openEntry entry ⟨⟨serial, 0⟩, .empty⟩ d)
    (tar.copyContent (.ok content))) tar.closeEntry) tar.finish = _
  rw [hopen]
  show andThen (andThen (tar.copyContent (.ok content) _ d) tar.closeEntry) tar.finish = _
  rw [hcopy]
  show andThen (tar.closeEntry _ d) tar.finish = _
  rw [hclose]
  exact hfinish

end ArchiveFormat

namespace PackageJob

variable {job : PackageJob} {compiler : Compiler} {format : ArchiveFormat} {s s₁ s₂ : Session}
  {file : ScopedFile} {h : FileHandle} {e : IoError} {d' : Disk}
  {owns : Nat → format.State → Prop}

/-! ## What is left of a package -/

theorem archiveCompiled_of_ok {d : Disk}
    (hcreate : ScopedFile.create job.archive s₁ = (.ok (file, h), s₂))
    (harchive : format.archiveFile h job.entry job.compiled s₂.disk = (.ok (), d)) :
    job.archiveCompiled format s₁ = (.ok file.path, s₂.withDisk d) := by
  simp only [archiveCompiled, hcreate, harchive]

theorem archiveCompiled_of_error {d : Disk}
    (hcreate : ScopedFile.create job.archive s₁ = (.ok (file, h), s₂))
    (harchive : format.archiveFile h job.entry job.compiled s₂.disk = (.error e, d)) :
    job.archiveCompiled format s₁ = (.error e, file.discard (s₂.withDisk d)) := by
  simp only [archiveCompiled, hcreate, harchive]

theorem run_of_compile (hcompile : compiler.compile job.source job.classpath s = (.ok 0, s₁)) :
    job.run compiler format s =
      ((job.archiveCompiled format s₁).1.mapError (.packagingFailed job.target.canonical),
        (job.archiveCompiled format s₁).2) := by
  rw [run, hcompile]
  rfl

/-- An archive that fails is taken back, with all that was made for it: the tree is the one before,
but for a file that was there already, which is gone. -/
theorem archiveCompiled_of_failsAt (hformat : format.Confined owns) (hs : s₁.disk.Sound)
    (hp : .parent ∉ job.archive.components)
    (hcreate : ScopedFile.create job.archive s₁ = (.ok (file, h), s₂))
    (hfails : format.FailsAt h job.entry job.compiled s₂.disk e d') :
    ∃ s₃, job.archiveCompiled format s₁ = (.error e, s₃) ∧
      s₃.disk.SameTree (s₁.disk.erase (s₁.disk.destination job.archive)) ∧
      s₃.disk.find? job.archive = none := by
  have harchive := ArchiveFormat.archiveFile_eq_error_iff.2 hfails
  -- whatever the format has done, it has done in the file of the archive
  obtain ⟨f, hconfined⟩ := hformat.archiveFile h job.entry job.compiled s₂.disk
  rw [harchive] at hconfined
  have htree : (file.discard (s₂.withDisk d')).disk.SameTree
      (s₁.disk.erase (s₁.disk.destination job.archive)) :=
    ScopedFile.sameTree_discard hs hp hcreate hconfined
  refine ⟨file.discard (s₂.withDisk d'), archiveCompiled_of_error hcreate harchive, htree, ?_⟩
  -- an archive has a name, and there the tree has been cleared
  obtain ⟨-, -, -, hwrites⟩ := ScopedFile.writes_of_create hs hcreate
  obtain ⟨l, name, hslot, -⟩ := hwrites.slot
  have hplace : s₁.disk.destination job.archive = l ++ [name] := by
    rw [← Disk.destination_of_slot hslot, Disk.destination_congr hwrites.workingDirectory]
  refine Option.eq_none_iff_forall_ne_some.2 fun x hfind => ?_
  obtain ⟨m, hlocate, hm⟩ := Disk.find?_eq_some_iff.1 hfind
  rw [← Disk.destination_of_locate hlocate, Disk.destination_congr htree.workingDirectory,
    htree.get?] at hm
  change (s₁.disk.erase _).get? (s₁.disk.destination job.archive) = some x at hm
  rw [Disk.get?_erase, hplace, if_neg (by simp), if_pos rfl] at hm
  cases hm

/-- An archive that succeeds is the only file that is changed. What it holds depends on the format. -/
theorem archiveCompiled_of_not_failsAt (hformat : format.Confined owns) (hs : s₁.disk.Sound)
    (hcreate : ScopedFile.create job.archive s₁ = (.ok (file, h), s₂))
    (hnever : ∀ e d', ¬format.FailsAt h job.entry job.compiled s₂.disk e d') :
    ∃ s₃ bytes, job.archiveCompiled format s₁ = (.ok job.archive, s₃) ∧
      s₁.disk.Writes job.archive h.serial bytes s₃.disk := by
  obtain ⟨hpath, -, -, hwrites⟩ := ScopedFile.writes_of_create hs hcreate
  obtain ⟨f, hconfined⟩ := hformat.archiveFile h job.entry job.compiled s₂.disk
  cases harchive : format.archiveFile h job.entry job.compiled s₂.disk with
  | mk result d =>
    cases result with
    | error e => exact absurd (ArchiveFormat.archiveFile_eq_error_iff.1 harchive) (hnever e d)
    | ok _ =>
      -- the file was empty, so what the format made of it is its content
      have hset : d = s₂.disk.setBytes h.serial (f []) := by
        rw [harchive, ← Disk.setBytes_of_get? hwrites.sound hwrites.file, Disk.setBytes,
          Disk.mapFile_mapFile] at hconfined
        exact hconfined
      refine ⟨s₂.withDisk d, f [], ?_, ?_⟩
      · rw [archiveCompiled_of_ok hcreate harchive, hpath]
      · rw [Session.disk_withDisk, hset]
        exact hwrites.setBytes _

/-- A tar archive holds the compiled unit, under the name of the entry. -/
theorem archiveCompiled_tar {content : List UInt8} (hs : s₁.disk.Sound)
    (hcreate : ScopedFile.create job.archive s₁ = (.ok (file, h), s₂))
    (hcontent : s₁.disk.openFile job.compiled = .ok (.ok content))
    (hne : s₁.disk.destination job.compiled ≠ s₁.disk.destination job.archive)
    (hentry : Tar.IsPlainName job.entry)
    (hname : (Text.utf8 job.entry).length + 1 < Tar.sizeLimit)
    (hsize : content.length < Tar.sizeLimit) :
    ∃ s₃ bytes, job.archiveCompiled .tar s₁ = (.ok job.archive, s₃) ∧
      s₁.disk.Writes job.archive h.serial bytes s₃.disk ∧
      Tar.read none bytes = some [(Text.utf8 job.entry, content)] := by
  obtain ⟨hpath, hposition, -, hwrites⟩ := ScopedFile.writes_of_create hs hcreate
  obtain ⟨serial, position⟩ := h
  obtain rfl : position = 0 := hposition
  -- the compiled unit is still what it was when the archive has been created
  have hcontent₂ : s₂.disk.openFile job.compiled = .ok (.ok content) := by
    obtain ⟨n, hfind⟩ := Disk.openFile_eq_ok_iff.1 hcontent
    obtain ⟨l, hlocate, hl⟩ := Disk.find?_eq_some_iff.1 hfind
    rw [← Disk.destination_of_locate hlocate] at hl
    exact Disk.openFile_eq_ok_iff.2 ⟨n, Disk.find?_mono hwrites.workingDirectory hwrites.kept hfind
      ((hwrites.others _ n content hne).2 hl)⟩
  obtain ⟨bytes, hbytes, hread⟩ := Tar.exists_entry hentry hname hsize
  have harchive := ArchiveFormat.archiveFile_tar
    (Disk.setBytes_of_get? hwrites.sound hwrites.file) hcontent₂ hbytes
  refine ⟨s₂.withDisk (s₂.disk.setBytes serial (bytes ++ Tar.endBlocks)), bytes ++ Tar.endBlocks,
    ?_, hwrites.setBytes _, ?_⟩
  · rw [archiveCompiled_of_ok hcreate harchive, hpath]
  · rw [hread, ← List.append_nil Tar.endBlocks, Tar.read_endBlocks]
    rfl

/-- What is left of a package. If the compiler could not be run, or failed, everything is as it left
it. Once the archive has been created, the failure of any call is that of the package, and the
archive is taken back: what is left is the tree of the compiler, without a file there. If no call
fails, only the archive is written. In tar format, a compiled unit that can be read, and is not where
the archive goes, makes an archive of one entry, whose data are the bytes of the unit. -/
theorem run_outcome (job : PackageJob) (compiler : Compiler) (s : Session)
    (hformat : format.Confined owns) (hs : s₁.disk.Sound)
    (hp : .parent ∉ job.archive.components) :
    (∀ e, compiler.compile job.source job.classpath s = (.error e, s₁) →
      job.run compiler format s =
        (.error (.compilationFailed job.target.canonical (.notRun e)), s₁)) ∧
    (∀ code, compiler.compile job.source job.classpath s = (.ok code, s₁) → code ≠ 0 →
      job.run compiler format s =
        (.error (.compilationFailed job.target.canonical (.exitStatus code)), s₁)) ∧
    (compiler.compile job.source job.classpath s = (.ok 0, s₁) → ∀ file h s₂,
      ScopedFile.create job.archive s₁ = (.ok (file, h), s₂) →
      (∀ e d', format.FailsAt h job.entry job.compiled s₂.disk e d' →
        ∃ s₃, job.run compiler format s = (.error (.packagingFailed job.target.canonical e), s₃) ∧
          s₃.disk.SameTree (s₁.disk.erase (s₁.disk.destination job.archive)) ∧
          s₃.disk.find? job.archive = none) ∧
      ((∀ e d', ¬format.FailsAt h job.entry job.compiled s₂.disk e d') →
        ∃ s₃ bytes, job.run compiler format s = (.ok job.archive, s₃) ∧
          s₁.disk.Writes job.archive h.serial bytes s₃.disk) ∧
      (∀ content, s₁.disk.openFile job.compiled = .ok (.ok content) →
        s₁.disk.destination job.compiled ≠ s₁.disk.destination job.archive →
        Tar.IsPlainName job.entry → (Text.utf8 job.entry).length + 1 < Tar.sizeLimit →
        content.length < Tar.sizeLimit →
        ∃ s₃ bytes, job.run compiler .tar s = (.ok job.archive, s₃) ∧
          s₁.disk.Writes job.archive h.serial bytes s₃.disk ∧
          s₃.disk.readBytes job.archive = .ok bytes ∧
          Tar.read none bytes = some [(Text.utf8 job.entry, content)])) := by
  refine ⟨fun e hcompile => ?_, fun code hcompile hcode => ?_, fun hcompile file h s₂ hcreate =>
    ⟨fun e d' hfails => ?_, fun hnever => ?_, fun content hcontent hne hentry hname hsize => ?_⟩⟩
  · -- the compiler could not be run
    rw [run, hcompile]
  · -- it failed
    rw [run, hcompile]
    simp only [if_pos hcode]
  · -- a call of the format fails
    obtain ⟨s₃, harchive, hleft⟩ := archiveCompiled_of_failsAt hformat hs hp hcreate hfails
    refine ⟨s₃, ?_, hleft⟩
    rw [run_of_compile hcompile, harchive]
    rfl
  · -- no call does
    obtain ⟨s₃, bytes, harchive, hwrites⟩ :=
      archiveCompiled_of_not_failsAt hformat hs hcreate hnever
    refine ⟨s₃, bytes, ?_, hwrites⟩
    rw [run_of_compile hcompile, harchive]
    rfl
  · -- in tar format none can, if the compiled unit can be read
    obtain ⟨s₃, bytes, harchive, hwrites, hread⟩ :=
      archiveCompiled_tar hs hcreate hcontent hne hentry hname hsize
    refine ⟨s₃, bytes, ?_, hwrites, hwrites.hasFile.readBytes, hread⟩
    rw [run_of_compile hcompile, harchive]
    rfl

end PackageJob

/-! ## A unit that is there, and one that is not -/

namespace Greeting

/-- The job of packaging `GreeterImpl` into a directory that is not there. -/
def packageJob : PackageJob where
  target := ⟨"Greeter"⟩
  source := ⟨"out/GreeterImpl.java"⟩
  compiled := ⟨"out/GreeterImpl.class"⟩
  classpath := []
  entry := "greeting/GreeterImpl.class"
  archive := ⟨"dist/greeter.jar"⟩

/-- A compiler that has nothing to do. -/
def compiler : Compiler := ⟨fun _ _ s => (.ok 0, s)⟩

/-- A session on a disk with the compiled unit. -/
def compiled : Session where
  disk :=
    { entries := [(["out"], .directory),
        (["out", "GreeterImpl.class"], .file 0 [0xCA, 0xFE, 0xBA, 0xBE])]
      nextSerial := 1
      workingDirectory := [] }

theorem sound_compiled : compiled.disk.Sound :=
  Disk.sound_of_serials (by decide) (by decide) (by decide) (by decide) (by decide)

/-- The archive that is being written. -/
def archive : ScopedFile := ⟨⟨"dist/greeter.jar"⟩, [⟨"dist"⟩]⟩

theorem create_archive :
    (ScopedFile.create packageJob.archive compiled).1 = .ok (archive, ⟨1, 0⟩) := by decide

theorem isPlainName_entry : Tar.IsPlainName packageJob.entry := by
  have hpieces : Text.pieces '/' packageJob.entry.toList =
      ["greeting".toList, "GreeterImpl.class".toList] := by decide
  intro q hq
  rw [hpieces, List.mem_cons, List.mem_singleton] at hq
  rcases hq with rfl | rfl <;> exact ⟨by decide, by decide, by decide, by decide⟩

theorem run_outcome_of_greeter :
    (compiled.disk.Sound ∧ .parent ∉ packageJob.archive.components) ∧
    (∃ s₃ bytes, packageJob.run compiler .tar compiled = (.ok ⟨"dist/greeter.jar"⟩, s₃) ∧
      s₃.disk.readBytes ⟨"dist/greeter.jar"⟩ = .ok bytes ∧
      Tar.read none bytes =
        some [(Text.utf8 "greeting/GreeterImpl.class", [0xCA, 0xFE, 0xBA, 0xBE])]) ∧
    ∃ s₃, { packageJob with compiled := ⟨"out/Other.class"⟩ }.run compiler .tar compiled =
        (.error (.packagingFailed "Greeter" (.os .notFound)), s₃) ∧
      s₃.disk.entries = compiled.disk.entries := by
  have hcreate : ScopedFile.create packageJob.archive compiled =
      (.ok (archive, ⟨1, 0⟩), (ScopedFile.create packageJob.archive compiled).2) :=
    Prod.ext create_archive rfl
  have hparent : .parent ∉ packageJob.archive.components := by decide
  refine ⟨⟨sound_compiled, hparent⟩, ?_, ?_⟩
  · -- the compiled unit is there
    obtain ⟨-, -, houtcome⟩ := packageJob.run_outcome compiler compiled
      ArchiveFormat.confined_tar sound_compiled hparent
    obtain ⟨-, -, htar⟩ := houtcome rfl archive ⟨1, 0⟩ _ hcreate
    obtain ⟨s₃, bytes, hrun, -, hread⟩ := htar [0xCA, 0xFE, 0xBA, 0xBE] (by decide) (by decide)
      isPlainName_entry (by decide) (by decide)
    exact ⟨s₃, bytes, hrun, hread⟩
  · -- it is looked for under another name
    obtain ⟨-, -, houtcome⟩ := PackageJob.run_outcome
      { packageJob with compiled := ⟨"out/Other.class"⟩ } compiler compiled
      ArchiveFormat.confined_tar sound_compiled hparent
    obtain ⟨hfails, -⟩ := houtcome rfl archive ⟨1, 0⟩ _ hcreate
    obtain ⟨s₃, hrun, htree, -⟩ := hfails (.os .notFound) _ (.missing (by decide))
    exact ⟨s₃, hrun, htree.entries.trans (by decide)⟩

end Greeting

end StubGen
