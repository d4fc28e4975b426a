import StubGen.Proofs.Disk.Pruning

/-!
# From the creation of a file to its end

Between the creation of a file and its end others may do anything to the tree. A file that has been
kept stays for good. A file that is dropped goes, if there still is a file at its place, and after
it go the directories that were made for it, from the inside out, as long as they are empty. What
others have put into these directories stays, with everything that holds it; and if others have left
alone what was made, all of it goes.

Main results:

* `takesBack_discard` — what giving up a file takes back of any tree;
* `Guard.Stands.run`, `Guard.armed_run` — what a file and its session are like after any events;
* `drop_takesBack` — what dropping and keeping do after any events.
-/

namespace StubGen

namespace Disk

/-- The disk `e` is left of the disk `t` by dropping a file that was created at a place, with
directories made for it, on the disk `d`, which gave the disk `d'`. -/
structure TakesBack (d d' : Disk) (place : Location) (made : List Location) (t e : Disk) :
    Prop where
  /-- No directory was there before. -/
  absent : ∀ l ∈ made, d.get? l = none
  /-- The file goes, and then the directories, each empty by then, up to the first that is not. -/
  prunes : ∃ gone rest, made = gone ++ rest ∧ Prunes (t.withoutFile place) gone e ∧
    ∀ l ∈ rest.head?, ¬e.IsEmptyDirectory l
  /-- Nothing else goes, and nothing changes. -/
  others : ∀ l, e.get? l = t.get? l ∨ e.get? l = none ∧
    (l = place ∧ (∃ serial bytes, t.get? l = some (.file serial bytes)) ∨
      l ∈ made ∧ t.get? l = some .directory)
  /-- If nothing was at the place and nobody has changed anything else in the directories, the tree
  is what it was; where others have changed something, it is what they have made of it. -/
  restores : d.get? place = none →
    (∀ l, Below made l → t.get? l = d'.get? l ∨ l = place ∧ t.get? l ≠ some .directory) →
      (∀ l, Owns place made t l → e.get? l = d.get? l) ∧
      (∀ l, ¬Owns place made t l → e.get? l = t.get? l) ∧
      ((∀ l, ¬Owns place made t l → t.get? l = d'.get? l) → ∀ l, e.get? l = d.get? l)

end Disk

namespace ScopedFile

variable {s s' t : Session} {f : ScopedFile} {h : FileHandle} {path : FilePath}

/-- A path that leads to a name removes the file that is there. -/
theorem disk_removeIfPresent_of_named (ht : t.disk.Sound)
    (hpath : Disk.Named t.disk.workingDirectory path) (hslash : path.endsWithSlash = false) :
    (removeIfPresent path t).disk = t.disk.withoutFile (t.disk.destination path) := by
  rcases t.disk.withoutFile_cases (t.disk.destination path) with
    ⟨⟨serial, bytes, hx⟩, hwithout⟩ | ⟨hnot, hwithout⟩
  · -- a file is there, and its name can be followed
    obtain ⟨l, name, hplace, hsize, hslot⟩ := hpath.exists_slot ht hx
    rw [hslash] at hslot
    rw [hwithout, hplace]
    rw [hplace] at hx
    rw [removeIfPresent, Disk.removeFile_of_slot hslot hsize hx]
    rfl
  · -- no file is there, so the removal does nothing or fails
    rw [hwithout, removeIfPresent]
    split
    · rename_i d hremove
      obtain ⟨serial, bytes, hx, -⟩ := Disk.removeFile_eq_ok hremove
      exact absurd hx (hnot serial bytes)
    · rfl
    · rfl

/-- The path of a file that was created, and those of the directories made for it, lead to names. -/
theorem named_of_create (hs : s.disk.Sound) (hp : .parent ∉ path.components)
    (hcreate : create path s = (.ok (f, h), s')) :
    Disk.Named s.disk.workingDirectory path ∧ path.endsWithSlash = false ∧
      ∀ p ∈ f.madeDirectories, Disk.Named s.disk.workingDirectory p := by
  obtain ⟨rfl, k, hmakes, hfile⟩ := makes_of_create hs hp hcreate
  obtain ⟨l, name, hslot, hsize, -⟩ := Disk.createFile_eq_ok hfile
  obtain ⟨-, hslash, -⟩ := Disk.slot_eq_ok_iff.1 hslot
  refine ⟨?_, hslash, hmakes.named fun p hmem => ?_⟩
  · rw [← hmakes.workingDirectory]
    exact .of_slot (FilePath.not_mem_segments_of_noParents hp) hslot hsize
  · refine FilePath.not_mem_segments_of_noParents (FilePath.noParents_of_mem_ancestors hp ?_)
    exact (List.takeWhile_prefix _).subset hmem

/-- Where nothing was, the file is new. -/
theorem adds_of_create (hs : s.disk.Sound) (hp : .parent ∉ path.components)
    (hcreate : create path s = (.ok (f, h), s'))
    (habsent : s.disk.get? (s.disk.destination path) = none) :
    ∃ k, s.disk.Makes f.madeDirectories k ∧
      k.Adds (s.disk.destination path) (.file h.serial []) s'.disk := by
  obtain ⟨-, k, hmakes, hfile⟩ := makes_of_create hs hp hcreate
  obtain ⟨l, name, hslot, -, -, hcases⟩ := Disk.createFile_eq_ok hfile
  rw [← Disk.destination_of_slot hslot, Disk.destination_congr hmakes.workingDirectory] at hcases
  rcases hcases with ⟨bytes, hx, -⟩ | ⟨-, -, hadds⟩
  · rw [hmakes.get?_file hx] at habsent
    cases habsent
  · exact ⟨k, hmakes, hadds⟩

/-- The file goes first, and then the directories. -/
theorem disk_discard_of_create (hs : s.disk.Sound) (hp : .parent ∉ path.components)
    (hcreate : create path s = (.ok (f, h), s')) (ht : t.disk.Sound)
    (hwd : t.disk.workingDirectory = s.disk.workingDirectory) :
    (f.discard t).disk = removeDirectories f.madeDirectories
      (t.disk.withoutFile (s.disk.destination path)) := by
  obtain ⟨hpath, hslash, -⟩ := named_of_create hs hp hcreate
  obtain ⟨rfl, -⟩ := makes_of_create hs hp hcreate
  rw [← Disk.destination_congr hwd,
    ← disk_removeIfPresent_of_named ht (hwd ▸ hpath) hslash]
  rfl

/-- Whatever has become of the tree, giving up a file takes back no more than was created. If nobody
has touched what was created, it takes back all of it; and if nobody has touched anything, the tree
is the one before. -/
theorem takesBack_discard (hs : s.disk.Sound) (hp : .parent ∉ path.components)
    (hcreate : create path s = (.ok (f, h), s')) (ht : t.disk.Sound)
    (hwd : t.disk.workingDirectory = s.disk.workingDirectory) :
    Disk.TakesBack s.disk s'.disk (s.disk.destination path)
      (f.madeDirectories.map s.disk.destination) t.disk (f.discard t).disk := by
  obtain ⟨-, -, hdirectories⟩ := named_of_create hs hp hcreate
  obtain ⟨-, k, hmakes, -⟩ := makes_of_create hs hp hcreate
  have hwd' : (t.disk.withoutFile (s.disk.destination path)).workingDirectory =
      s.disk.workingDirectory := (Disk.workingDirectory_withoutFile _ _).trans hwd
  -- the file goes first; from what is left, directories are removed as far as they are empty
  obtain ⟨gone, rest, hmap, hprunes, hstop⟩ := Disk.exists_prunes_removeDirectories
    (ht.withoutFile (s.disk.destination path)) fun p hmem => hwd' ▸ hdirectories p hmem
  rw [funext (Disk.destination_congr hwd')] at hmap
  rw [← disk_discard_of_create hs hp hcreate ht hwd] at hprunes hstop
  have hgone : gone ⊆ f.madeDirectories.map s.disk.destination :=
    fun l hl => hmap ▸ List.mem_append_left _ hl
  have hroot : [] ∉ gone := fun hnil => hmakes.nil_not_mem (hgone hnil)
  refine ⟨hmakes.absent, ⟨gone, rest, hmap, hprunes, hstop⟩, hprunes.get?_eq_or hroot hgone,
    fun habsent hsame => ?_⟩
  -- with the created things as they were, no directory is kept
  obtain ⟨k, hmakes, hadds⟩ := adds_of_create hs hp hcreate habsent
  obtain ⟨howned, hothers⟩ := hmakes.get?_of_prunes hs hadds ht hsame hmap hprunes hstop
  refine ⟨howned, hothers, fun hkept l => ?_⟩
  -- elsewhere nothing has changed since the creation, which has not changed anything there either
  by_cases hl : Disk.Owns (s.disk.destination path)
      (f.madeDirectories.map s.disk.destination) t.disk l
  · exact howned l hl
  · rw [hothers l hl]
    exact hmakes.get?_of_not_owns hadds hl (hkept l hl)

/-! ## From creation to the end -/

/-- What can happen once a file has been created. -/
inductive Event
  /-- Others, or those who write the file, leave the disk as given. -/
  | others (d : Disk)
  | keep
  | drop

/-- Others leave a tree, and the working directory stays where it is. -/
def Event.IsOrdinary (w : Location) : Event → Prop
  | others d => d.Sound ∧ d.workingDirectory = w
  | keep | drop => True

/-- A file that was created, in a session. -/
structure Guard where
  file : ScopedFile
  /-- Whether the file has neither been kept nor dropped. -/
  armed : Bool
  session : Session

namespace Guard

variable {g : Guard} {es : List Event} {x : Event} {w : Location}

/-- What an event does; a file is dropped only once, and not at all if it was kept. -/
def step (g : Guard) : Event → Guard
  | .others d => { g with session := g.session.withDisk d }
  | .keep => { g with armed := false }
  | .drop => if g.armed then ⟨g.file, false, g.file.discard g.session⟩ else g

/-- What events do one after the other. -/
def run (g : Guard) (es : List Event) : Guard := es.foldl step g

/-- The file is the given one, and what is around it is a tree. -/
structure Stands (f : ScopedFile) (w : Location) (g : Guard) : Prop where
  file : g.file = f
  sound : g.session.disk.Sound
  workingDirectory : g.session.disk.workingDirectory = w

theorem Stands.step (hg : g.Stands f w) (hx : x.IsOrdinary w) : (g.step x).Stands f w := by
  cases x with
  | others d => exact ⟨hg.file, hx.1, hx.2⟩
  | keep => exact ⟨hg.file, hg.sound, hg.workingDirectory⟩
  | drop =>
    rw [Guard.step]
    split
    · have hspares := spares_discard hg.sound g.file
      exact ⟨hg.file, hspares.sound, hspares.workingDirectory.trans hg.workingDirectory⟩
    · exact hg

theorem Stands.run (hg : g.Stands f w) (hes : ∀ x ∈ es, x.IsOrdinary w) :
    (g.run es).Stands f w := by
  induction es generalizing g with
  | nil => exact hg
  | cons x es ih =>
    exact ih (hg.step (hes x List.mem_cons_self)) fun y hy => hes y (List.mem_cons_of_mem _ hy)

theorem armed_step : (g.step x).armed = true ↔ g.armed = true ∧ x ≠ .keep ∧ x ≠ .drop := by
  cases x with
  | others d => simp [step]
  | keep => simp [step]
  | drop =>
    rw [step]
    split <;> simp_all

/-- A file can be dropped until it has been kept or dropped. -/
theorem armed_run :
    (g.run es).armed = true ↔ g.armed = true ∧ .keep ∉ es ∧ .drop ∉ es := by
  induction es generalizing g with
  | nil => simp [run]
  | cons x es ih =>
    have hcons : g.run (x :: es) = (g.step x).run es := rfl
    rw [hcons, ih, armed_step, List.mem_cons, List.mem_cons, not_or, not_or, and_assoc]
    constructor
    · rintro ⟨harmed, ⟨hkeep, hdrop⟩, hes, hes'⟩
      exact ⟨harmed, ⟨hkeep.symm, hes⟩, hdrop.symm, hes'⟩
    · rintro ⟨harmed, ⟨hkeep, hes⟩, hdrop, hes'⟩
      exact ⟨harmed, ⟨Ne.symm hkeep, Ne.symm hdrop⟩, hes, hes'⟩

end Guard

/-- From the creation of a file to its end, whatever others do in between: keeping it changes
nothing, and neither does dropping it once it has been kept or dropped. Dropping it before takes
back what was created, as far as that is still there. -/
theorem drop_takesBack (hs : s.disk.Sound) (hp : .parent ∉ path.components)
    (hcreate : create path s = (.ok (f, h), s')) {es : List Event}
    (hes : ∀ x ∈ es, x.IsOrdinary s.disk.workingDirectory) :
    let g := Guard.run ⟨f, true, s'⟩ es
    (g.step .keep).session = g.session ∧
      (.keep ∈ es ∨ .drop ∈ es → (g.step .drop).session = g.session) ∧
      (.keep ∉ es → .drop ∉ es → Disk.TakesBack s.disk s'.disk (s.disk.destination path)
        (f.madeDirectories.map s.disk.destination) g.session.disk
        (g.step .drop).session.disk) := by
  intro g
  -- the guard goes with its file through all that happens
  have hwrites := (writes_of_create hs hcreate).2.2.2
  have hstart : Guard.Stands f s.disk.workingDirectory ⟨f, true, s'⟩ :=
    ⟨rfl, hwrites.sound, hwrites.workingDirectory⟩
  have hg : g.Stands f s.disk.workingDirectory := hstart.run hes
  refine ⟨rfl, fun hended => ?_, fun hkeep hdrop => ?_⟩
  · -- kept or dropped before, it is no longer armed
    have hnot : ¬g.armed = true := fun harmed => by
      obtain ⟨-, hkeep, hdrop⟩ := Guard.armed_run.1 harmed
      exact hended.elim hkeep hdrop
    rw [Guard.step, if_neg hnot]
  · -- otherwise it is, and the drop discards the file
    have harmed : g.armed = true := Guard.armed_run.2 ⟨rfl, hkeep, hdrop⟩
    rw [Guard.step, if_pos harmed, hg.file]
    exact takesBack_discard hs hp hcreate hg.sound hg.workingDirectory

end ScopedFile

/-! ## A directory that others have come to use -/

namespace Sharing

open ScopedFile (Event Guard)

def session : Session := { disk := .empty }

def path : FilePath := ⟨"a/b/f"⟩

def file : ScopedFile := ⟨path, [⟨"a/b"⟩, ⟨"a"⟩]⟩

/-- The disk with what was created and with a file of others beside it. -/
def shared : Disk :=
  ⟨[(["a"], .directory), (["a", "b"], .directory), (["a", "b", "f"], .file 0 [7]),
    (["a", "n"], .file 1 [])], 2, []⟩

/-- Others put a file beside the directory that was made for the file. -/
theorem drop_takesBack_of_shared :
    let s' := (ScopedFile.create path session).2
    let es := [Event.others shared]
    let g := Guard.run ⟨file, true, s'⟩ es
    (session.disk.Sound ∧ .parent ∉ path.components ∧
      ScopedFile.create path session = (.ok (file, ⟨0, 0⟩), s') ∧
      ∀ x ∈ es, x.IsOrdinary session.disk.workingDirectory) ∧
    (g.step .keep).session = g.session ∧
      (.keep ∈ es ∨ .drop ∈ es → (g.step .drop).session = g.session) ∧
      (.keep ∉ es → .drop ∉ es → Disk.TakesBack session.disk s'.disk
        (session.disk.destination path) (file.madeDirectories.map session.disk.destination)
        g.session.disk (g.step .drop).session.disk) := by
  intro s' es g
  have hsound : session.disk.Sound := Disk.sound_empty
  have hparents : .parent ∉ path.components := by decide
  have hcreate : ScopedFile.create path session = (.ok (file, ⟨0, 0⟩), s') :=
    Prod.ext (by decide +kernel) rfl
  have hshared : shared.Sound :=
    Disk.sound_of_serials (by decide) (by decide) (by decide) (by decide) (by decide)
  have hes : ∀ x ∈ es, x.IsOrdinary session.disk.workingDirectory := by
    intro x hx
    rw [List.mem_singleton.1 hx]
    exact ⟨hshared, rfl⟩
  exact ⟨⟨hsound, hparents, hcreate, hes⟩, ScopedFile.drop_takesBack hsound hparents hcreate hes⟩

/-- The file and its directory go, and the directory that others use stays. -/
example :
    (file.discard (session.withDisk shared)).disk.entries =
      [(["a"], .directory), (["a", "n"], .file 1 [])] := by
  decide +kernel

end Sharing

end StubGen
