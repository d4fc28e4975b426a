import StubGen.Generator
import StubGen.Proofs.Render
import StubGen.Proofs.ScopedFile

/-!
# Implementations that cannot be written

Whether a type can be implemented, and whether it has a constructor to forward to, is known before
the disk is touched. That a member cannot be named shows only at the piece that names it, when the
pieces before it are written. The unit is then discarded, and the tree is what it was.

Main results:

* `OutputUnit.holds_writeAll`, `OutputUnit.sameTree_discard` — a unit under way is a file with the
  directories made for it, and is discarded as such;
* `Generator.implement_leaves_no_trace` — what a fault leaves behind;
* `Leak.implement_leaves_directory` — a path with `..` in it, for which a directory stays.
-/

namespace StubGen

/-! ## Units under way -/

namespace BufferedFile

variable {d e : Disk} {f : ScopedFile} {b : BufferedFile} {bytes : List UInt8}

theorem holds_flush (h : f.Holds d b.handle.serial bytes e) :
    ∃ bytes', f.Holds d (b.flush e).1.handle.serial bytes' (b.flush e).2 :=
  ⟨_, h.write b.pending⟩

/-- Writing to a buffer writes to its own file and to nothing else, at once or later. -/
theorem holds_write (h : f.Holds d b.handle.serial bytes e) (new : List UInt8) :
    ∃ bytes', f.Holds d (b.write new e).1.handle.serial bytes' (b.write new e).2 := by
  -- a full buffer goes to the file before the new bytes are looked at
  have hflushed : ∃ bytes',
      let r := if b.pending.length + new.length > capacity then b.flush e else (b, e)
      f.Holds d r.1.handle.serial bytes' r.2 := by
    split
    · exact holds_flush h
    · exact ⟨bytes, h⟩
  obtain ⟨bytes', h'⟩ := hflushed
  unfold write
  generalize (if b.pending.length + new.length > capacity then b.flush e else (b, e)) = r at h' ⊢
  -- what does not fit an empty buffer goes straight to the file, and anything else waits
  by_cases hfull : new.length ≥ capacity
  · simp only [hfull, if_true]
    exact ⟨_, h'.write new⟩
  · simp only [hfull, if_false]
    exact ⟨bytes', h'⟩

end BufferedFile

namespace OutputUnit

/-- The session shows the tree of `d` with the file of a unit and the directories made for it. -/
def Holds (d : Disk) (u : OutputUnit) (s : Session) : Prop :=
  ∃ bytes, u.file.Holds d u.buffer.handle.serial bytes s.disk

variable {d : Disk} {u : OutputUnit} {s : Session}

theorem write_eq (u : OutputUnit) (text : String) (s : Session) :
    u.write text s =
      let r := u.buffer.write (encode u.escapeUnicode text) s.disk
      ({ u with buffer := r.1 }, s.withDisk r.2) := by
  rw [write]

theorem writeAll_cons (u : OutputUnit) (text : String) (texts : List String) (s : Session) :
    u.writeAll (text :: texts) s = (u.write text s).1.writeAll texts (u.write text s).2 := by
  rw [writeAll, List.foldl_cons, writeAll]

theorem holds_write (h : u.Holds d s) (text : String) :
    (u.write text s).1.Holds d (u.write text s).2 := by
  obtain ⟨bytes, h⟩ := h
  rw [write_eq]
  exact BufferedFile.holds_write h _

theorem holds_writeAll (h : u.Holds d s) (texts : List String) :
    (u.writeAll texts s).1.Holds d (u.writeAll texts s).2 := by
  induction texts generalizing u s with
  | nil => exact h
  | cons text texts ih =>
    rw [writeAll_cons]
    exact ih (holds_write h text)

/-- Discarding a unit gives the tree back. -/
theorem sameTree_discard (hd : d.Sound) (h : u.Holds d s) : (u.discard s).disk.SameTree d := by
  obtain ⟨bytes, h⟩ := h
  obtain ⟨bytes', h'⟩ := BufferedFile.holds_flush h
  exact h'.discard hd

theorem holds_create (hd : s.disk.Sound) {path : FilePath} (hp : .parent ∉ path.components)
    (hmissing : s.disk.find? path = none) {escapeUnicode : Bool} {s' : Session}
    (h : create path escapeUnicode s = (.ok u, s')) : u.Holds s.disk s' := by
  unfold create at h
  split at h
  · cases h
  · rename_i f handle s'' hfile
    cases h
    exact ⟨[], (ScopedFile.holds_of_create hd hp hmissing hfile).2.2⟩

end OutputUnit

/-! ## Implementing a type -/

namespace Generator

variable (g : Generator)

theorem disk_warnMalformed (d : Declaration) (s : Session) :
    (g.warnMalformed d s).disk = s.disk := by
  rw [warnMalformed]
  generalize Closure.malformed g.registry d = ws
  induction ws generalizing s with
  | nil => rfl
  | cons w ws ih => exact (ih _).trans rfl

/-- Members are at fault only where a class has no constructor to forward to; methods can always be
resolved. -/
theorem members_eq_error {d : Declaration} {e : SynthesisFault} (h : g.members d = .error e) :
    e = .noUsableConstructor := by
  have hconstructors : Members.resolveConstructors d = .error e := by
    rw [members, Members.resolve] at h
    cases hc : Members.resolveConstructors d with
    | error e' =>
      rw [hc] at h
      exact congrArg _ (Except.error.inj h)
    | ok cs =>
      rw [hc] at h
      cases h
  unfold Members.resolveConstructors at hconstructors
  split at hconstructors
  · cases hconstructors
  · split at hconstructors
    · exact (Except.error.inj hconstructors).symm
    · cases hconstructors

/-- The writing of a unit fails with the disk, or with a piece after those before it were written;
the unit is then discarded. -/
theorem writeUnit_eq_error {path : FilePath} {pieces : List (Except SynthesisFault String)}
    {s s' : Session} {e : SynthesisFault} (h : g.writeUnit path pieces s = (.error e, s')) :
    (∃ e', e = .io e') ∨ ∃ u s₁, OutputUnit.create path g.settings.escapeUnicode s = (.ok u, s₁) ∧
      (Stub.takePieces pieces).2 = some e ∧
      s' = (u.writeAll (Stub.takePieces pieces).1 s₁).1.discard
        (u.writeAll (Stub.takePieces pieces).1 s₁).2 := by
  unfold writeUnit at h
  split at h
  · rename_i e' s₁ hcreate
    cases h
    exact .inl ⟨e', rfl⟩
  · rename_i u s₁ hcreate
    -- the unit was created, so the fault is that of a piece
    simp only at h
    split at h
    · rename_i e' hfault
      cases h
      exact .inr ⟨u, s₁, hcreate, hfault, rfl⟩
    · cases h

/-- Only the pieces before the first fault are written. -/
theorem writeUnit_congr {path : FilePath} {ps qs : List (Except SynthesisFault String)}
    {s : Session} (h : Stub.takePieces ps = Stub.takePieces qs) :
    g.writeUnit path ps s = g.writeUnit path qs s := by
  unfold writeUnit
  rw [h]

/-- The faults of a type that is implemented: no constructor, before the disk is touched; the disk
itself; or a member that cannot be named, of which no trace is left. -/
theorem writeStub_eq_error {d : Declaration} {root : FilePath} {s s' : Session}
    {e : SynthesisFault} (h : g.writeStub d root s = (.error e, s')) :
    e = .noUsableConstructor ∧ s'.disk = s.disk ∨ (∃ e', e = .io e') ∨
      (∃ n, e = .inaccessibleMember n) ∧
        (s.disk.Sound → .parent ∉ (g.sourcePath d root).components →
          s.disk.find? (g.sourcePath d root) = none → s'.disk.SameTree s.disk) := by
  unfold writeStub at h
  simp only at h
  split at h
  · rename_i e' hmembers
    cases h
    exact .inl ⟨g.members_eq_error hmembers, g.disk_warnMalformed d s⟩
  · rename_i ms hmembers
    rcases g.writeUnit_eq_error h with hio | ⟨u, s₁, hcreate, hfault, rfl⟩
    · exact .inr (.inl hio)
    refine .inr (.inr ⟨Stub.exists_inaccessible_of_takePieces hfault, ?_⟩)
    intro hs hp hmissing
    -- warnings leave the disk alone, so the unit is created on the disk of `s`
    rw [← g.disk_warnMalformed d s] at hs hmissing ⊢
    have hholds := OutputUnit.holds_create hs hp hmissing hcreate
    exact OutputUnit.sameTree_discard hs (OutputUnit.holds_writeAll hholds _)

theorem implement_of_target {t : TypeRef} {d : Declaration} (h : g.target t = .ok d)
    (root : FilePath) (s : Session) :
    g.implement t root s = ((g.writeStub d root s).1.mapError (·.toFailure d.name),
      (g.writeStub d root s).2) := by
  rw [implement, h]

/-- Where no supertype is malformed, implementing a type is writing its pieces. -/
theorem implement_of_takePieces {t : TypeRef} {d : Declaration} {ms : Members}
    (pieces : List (Except SynthesisFault String)) (htarget : g.target t = .ok d)
    (hmembers : g.members d = .ok ms) (hmalformed : Closure.malformed g.registry d = [])
    (hpieces : Stub.takePieces ((g.stub d).pieces ms) = Stub.takePieces pieces) (root : FilePath)
    (s : Session) :
    g.implement t root s =
      ((g.writeUnit (g.sourcePath d root) pieces s).1.mapError (·.toFailure d.name),
        (g.writeUnit (g.sourcePath d root) pieces s).2) := by
  have hwarn : g.warnMalformed d s = s := by
    rw [warnMalformed, hmalformed]
    rfl
  have hwrite : g.writeStub d root s = g.writeUnit (g.sourcePath d root) pieces s := by
    rw [writeStub, hmembers, hwarn]
    exact g.writeUnit_congr hpieces
  rw [g.implement_of_target htarget, hwrite]

/-- What a fault leaves behind: nothing has been touched when a type cannot be implemented at all,
and nothing is left when a member cannot be named, if nothing was where the unit was to go and the
way there has no `..` in it. -/
theorem implement_leaves_no_trace {t : TypeRef} {root : FilePath} {s s' : Session} {e : Failure}
    (hs : s.disk.Sound) (h : g.implement t root s = (.error e, s')) :
    (∀ n r, e = .invalidTarget n r → s'.disk = s.disk) ∧
    (∀ n, e = .noUsableConstructor n → s'.disk = s.disk) ∧
    ∀ n m d, e = .inaccessibleMember n m → g.target t = .ok d →
      .parent ∉ (g.sourcePath d root).components → s.disk.find? (g.sourcePath d root) = none →
      s'.disk.SameTree s.disk := by
  -- a reference that is no target, and then the faults of its type one by one
  cases htarget : g.target t with
  | error e' =>
    rw [implement, htarget] at h
    cases h
    exact ⟨fun _ _ _ => rfl, fun _ _ => rfl, fun _ _ _ _ hd => (nomatch hd)⟩
  | ok d =>
    rw [g.implement_of_target htarget] at h
    obtain ⟨hresult, rfl⟩ := Prod.mk.inj h
    obtain ⟨f, hf, rfl⟩ : ∃ f, (g.writeStub d root s).1 = .error f ∧ f.toFailure d.name = e := by
      cases hr : (g.writeStub d root s).1 with
      | ok path =>
        rw [hr] at hresult
        cases hresult
      | error f =>
        rw [hr] at hresult
        exact ⟨f, rfl, Except.error.inj hresult⟩
    rcases g.writeStub_eq_error (Prod.ext hf rfl) with ⟨rfl, hdisk⟩ | ⟨e', rfl⟩ | ⟨⟨m, rfl⟩, hsame⟩
    · exact ⟨fun _ _ _ => hdisk, fun _ _ => hdisk, fun _ _ _ he => (nomatch he)⟩
    · exact ⟨fun _ _ he => (nomatch he), fun _ he => (nomatch he), fun _ _ _ he => (nomatch he)⟩
    · refine ⟨fun _ _ he => (nomatch he), fun _ he => (nomatch he), ?_⟩
      rintro _ _ d' - hd' hp hmissing
      obtain rfl := Except.ok.inj hd'
      exact hsame hs hp hmissing

end Generator

/-! ## A method that returns a private type -/

namespace Leak

/-- The private member type `Outer.Hidden`. -/
def hidden : Declaration :=
  { name := ⟨"Outer$Hidden"⟩, modifiers := .single .privateAccess }

/-- A method that returns `Outer.Hidden`. -/
def leak : Method :=
  { name := "leak"
    modifiers := .ofList [.publicAccess, .abstract]
    returns := .named ⟨"Outer$Hidden"⟩ }

/-- The interface `Api` with that method. -/
def api : Declaration := { Declaration.interface ⟨"Api"⟩ with methods := [leak] }

/-- The generator over the two types, with the given extension of source files. -/
def generator (sourceExtension : String) : Generator :=
  ⟨⟨[hidden, api]⟩, { sourceExtension }⟩

/-- A session on a disk that holds the root directory alone. -/
def session : Session := { disk := .empty }

/-- The members of the implementation of `Api`. -/
def members : Members :=
  ⟨[⟨{ modifiers := .ofList [.publicAccess] }, ⟨"Api"⟩, true⟩], [⟨leak, ⟨"Api"⟩⟩]⟩

theorem target_api (x : String) : (generator x).target (.named ⟨"Api"⟩) = .ok api := by cbv

theorem members_api (x : String) : (generator x).members api = .ok members := by cbv

theorem header_api (x : String) :
    ((generator x).stub api).header = .ok "public class ApiImpl implements Api \x7b\n" := by
  have henclosing : BinaryName.enclosing? ⟨"Api"⟩ = none := by decide
  have htext : (if api.package.isEmpty then "" else "package " ++ api.package ++ ";\n\n") ++
      "public class " ++ (api.name.simpleName ++ "Impl") ++ " " ++ "implements" ++ " " ++
      BinaryName.canonical ⟨"Api"⟩ ++ " \x7b\n" = "public class ApiImpl implements Api \x7b\n" := by
    decide
  exact (Stub.header_of_renderName (Scope.renderName_of_topLevel henclosing) rfl).trans
    (congrArg Except.ok htext)

theorem method_leak (x : String) :
    ((generator x).stub api).method ⟨leak, ⟨"Api"⟩⟩ =
      .error (.inaccessibleMember ⟨"Outer$Hidden"⟩) := by
  have henclosing : BinaryName.enclosing? ⟨"Outer$Hidden"⟩ = some ⟨"Outer"⟩ := by decide
  have hrender : ((generator x).stub api).scope.render leak.returns =
      .error (.inaccessibleMember ⟨"Outer$Hidden"⟩) :=
    (Scope.render_named _).trans (Scope.renderName_of_isPrivate rfl henclosing rfl)
  rw [Stub.method]
  simp only [hrender]
  rfl

theorem takePieces_api (x : String) :
    Stub.takePieces (((generator x).stub api).pieces members) =
      (["public class ApiImpl implements Api \x7b\n"],
        some (.inaccessibleMember ⟨"Outer$Hidden"⟩)) := by
  show Stub.takePieces (((generator x).stub api).header ::
    ((generator x).stub api).method ⟨leak, ⟨"Api"⟩⟩ :: [.ok "\x7d\n"]) = _
  rw [header_api, method_leak]
  rfl

theorem malformed_api (x : String) : Closure.malformed (generator x).registry api = [] := by cbv

/-- The pieces of the implementation up to the one that cannot be written. -/
def pieces : List (Except SynthesisFault String) :=
  [.ok "public class ApiImpl implements Api \x7b\n", .error (.inaccessibleMember ⟨"Outer$Hidden"⟩)]

theorem implement_api (x : String) (root : FilePath)
    (h : ((generator x).writeUnit ((generator x).sourcePath api root) pieces session).1 =
      .error (.inaccessibleMember ⟨"Outer$Hidden"⟩)) :
    (generator x).implement (.named ⟨"Api"⟩) root session =
      (.error (.inaccessibleMember "Api" "Outer.Hidden"),
        ((generator x).writeUnit ((generator x).sourcePath api root) pieces session).2) := by
  have htarget : BinaryName.canonical ⟨"Api"⟩ = "Api" := by decide
  have hmember : BinaryName.canonical ⟨"Outer$Hidden"⟩ = "Outer.Hidden" := by decide
  rw [Generator.implement_of_takePieces _ pieces (target_api x) (members_api x) (malformed_api x)
    (takePieces_api x), h, ← htarget, ← hmember]
  rfl

theorem fault_of_java :
    ((generator "java").writeUnit ((generator "java").sourcePath api ⟨"out"⟩) pieces session).1 =
      .error (.inaccessibleMember ⟨"Outer$Hidden"⟩) := by
  decide

theorem implement_leaves_no_trace_of_leak :
    let g := generator "java"
    let e := Failure.inaccessibleMember "Api" "Outer.Hidden"
    let s' := (g.implement (.named ⟨"Api"⟩) ⟨"out"⟩ session).2
    (session.disk.Sound ∧ g.implement (.named ⟨"Api"⟩) ⟨"out"⟩ session = (.error e, s') ∧
      g.target (.named ⟨"Api"⟩) = .ok api ∧
      .parent ∉ (g.sourcePath api ⟨"out"⟩).components ∧
      session.disk.find? (g.sourcePath api ⟨"out"⟩) = none) ∧
    (∀ n r, e = .invalidTarget n r → s'.disk = session.disk) ∧
    (∀ n, e = .noUsableConstructor n → s'.disk = session.disk) ∧
    ∀ n m d, e = .inaccessibleMember n m → g.target (.named ⟨"Api"⟩) = .ok d →
      .parent ∉ (g.sourcePath d ⟨"out"⟩).components →
      session.disk.find? (g.sourcePath d ⟨"out"⟩) = none → s'.disk.SameTree session.disk := by
  intro g e s'
  have hsound : session.disk.Sound := Disk.sound_empty
  have hrun : g.implement (.named ⟨"Api"⟩) ⟨"out"⟩ session = (.error e, s') := by
    rw [show s' = (g.implement (.named ⟨"Api"⟩) ⟨"out"⟩ session).2 from rfl,
      implement_api _ _ fault_of_java]
  exact ⟨⟨hsound, hrun, target_api _, by decide, by decide⟩,
    Generator.implement_leaves_no_trace g hsound hrun⟩

theorem writeUnit_with_parent :
    let r := (generator "java/../x").writeUnit
      ((generator "java/../x").sourcePath api ⟨"out"⟩) pieces session
    r.1 = .error (.inaccessibleMember ⟨"Outer$Hidden"⟩) ∧
      r.2.disk.entries = [(["out"], .directory), (["out", "ApiImpl.java"], .directory)] := by
  decide

/-- An extension with `..` in it makes the directory `ApiImpl.java`. It stays, for what is noted as
missing above it is the way back out of it, and that cannot be removed. -/
theorem implement_leaves_directory :
    let g := generator "java/../x"
    let r := g.implement (.named ⟨"Api"⟩) ⟨"out"⟩ session
    session.disk.Sound ∧ g.target (.named ⟨"Api"⟩) = .ok api ∧
      .parent ∉ (⟨"out"⟩ : FilePath).components ∧
      session.disk.find? (g.sourcePath api ⟨"out"⟩) = none ∧
      r.1 = .error (.inaccessibleMember "Api" "Outer.Hidden") ∧ session.disk.entries = [] ∧
      r.2.disk.entries = [(["out"], .directory), (["out", "ApiImpl.java"], .directory)] := by
  intro g r
  obtain ⟨hfault, hentries⟩ := writeUnit_with_parent
  have hrun : r = _ := implement_api "java/../x" ⟨"out"⟩ hfault
  rw [hrun]
  exact ⟨Disk.sound_empty, target_api _, by decide, by decide, rfl, rfl, hentries⟩

end Leak

end StubGen
