import StubGen.Proofs.Disk.Discarding
import StubGen.Proofs.Writing

/-!
# Implementing one type after the other

The units of a batch share one tree. Writing a unit leaves every file alone but the one at its own
path, and so does giving it up: what is discarded is a file at that path and directories that are
empty. So a unit that was written stays as it is, unless a later one goes to the same place.

Two types can share a path, for a path is made of a package and a simple name, and member types
leave out what encloses them. Then the later unit takes the place of the earlier one, and if it
cannot be written both are gone.

Main results:

* `Generator.spares_writeUnit` — a unit changes no file but its own, whether it is kept or not;
* `Generator.hasFile_of_implementAll` — what a batch that succeeds leaves on the disk;
* `Generator.implementAll_keeps_units` — and what is left of it up to the first failure;
* `Collision.batch_loses_unit` — a batch in which the failure of one unit removes another.
-/

namespace StubGen

/-! ## One unit -/

namespace Generator

variable (g : Generator) {path : FilePath} {pieces : List (Except SynthesisFault String)}
  {root : FilePath} {t : TypeRef} {ts : List TypeRef} {ps : List FilePath} {s s' : Session}

/-- A unit changes no file but its own, whether it is kept or not. If its file cannot be created,
what was made on the way is directories and goes. If its text is at fault, the file holds the text
up to there until it is discarded. -/
theorem spares_writeUnit (hs : s.disk.Sound) (path : FilePath)
    (pieces : List (Except SynthesisFault String)) :
    Disk.Spares (s.disk.destination path) s.disk (g.writeUnit path pieces s).2.disk := by
  cases hcreate : OutputUnit.create path g.settings.escapeUnicode s with
  | mk result s₀ =>
    cases result with
    | error e =>
      -- the unit could not be created because its file could not
      have hfile : ScopedFile.create path s = (.error e, s₀) := by
        unfold OutputUnit.create at hcreate
        split at hcreate
        · rename_i hfile
          rw [hfile]
          cases hcreate
          rfl
        · cases hcreate
      rw [writeUnit, hcreate]
      exact ScopedFile.spares_of_create_error hs hfile
    | ok u =>
      obtain ⟨serial, hpath, -, hbuffer, hwrites⟩ := OutputUnit.writes_of_create hs hcreate
      have hdisk := Disk.setBytes_of_get? hwrites.sound hwrites.file
      obtain ⟨s₁, hs₁, hrun⟩ := g.writeUnit_of_create pieces hcreate hpath hbuffer hdisk
      -- the file is at the destination, and writing it leaves the destination where it is
      have hwritten := (hwrites.setBytes (OutputUnit.encode u.escapeUnicode
        (String.join (Stub.takePieces pieces).1))).spares
      rw [← hs₁] at hwritten
      rw [hrun]
      split
      · exact hwritten
      · -- the pieces before the fault are in the file, and the file goes
        have hgone := ScopedFile.spares_discard hwritten.sound u.file
        rw [hpath, hwritten.destination] at hgone
        exact hwritten.trans hgone

/-- A type without members to write leaves the disk as it is. -/
theorem disk_of_members_error {d : Declaration} {e : SynthesisFault} (h : g.members d = .error e)
    (root : FilePath) (s : Session) : (g.writeStub d root s).2.disk = s.disk := by
  rw [writeStub, h]
  exact g.disk_warnMalformed d s

/-- The unit that a reference is implemented by: its path and its bytes. -/
def IsUnit (root : FilePath) (t : TypeRef) (path : FilePath) (bytes : List UInt8) : Prop :=
  ∃ d text, g.target t = .ok d ∧ path = g.sourcePath d root ∧ g.text d = .ok text ∧
    bytes = OutputUnit.encode g.settings.escapeUnicode text

theorem writes_of_implement (hs : s.disk.Sound) (h : g.implement t root s = (.ok path, s')) :
    ∃ bytes serial, g.IsUnit root t path bytes ∧ s.disk.Writes path serial bytes s'.disk := by
  obtain ⟨d, htarget, hrun⟩ := g.implement_eq_ok h
  obtain ⟨hpath, text, serial, htext, hwrites⟩ := g.writes_of_writeStub hs hrun
  exact ⟨_, serial, ⟨d, text, htarget, hpath, htext, rfl⟩, hwrites⟩

/-- The place where a reference is implemented, if it comes to writing its unit. -/
def Occupies (root : FilePath) (t : TypeRef) (path : FilePath) : Prop :=
  ∃ d ms, g.target t = .ok d ∧ g.members d = .ok ms ∧ path = g.sourcePath d root

/-- A reference whose unit does not go to a place leaves the file there alone, whether it is
implemented or not. A reference that is no target, or whose members are at fault, does not touch the
disk. -/
theorem get?_of_implement (hs : s.disk.Sound) {l : Location} {serial : Nat} {bytes : List UInt8}
    (hl : s.disk.get? l = some (.file serial bytes))
    (hother : ∀ p, g.Occupies root t p → s.disk.destination p ≠ l) :
    let s' := (g.implement t root s).2
    s'.disk.Sound ∧ s'.disk.workingDirectory = s.disk.workingDirectory ∧
      s'.disk.get? l = some (.file serial bytes) := by
  cases htarget : g.target t with
  | error e =>
    rw [implement, htarget]
    exact ⟨hs, rfl, hl⟩
  | ok d =>
    rw [g.implement_of_target htarget]
    cases hmembers : g.members d with
    | error e =>
      show (g.writeStub d root s).2.disk.Sound ∧
        (g.writeStub d root s).2.disk.workingDirectory = _ ∧
        (g.writeStub d root s).2.disk.get? l = _
      rw [g.disk_of_members_error hmembers root s]
      exact ⟨hs, rfl, hl⟩
    | ok ms =>
      -- the unit is written to its source path, which is not the place
      have hne := hother _ ⟨d, ms, htarget, hmembers, rfl⟩
      rw [← g.disk_warnMalformed d s] at hs hl hne ⊢
      have hspares := g.spares_writeUnit hs (g.sourcePath d root) ((g.stub d).pieces ms)
      rw [← g.writeStub_of_members hmembers] at hspares
      exact ⟨hspares.sound, hspares.workingDirectory, hspares.file l serial bytes hne.symm hl⟩

/-! ## A batch -/

theorem implementAll_cons_eq_ok (h : g.implementAll root (t :: ts) s = (.ok ps, s')) :
    ∃ p qs s₁, g.implement t root s = (.ok p, s₁) ∧ g.implementAll root ts s₁ = (.ok qs, s') ∧
      ps = p :: qs := by
  rw [implementAll] at h
  split at h
  · cases h
  · rename_i p s₁ hfirst
    split at h
    · cases h
    · rename_i qs s₂ hrest
      cases h
      exact ⟨p, qs, s₁, hfirst, hrest, rfl⟩

theorem implementAll_cons_eq_error {e : Failure}
    (h : g.implementAll root (t :: ts) s = (.error e, s')) :
    g.implement t root s = (.error e, s') ∨
      ∃ p s₁, g.implement t root s = (.ok p, s₁) ∧ g.implementAll root ts s₁ = (.error e, s') := by
  rw [implementAll] at h
  split at h
  · rename_i hfirst
    cases h
    exact .inl hfirst
  · rename_i p s₁ hfirst
    split at h
    · rename_i hrest
      cases h
      exact .inr ⟨p, s₁, hfirst, hrest⟩
    · cases h

/-- The references whose units go to the place of a path all have the same bytes for it. -/
def AgreeOn (root : FilePath) (ts : List TypeRef) (d : Disk) (path : FilePath)
    (bytes : List UInt8) : Prop :=
  ∀ t ∈ ts, ∀ q bytes', g.IsUnit root t q bytes' → d.destination q = d.destination path →
    bytes' = bytes

/-- A file stays when the next unit goes elsewhere, or has the same bytes. -/
theorem hasFile_of_implement (hs : s.disk.Sound) {p q : FilePath} {bytes : List UInt8}
    (h : g.implement t root s = (.ok q, s')) (hp : s.disk.HasFile p bytes)
    (hagree : g.AgreeOn root [t] s.disk p bytes) : s'.disk.HasFile p bytes := by
  obtain ⟨bytes', serial, hunit, hwrites⟩ := g.writes_of_implement hs h
  by_cases hq : s.disk.destination q = s.disk.destination p
  · obtain rfl := hagree t (List.mem_singleton_self t) q bytes' hunit hq
    exact hp.mono hwrites.workingDirectory hwrites.kept (hq ▸ hwrites.file)
  · obtain ⟨n, hl⟩ := hp.get?_destination
    have hl' := (hwrites.others _ n bytes (Ne.symm hq)).2 hl
    exact hp.mono hwrites.workingDirectory hwrites.kept hl'

theorem agreeOn_congr {d e : Disk} (hwd : e.workingDirectory = d.workingDirectory)
    {p : FilePath} {bytes : List UInt8} :
    g.AgreeOn root ts e p bytes ↔ g.AgreeOn root ts d p bytes := by
  simp only [AgreeOn, Disk.destination_congr hwd]

/-- What a batch that succeeds leaves on the disk: every file that the units agree on, those of the
batch included. Only later units can put an end to a unit, so the induction on the batch asks about
the references that are left, each time from the disk as it is by then. -/
theorem hasFile_of_implementAll (hs : s.disk.Sound)
    (h : g.implementAll root ts s = (.ok ps, s')) :
    s'.disk.Sound ∧ s'.disk.workingDirectory = s.disk.workingDirectory ∧
      ps.length = ts.length ∧
      (∀ p bytes, s.disk.HasFile p bytes → g.AgreeOn root ts s.disk p bytes →
        s'.disk.HasFile p bytes) ∧
      ∀ i t p, ts[i]? = some t → ps[i]? = some p → ∃ bytes, g.IsUnit root t p bytes ∧
        (g.AgreeOn root (ts.drop (i + 1)) s.disk p bytes → s'.disk.HasFile p bytes) := by
  induction ts generalizing s ps with
  | nil =>
    rw [implementAll] at h
    cases h
    exact ⟨hs, rfl, rfl, fun _ _ hp _ => hp, fun i t p ht => nomatch ht⟩
  | cons t ts ih =>
    obtain ⟨p, qs, s₁, hfirst, hrest, rfl⟩ := g.implementAll_cons_eq_ok h
    obtain ⟨bytes, serial, hunit, hwrites⟩ := g.writes_of_implement hs hfirst
    have hwd := hwrites.workingDirectory
    obtain ⟨hsound, hwd', hlength, hkeeps, hunits⟩ := ih hwrites.sound hrest
    refine ⟨hsound, hwd'.trans hwd, congrArg (· + 1) hlength, ?_, ?_⟩
    · -- a file from before the batch stays over its first unit, and then over the others
      intro q bytes' hq hagree
      have hfile : s₁.disk.HasFile q bytes' := by
        refine g.hasFile_of_implement hs hfirst hq fun t' ht' => hagree t' ?_
        rw [List.mem_singleton.1 ht']
        exact List.mem_cons_self
      refine hkeeps q bytes' hfile ((g.agreeOn_congr hwd).2 fun t' ht' => ?_)
      exact hagree t' (List.mem_cons_of_mem _ ht')
    · intro i t' p' ht' hp'
      cases i with
      | zero =>
        -- the unit of this reference has just been written; the others are still to come
        obtain rfl := Option.some.inj ht'
        obtain rfl := Option.some.inj hp'
        refine ⟨bytes, hunit, fun hagree => hkeeps p bytes hwrites.hasFile ?_⟩
        exact (g.agreeOn_congr hwd).2 hagree
      | succ i =>
        obtain ⟨bytes', hunit', hfile⟩ := hunits i t' p' ht' hp'
        exact ⟨bytes', hunit', fun hagree => hfile ((g.agreeOn_congr hwd).2 hagree)⟩

/-- A batch that fails is a batch that succeeds up to the reference that fails. -/
theorem exists_of_implementAll_eq_error {e : Failure}
    (h : g.implementAll root ts s = (.error e, s')) :
    ∃ k t ps s₀, ts[k]? = some t ∧ g.implementAll root (ts.take k) s = (.ok ps, s₀) ∧
      g.implement t root s₀ = (.error e, s') := by
  induction ts generalizing s with
  | nil =>
    rw [implementAll] at h
    cases h
  | cons t ts ih =>
    rcases g.implementAll_cons_eq_error h with hfirst | ⟨p, s₁, hfirst, hrest⟩
    · exact ⟨0, t, [], s, rfl, rfl, hfirst⟩
    · obtain ⟨k, t', ps, s₀, ht', htake, hlast⟩ := ih hrest
      refine ⟨k + 1, t', p :: ps, s₀, ht', ?_, hlast⟩
      rw [List.take_succ_cons, implementAll, hfirst]
      simp only [htake]

/-- What is left of a batch. If it succeeds there is one path for each reference, in order, and its
unit is there. If it fails, it does so as its first reference that cannot be implemented does, and
the units before that are there. Either way a unit may be gone if another one that came later went
to the same place: with other bytes, or only to be given up. -/
theorem implementAll_keeps_units {result : Except Failure (List FilePath)} (hs : s.disk.Sound)
    (h : g.implementAll root ts s = (result, s')) :
    (∀ ps, result = .ok ps → ps.length = ts.length ∧
      ∀ i t p, ts[i]? = some t → ps[i]? = some p → ∃ bytes, g.IsUnit root t p bytes ∧
        (g.AgreeOn root (ts.drop (i + 1)) s.disk p bytes → s'.disk.readBytes p = .ok bytes)) ∧
    ∀ e, result = .error e → ∃ k t ps s₀, ts[k]? = some t ∧
      g.implementAll root (ts.take k) s = (.ok ps, s₀) ∧ g.implement t root s₀ = (.error e, s') ∧
      ps.length = k ∧
      ∀ i t' p, i < k → ts[i]? = some t' → ps[i]? = some p → ∃ bytes, g.IsUnit root t' p bytes ∧
        (g.AgreeOn root ((ts.take k).drop (i + 1)) s.disk p bytes →
          (∀ q, g.Occupies root t q → s.disk.destination q ≠ s.disk.destination p) →
          (∃ serial, s'.disk.get? (s.disk.destination p) = some (.file serial bytes)) ∧
            (.parent ∉ p.components → s'.disk.readBytes p = .ok bytes)) := by
  constructor
  · rintro ps rfl
    obtain ⟨-, -, hlength, -, hunits⟩ := g.hasFile_of_implementAll hs h
    refine ⟨hlength, fun i t p ht hp => ?_⟩
    obtain ⟨bytes, hunit, hfile⟩ := hunits i t p ht hp
    exact ⟨bytes, hunit, fun hagree => (hfile hagree).readBytes⟩
  · rintro e rfl
    -- up to the reference that fails, the batch is one that succeeds
    obtain ⟨k, t, ps, s₀, ht, htake, hlast⟩ := g.exists_of_implementAll_eq_error h
    obtain ⟨hsound, hwd, hlength, -, hunits⟩ := g.hasFile_of_implementAll hs htake
    have hk : k < ts.length := (List.getElem?_eq_some_iff.1 ht).1
    refine ⟨k, t, ps, s₀, ht, htake, hlast, ?_, ?_⟩
    · rw [hlength, List.length_take]
      omega
    intro i t' p hi ht' hp
    obtain ⟨bytes, hunit, hfile⟩ := hunits i t' p (by rw [List.getElem?_take_of_lt hi, ht']) hp
    refine ⟨bytes, hunit, fun hagree hother => ?_⟩
    -- the unit is there when the last reference is taken up, and that goes elsewhere
    obtain ⟨serial, hl⟩ := (hfile hagree).get?_destination
    have hother' : ∀ q, g.Occupies root t q → s₀.disk.destination q ≠ s₀.disk.destination p := by
      intro q hq
      rw [Disk.destination_congr hwd, Disk.destination_congr hwd]
      exact hother q hq
    have hlast' := g.get?_of_implement hsound hl hother'
    rw [hlast] at hlast'
    obtain ⟨hsound', hwd', hl'⟩ := hlast'
    refine ⟨⟨serial, ?_⟩, fun hp => ?_⟩
    · rw [← Disk.destination_congr hwd]
      exact hl'
    · exact ((hfile hagree).of_noParents hp hsound' hwd' hl').readBytes

end Generator

/-! ## Two types of one simple name -/

namespace Collision

/-- The interface `Api`. -/
def api : Declaration := .interface ⟨"Api"⟩

/-- The interface `Outer.Api`, with a method that returns the private type `Outer.Hidden`. -/
def member : Declaration := { Declaration.interface ⟨"Outer$Api"⟩ with methods := [Leak.leak] }

/-- The generator over the two interfaces. -/
def generator : Generator := ⟨⟨[Leak.hidden, api, member]⟩, {}⟩

/-- Where both are implemented. -/
def path : FilePath := ⟨"out/ApiImpl.java"⟩

/-- The members of the implementation of an interface. -/
def members (d : Declaration) : Members :=
  ⟨[⟨{ modifiers := .ofList [.publicAccess] }, d.name, true⟩], d.methods.map fun m => ⟨m, d.name⟩⟩

/-- The pieces of the implementation of `Api`. -/
def apiPieces : List (Except SynthesisFault String) :=
  [.ok "public class ApiImpl implements Api \x7b\n", .ok "\x7d\n"]

/-- The pieces of the implementation of `Outer.Api`, up to the one that cannot be written. -/
def memberPieces : List (Except SynthesisFault String) :=
  [.ok "public class ApiImpl implements Outer.Api \x7b\n",
    .error (.inaccessibleMember ⟨"Outer$Hidden"⟩)]

theorem pieces_api : (generator.stub api).pieces (members api) = apiPieces := by
  have hheader : (generator.stub api).header = .ok "public class ApiImpl implements Api \x7b\n" :=
    (Stub.header_of_renderName (Scope.renderName_of_topLevel (by decide)) rfl).trans
      (congrArg Except.ok (by decide))
  show [(generator.stub api).header, .ok "\x7d\n"] = _
  rw [hheader]
  rfl

theorem takePieces_member :
    Stub.takePieces ((generator.stub member).pieces (members member)) =
      Stub.takePieces memberPieces := by
  -- `Outer` encloses the target, so the header can name it
  have houter : (generator.stub member).scope.renderName ⟨"Outer"⟩ = .ok "Outer" :=
    (Scope.renderName_of_topLevel (by decide)).trans (congrArg Except.ok (by decide))
  have hname : (generator.stub member).scope.renderName ⟨"Outer$Api"⟩ = .ok "Outer.Api" :=
    (Scope.renderName_of_enclosing (d := member) rfl (by decide) rfl houter).trans
      (congrArg Except.ok (by decide))
  have hheader : (generator.stub member).header =
      .ok "public class ApiImpl implements Outer.Api \x7b\n" :=
    (Stub.header_of_renderName hname rfl).trans (congrArg Except.ok (by decide))
  -- nothing outside of `Outer` can name what the method returns
  have hhidden : (generator.stub member).scope.render Leak.leak.returns =
      .error (.inaccessibleMember ⟨"Outer$Hidden"⟩) := by
    have henclosing : BinaryName.enclosing? ⟨"Outer$Hidden"⟩ = some ⟨"Outer"⟩ := by decide
    exact (Scope.render_named _).trans (Scope.renderName_of_isPrivate rfl henclosing rfl)
  have hmethod : (generator.stub member).method ⟨Leak.leak, ⟨"Outer$Api"⟩⟩ =
      .error (.inaccessibleMember ⟨"Outer$Hidden"⟩) := by
    rw [Stub.method]
    simp only [hhidden]
    rfl
  show Stub.takePieces ((generator.stub member).header ::
    (generator.stub member).method ⟨Leak.leak, ⟨"Outer$Api"⟩⟩ :: [.ok "\x7d\n"]) = _
  rw [hheader, hmethod]
  rfl

theorem implement_api (s : Session) :
    generator.implement (.named ⟨"Api"⟩) ⟨"out"⟩ s =
      ((generator.writeUnit path apiPieces s).1.mapError (·.toFailure ⟨"Api"⟩),
        (generator.writeUnit path apiPieces s).2) := by
  have htarget : generator.target (.named ⟨"Api"⟩) = .ok api := by cbv
  have hmembers : generator.members api = .ok (members api) := by cbv
  have hmalformed : Closure.malformed generator.registry api = [] := by cbv
  have hpath : generator.sourcePath api ⟨"out"⟩ = path := by decide
  rw [generator.implement_of_takePieces apiPieces htarget hmembers hmalformed
    (congrArg Stub.takePieces pieces_api), hpath]
  rfl

theorem implement_member (s : Session) :
    generator.implement (.named ⟨"Outer$Api"⟩) ⟨"out"⟩ s =
      ((generator.writeUnit path memberPieces s).1.mapError (·.toFailure ⟨"Outer$Api"⟩),
        (generator.writeUnit path memberPieces s).2) := by
  have htarget : generator.target (.named ⟨"Outer$Api"⟩) = .ok member := by cbv
  have hmembers : generator.members member = .ok (members member) := by cbv
  have hmalformed : Closure.malformed generator.registry member = [] := by cbv
  have hpath : generator.sourcePath member ⟨"out"⟩ = path := by decide
  rw [generator.implement_of_takePieces memberPieces htarget hmembers hmalformed takePieces_member,
    hpath]
  rfl

/-- What is written for `Api`, and what is left when `Outer.Api` has failed. -/
theorem writeUnit_both :
    let r := generator.writeUnit path apiPieces Leak.session
    let r' := generator.writeUnit path memberPieces r.2
    r.1 = .ok path ∧
      r.2.disk.readBytes path =
        .ok (Text.utf8 "public class ApiImpl implements Api \x7b\n\x7d\n") ∧
      r'.1 = .error (.inaccessibleMember ⟨"Outer$Hidden"⟩) ∧
      r'.2.disk.entries = [(["out"], .directory)] := by
  decide

theorem implementAll_keeps_units_before_array :
    let ts : List TypeRef := [.named ⟨"Api"⟩, .array (.named ⟨"Api"⟩)]
    let e := Failure.invalidTarget "Api[]" .arrayType
    let s' := (generator.implementAll ⟨"out"⟩ ts Leak.session).2
    (Leak.session.disk.Sound ∧
      generator.implementAll ⟨"out"⟩ ts Leak.session = (.error e, s')) ∧
    (∀ ps, (.error e : Except Failure (List FilePath)) = .ok ps → ps.length = ts.length ∧
      ∀ i t p, ts[i]? = some t → ps[i]? = some p → ∃ bytes, generator.IsUnit ⟨"out"⟩ t p bytes ∧
        (generator.AgreeOn ⟨"out"⟩ (ts.drop (i + 1)) Leak.session.disk p bytes →
          s'.disk.readBytes p = .ok bytes)) ∧
    ∀ e', (.error e : Except Failure (List FilePath)) = .error e' → ∃ k t ps s₀, ts[k]? = some t ∧
      generator.implementAll ⟨"out"⟩ (ts.take k) Leak.session = (.ok ps, s₀) ∧
      generator.implement t ⟨"out"⟩ s₀ = (.error e', s') ∧ ps.length = k ∧
      ∀ i t' p, i < k → ts[i]? = some t' → ps[i]? = some p →
        ∃ bytes, generator.IsUnit ⟨"out"⟩ t' p bytes ∧
          (generator.AgreeOn ⟨"out"⟩ ((ts.take k).drop (i + 1)) Leak.session.disk p bytes →
            (∀ q, generator.Occupies ⟨"out"⟩ t q →
              Leak.session.disk.destination q ≠ Leak.session.disk.destination p) →
            (∃ serial, s'.disk.get? (Leak.session.disk.destination p) =
              some (.file serial bytes)) ∧
              (.parent ∉ p.components → s'.disk.readBytes p = .ok bytes)) := by
  intro ts e s'
  have hsound : Leak.session.disk.Sound := Disk.sound_empty
  -- the first reference is implemented, and the second one is an array
  have hrun : generator.implementAll ⟨"out"⟩ ts Leak.session = (.error e, s') := by
    refine Prod.ext ?_ rfl
    have hfirst : generator.implement (.named ⟨"Api"⟩) ⟨"out"⟩ Leak.session =
        (.ok path, (generator.writeUnit path apiPieces Leak.session).2) := by
      rw [implement_api, writeUnit_both.1]
      rfl
    have hspelling : Generator.spelling (.array (.named ⟨"Api"⟩)) = "Api[]" := by decide
    show _ = Except.error (Failure.invalidTarget "Api[]" .arrayType)
    rw [Generator.implementAll, hfirst, ← hspelling]
    rfl
  exact ⟨⟨hsound, hrun⟩, generator.implementAll_keeps_units hsound hrun⟩

/-- `Outer.Api` goes where `Api` went before it. It fails, and the unit of `Api` is gone. -/
theorem batch_loses_unit :
    let first := generator.implement (.named ⟨"Api"⟩) ⟨"out"⟩ Leak.session
    let batch := generator.implementAll ⟨"out"⟩ [.named ⟨"Api"⟩, .named ⟨"Outer$Api"⟩] Leak.session
    Leak.session.disk.Sound ∧ first.1 = .ok path ∧
      first.2.disk.readBytes path =
        .ok (Text.utf8 "public class ApiImpl implements Api \x7b\n\x7d\n") ∧
      batch.1 = .error (.inaccessibleMember "Outer.Api" "Outer.Hidden") ∧
      batch.2.disk.entries = [(["out"], .directory)] := by
  obtain ⟨hfirst, hbytes, hfault, hentries⟩ := writeUnit_both
  have htarget : BinaryName.canonical ⟨"Outer$Api"⟩ = "Outer.Api" := by decide
  have hhidden : BinaryName.canonical ⟨"Outer$Hidden"⟩ = "Outer.Hidden" := by decide
  intro first batch
  -- `Api` is written, and then `Outer.Api` is tried on the disk with its unit
  have hrun : first = (.ok path, (generator.writeUnit path apiPieces Leak.session).2) := by
    show generator.implement _ _ _ = _
    rw [implement_api, hfirst]
    rfl
  have hbatch : batch = (.error (.inaccessibleMember "Outer.Api" "Outer.Hidden"),
      (generator.writeUnit path memberPieces
        (generator.writeUnit path apiPieces Leak.session).2).2) := by
    show generator.implementAll _ [_, _] _ = _
    rw [Generator.implementAll, ← htarget, ← hhidden,
      show generator.implement (.named ⟨"Api"⟩) ⟨"out"⟩ Leak.session = _ from hrun]
    simp only [Generator.implementAll, implement_member, hfault]
    rfl
  rw [hrun, hbatch]
  exact ⟨Disk.sound_empty, rfl, hbytes, rfl, hentries⟩

end Collision

end StubGen
