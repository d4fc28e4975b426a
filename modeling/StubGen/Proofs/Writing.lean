import StubGen.Proofs.Disk.Creation
import StubGen.Proofs.Rollback

/-!
# Implementations that are written

A unit is written text by text through a buffer that empties itself into the file now and then. What
is in the file and what waits are always the bytes of the texts so far, whatever the texts were and
wherever the buffer was emptied; and escaping texts one by one is escaping them as a whole. So what
a run leaves at the path is the implementation as one text, and running again changes nothing.

Main results:

* `BufferedFile.Carries.write`, `OutputUnit.flush_writeAll` — what has reached the file;
* `Generator.writes_of_writeUnit` — what a unit that was kept leaves on the disk;
* `Generator.implement_writes_text` — what a successful run leaves on the disk.
-/

namespace StubGen

/-! ## Buffers -/

namespace BufferedFile

variable {b : BufferedFile} {d e : Disk} {serial : Nat} {bytes : List UInt8}

/-- The bytes that were given to a buffered file so far are in the file or wait. Apart from the file
the disk is `d`. -/
def Carries (b : BufferedFile) (d : Disk) (serial : Nat) (bytes : List UInt8) (e : Disk) : Prop :=
  ∃ written, b.handle = ⟨serial, written.length⟩ ∧ written ++ b.pending = bytes ∧
    e = d.setBytes serial written

namespace Carries

theorem flush_eq (h : b.Carries d serial bytes e) :
    b.flush e = (⟨⟨serial, bytes.length⟩, []⟩, d.setBytes serial bytes) := by
  obtain ⟨written, hhandle, rfl, rfl⟩ := h
  rw [flush, hhandle, Disk.write_setBytes]

theorem flush (h : b.Carries d serial bytes e) :
    (b.flush e).1.Carries d serial bytes (b.flush e).2 := by
  rw [h.flush_eq]
  exact ⟨bytes, rfl, List.append_nil _, rfl⟩

/-- What is written comes behind what the buffer and its file hold together, however the new bytes
are divided between the two. -/
theorem write (h : b.Carries d serial bytes e) (new : List UInt8) :
    (b.write new e).1.Carries d serial (bytes ++ new) (b.write new e).2 := by
  unfold BufferedFile.write
  have hflushed : let r := if b.pending.length + new.length > capacity then b.flush e else (b, e)
      r.1.Carries d serial bytes r.2 ∧ (new.length ≥ capacity → r.1.pending = []) := by
    split
    · exact ⟨h.flush, fun _ => rfl⟩
    · -- a text that fills the buffer alone fits only if nothing waits
      refine ⟨h, fun hfull => List.length_eq_zero_iff.1 ?_⟩
      show b.pending.length = 0
      omega
  generalize (if b.pending.length + new.length > capacity then b.flush e else (b, e)) = r
    at hflushed ⊢
  obtain ⟨⟨written, hhandle, hbytes, hdisk⟩, hempty⟩ := hflushed
  by_cases hfull : new.length ≥ capacity
  · -- nothing waits any more, so the new bytes go to the file behind those that are there
    rw [hempty hfull, List.append_nil] at hbytes
    simp only [hfull, if_true, hhandle, hdisk, Disk.write_setBytes]
    refine ⟨written ++ new, rfl, ?_, rfl⟩
    rw [hempty hfull, List.append_nil, hbytes]
  · -- the new bytes wait behind those that do
    simp only [hfull, if_false]
    exact ⟨written, hhandle, by rw [← hbytes, List.append_assoc], hdisk⟩

end Carries

end BufferedFile

/-! ## Units -/

namespace OutputUnit

variable {d : Disk} {u : OutputUnit} {s s' : Session} {path : FilePath} {serial : Nat}
  {escapeUnicode : Bool}

/-- Texts are escaped one by one as they are as a whole. -/
theorem encode_append (escapeUnicode : Bool) (s t : String) :
    encode escapeUnicode (s ++ t) = encode escapeUnicode s ++ encode escapeUnicode t := by
  cases escapeUnicode with
  | false => exact Text.utf8_append s t
  | true =>
    rw [encode, if_pos rfl, String.toList_append, Text.escapeNonAscii_append, String.ofList_append,
      Text.utf8_append]
    rfl

theorem encode_empty (escapeUnicode : Bool) : encode escapeUnicode "" = [] := by
  cases escapeUnicode <;> rfl

theorem carries_writeAll {bytes : List UInt8} (h : u.buffer.Carries d serial bytes s.disk)
    (texts : List String) :
    let r := u.writeAll texts s
    r.1.buffer.Carries d serial (bytes ++ encode u.escapeUnicode (String.join texts)) r.2.disk ∧
      r.1.file = u.file := by
  induction texts generalizing u s bytes with
  | nil =>
    rw [String.join_nil, encode_empty, List.append_nil]
    exact ⟨h, rfl⟩
  | cons text texts ih =>
    rw [writeAll_cons, String.join_cons, encode_append, ← List.append_assoc]
    have hwrite : (u.write text s).1.buffer.Carries d serial (bytes ++ encode u.escapeUnicode text)
        (u.write text s).2.disk := h.write _
    exact ih hwrite

/-- The texts of a unit, once they have all reached the file. -/
theorem flush_writeAll (hbuffer : u.buffer = ⟨⟨serial, 0⟩, []⟩)
    (hdisk : s.disk.setBytes serial [] = s.disk) (texts : List String) :
    let r := u.writeAll texts s
    (r.1.buffer.flush r.2.disk).2 =
        s.disk.setBytes serial (encode u.escapeUnicode (String.join texts)) ∧
      r.1.file = u.file := by
  have hstart : u.buffer.Carries s.disk serial [] s.disk :=
    ⟨[], by rw [hbuffer, List.length_nil], by rw [hbuffer, List.append_nil], hdisk.symm⟩
  obtain ⟨hcarries, hfile⟩ := carries_writeAll hstart texts
  exact ⟨congrArg Prod.snd hcarries.flush_eq, hfile⟩

theorem writes_of_create (hd : s.disk.Sound) (h : create path escapeUnicode s = (.ok u, s')) :
    ∃ serial, u.file.path = path ∧ u.escapeUnicode = escapeUnicode ∧
      u.buffer = ⟨⟨serial, 0⟩, []⟩ ∧ s.disk.Writes path serial [] s'.disk := by
  unfold create at h
  split at h
  · cases h
  · rename_i f handle s'' hfile
    cases h
    obtain ⟨hpath, hposition, -, hwrites⟩ := ScopedFile.writes_of_create hd hfile
    obtain ⟨serial, position⟩ := handle
    obtain rfl : position = 0 := hposition
    exact ⟨serial, hpath, rfl, rfl, hwrites⟩

end OutputUnit

namespace Generator

variable (g : Generator) {path : FilePath} {pieces : List (Except SynthesisFault String)}
  {s s' : Session}

/-- The course of a unit from the file that was created for it: it holds the pieces up to the first
fault, and is kept if there is none. -/
theorem writeUnit_of_create (pieces : List (Except SynthesisFault String)) {u : OutputUnit}
    {serial : Nat}
    (h : OutputUnit.create path g.settings.escapeUnicode s = (.ok u, s'))
    (hpath : u.file.path = path) (hbuffer : u.buffer = ⟨⟨serial, 0⟩, []⟩)
    (hdisk : s'.disk.setBytes serial [] = s'.disk) :
    ∃ s₁, s₁.disk = s'.disk.setBytes serial
        (OutputUnit.encode u.escapeUnicode (String.join (Stub.takePieces pieces).1)) ∧
      g.writeUnit path pieces s =
        match (Stub.takePieces pieces).2 with
        | none => (.ok path, s₁)
        | some e => (.error e, u.file.discard s₁) := by
  -- in the end nothing waits in the buffer, so the file holds all that was written
  obtain ⟨hflush, hfile⟩ := OutputUnit.flush_writeAll hbuffer hdisk (Stub.takePieces pieces).1
  refine ⟨(u.writeAll (Stub.takePieces pieces).1 s').2.withDisk _, hflush, ?_⟩
  simp only [writeUnit, h]
  cases (Stub.takePieces pieces).2 with
  | none =>
    show (Except.ok (u.writeAll _ _).1.file.path, _) = _
    rw [hfile, hpath]
    rfl
  | some e =>
    show (Except.error e, (u.writeAll _ _).1.file.discard _) = _
    rw [hfile]
    rfl

/-- What a unit that was kept leaves on the disk. -/
theorem writes_of_writeUnit (hd : s.disk.Sound) {p : FilePath}
    (h : g.writeUnit path pieces s = (.ok p, s')) :
    p = path ∧ (Stub.takePieces pieces).2 = none ∧ ∃ serial, s.disk.Writes path serial
      (OutputUnit.encode g.settings.escapeUnicode (String.join (Stub.takePieces pieces).1))
      s'.disk := by
  cases hcreate : OutputUnit.create path g.settings.escapeUnicode s with
  | mk result s₀ =>
    cases result with
    | error e =>
      simp only [writeUnit, hcreate] at h
      cases h
    | ok u =>
      obtain ⟨serial, hpath, hescape, hbuffer, hwrites⟩ := OutputUnit.writes_of_create hd hcreate
      have hdisk := Disk.setBytes_of_get? hwrites.sound hwrites.file
      obtain ⟨s₁, hs₁, hrun⟩ := g.writeUnit_of_create pieces hcreate hpath hbuffer hdisk
      -- the unit was kept, so no piece of it was at fault
      rw [h] at hrun
      split at hrun
      · rename_i hnone
        cases hrun
        refine ⟨rfl, hnone, serial, ?_⟩
        rw [hs₁, hescape]
        exact hwrites.setBytes _
      · cases hrun

/-- Where a unit was written it can be written again, and only its bytes are new. -/
theorem writeUnit_of_writes {d : Disk} {serial : Nat} {bytes : List UInt8}
    (hw : d.Writes path serial bytes s.disk) (hnone : (Stub.takePieces pieces).2 = none) :
    ∃ s', g.writeUnit path pieces s = (.ok path, s') ∧ s'.disk = s.disk.setBytes serial
      (OutputUnit.encode g.settings.escapeUnicode (String.join (Stub.takePieces pieces).1)) := by
  -- the file that is there is emptied and written anew
  obtain ⟨f, hfile⟩ := ScopedFile.create_of_writes hw
  have hcreate : OutputUnit.create path g.settings.escapeUnicode s =
      (.ok ⟨f, ⟨⟨serial, 0⟩, []⟩, g.settings.escapeUnicode⟩,
        s.withDisk (s.disk.setBytes serial [])) := by
    rw [OutputUnit.create, hfile]
  have hpath : f.path = path := (ScopedFile.writes_of_create hw.sound hfile).1
  obtain ⟨s₁, hs₁, hrun⟩ := g.writeUnit_of_create pieces hcreate hpath rfl
    (Disk.setBytes_setBytes s.disk serial [] [])
  rw [hnone] at hrun
  refine ⟨s₁, hrun, hs₁.trans ?_⟩
  exact Disk.setBytes_setBytes s.disk serial [] _

/-! ## Implementing a type -/

/-- The text of the implementation of a type. -/
def text (d : Declaration) : Except SynthesisFault String := do
  (g.stub d).source (← g.members d)

end Generator

namespace Stub

variable {stub : Stub} {ms : Members} {text : String}

/-- The text of an implementation is its pieces, if there is a text for all of them. -/
theorem source_eq_ok_iff :
    stub.source ms = .ok text ↔
      (takePieces (stub.pieces ms)).2 = none ∧
        String.join (takePieces (stub.pieces ms)).1 = text := by
  rw [source]
  obtain ⟨written, fault?⟩ := takePieces (stub.pieces ms)
  cases fault? with
  | none => simp
  | some e => simp

end Stub

namespace Generator

variable (g : Generator) {s s' : Session} {path : FilePath}

theorem text_eq_ok_iff {d : Declaration} {text : String} :
    g.text d = .ok text ↔ ∃ ms, g.members d = .ok ms ∧ (g.stub d).source ms = .ok text := by
  rw [Generator.text]
  exact Except.bind_eq_ok_iff

theorem writeStub_of_members {d : Declaration} {ms : Members} (h : g.members d = .ok ms)
    (root : FilePath) (s : Session) :
    g.writeStub d root s =
      g.writeUnit (g.sourcePath d root) ((g.stub d).pieces ms) (g.warnMalformed d s) := by
  rw [writeStub, h]

/-- What an implementation that was written leaves on the disk. -/
theorem writes_of_writeStub {d : Declaration} {root : FilePath} (hd : s.disk.Sound)
    (h : g.writeStub d root s = (.ok path, s')) :
    path = g.sourcePath d root ∧ ∃ text serial, g.text d = .ok text ∧
      s.disk.Writes path serial (OutputUnit.encode g.settings.escapeUnicode text) s'.disk := by
  cases hmembers : g.members d with
  | error e =>
    rw [writeStub, hmembers] at h
    cases h
  | ok ms =>
    rw [g.writeStub_of_members hmembers] at h
    -- warnings leave the disk alone
    rw [← g.disk_warnMalformed d s] at hd ⊢
    obtain ⟨hpath, hnone, serial, hwrites⟩ := g.writes_of_writeUnit hd h
    rw [← hpath] at hwrites
    refine ⟨hpath, _, serial, ?_, hwrites⟩
    exact g.text_eq_ok_iff.2 ⟨ms, hmembers, Stub.source_eq_ok_iff.2 ⟨hnone, rfl⟩⟩

theorem writeStub_of_writes {d : Declaration} {root : FilePath} {disk : Disk} {serial : Nat}
    {bytes : List UInt8} {text : String} (htext : g.text d = .ok text)
    (hw : disk.Writes (g.sourcePath d root) serial bytes s.disk) :
    ∃ s', g.writeStub d root s = (.ok (g.sourcePath d root), s') ∧ s'.disk =
      s.disk.setBytes serial (OutputUnit.encode g.settings.escapeUnicode text) := by
  obtain ⟨ms, hmembers, hsource⟩ := g.text_eq_ok_iff.1 htext
  obtain ⟨hnone, rfl⟩ := Stub.source_eq_ok_iff.1 hsource
  rw [g.writeStub_of_members hmembers]
  rw [← g.disk_warnMalformed d s] at hw ⊢
  exact g.writeUnit_of_writes hw hnone

/-- A reference that is implemented is a target, and its unit was written. -/
theorem implement_eq_ok {t : TypeRef} {root : FilePath}
    (h : g.implement t root s = (.ok path, s')) :
    ∃ d, g.target t = .ok d ∧ g.writeStub d root s = (.ok path, s') := by
  cases htarget : g.target t with
  | error e =>
    rw [implement, htarget] at h
    cases h
  | ok d =>
    rw [g.implement_of_target htarget] at h
    obtain ⟨hresult, rfl⟩ := Prod.mk.inj h
    refine ⟨d, rfl, Prod.ext ?_ rfl⟩
    cases hrun : (g.writeStub d root s).1 with
    | error e =>
      rw [hrun] at hresult
      cases hresult
    | ok p =>
      rw [hrun] at hresult
      cases hresult
      rfl

/-- A successful run leaves the implementation at its path, as one text in UTF-8, escaped as a whole
if it is to be, and changes nothing else but for the directories that hold it. Running again changes
nothing. -/
theorem implement_writes_text {t : TypeRef} {root : FilePath} (hs : s.disk.Sound)
    (h : g.implement t root s = (.ok path, s')) :
    ∃ d text serial, g.target t = .ok d ∧ path = g.sourcePath d root ∧ g.text d = .ok text ∧
      s.disk.Writes path serial (OutputUnit.encode g.settings.escapeUnicode text) s'.disk ∧
      s'.disk.readBytes path = .ok (Text.utf8 (if g.settings.escapeUnicode
        then String.ofList (Text.escapeNonAscii text.toList) else text)) ∧
      ∃ s'', g.implement t root s' = (.ok path, s'') ∧ s''.disk = s'.disk := by
  obtain ⟨d, htarget, hrun⟩ := g.implement_eq_ok h
  obtain ⟨hpath, text, serial, htext, hwrites⟩ := g.writes_of_writeStub hs hrun
  refine ⟨d, text, serial, htarget, hpath, htext, hwrites, hwrites.hasFile.readBytes, ?_⟩
  rw [hpath] at hwrites ⊢
  obtain ⟨s'', hagain, hdisk⟩ := g.writeStub_of_writes htext hwrites
  refine ⟨s'', ?_, ?_⟩
  · rw [g.implement_of_target htarget, hagain]
    rfl
  · rw [hdisk, Disk.setBytes_of_get? hwrites.sound hwrites.file]

end Generator

/-! ## A name that is not ASCII, over an older file -/

namespace Greeting

/-- A method whose name is not ASCII. -/
def greet : Method := { name := "grüße", modifiers := .ofList [.publicAccess, .abstract] }

/-- The interface `Greeter` with that method. -/
def greeter : Declaration := { Declaration.interface ⟨"Greeter"⟩ with methods := [greet] }

/-- The generator over the interface, which escapes characters outside ASCII. -/
def generator : Generator := ⟨⟨[greeter]⟩, { escapeUnicode := true }⟩

/-- A session on a disk that holds a longer file where the implementation goes. -/
def session : Session where
  disk :=
    { entries := [(["out"], .directory),
        (["out", "GreeterImpl.java"], .file 0 (List.replicate 200 0x2A))]
      nextSerial := 1
      workingDirectory := [] }

theorem sound_session : session.disk.Sound :=
  Disk.sound_of_serials (by decide) (by decide) (by decide) (by decide) (by decide)

/-- The members of the implementation of `Greeter`. -/
def members : Members :=
  ⟨[⟨{ modifiers := .ofList [.publicAccess] }, ⟨"Greeter"⟩, true⟩], [⟨greet, ⟨"Greeter"⟩⟩]⟩

/-- The pieces of the implementation of `Greeter`. -/
def pieces : List String :=
  ["public class GreeterImpl implements Greeter \x7b\n",
    "\n    @Override\n    public void grüße() \x7b\n    \x7d\n", "\x7d\n"]

theorem members_greeter : generator.members greeter = .ok members := by cbv

theorem takePieces_greeter :
    Stub.takePieces ((generator.stub greeter).pieces members) = (pieces, none) := by
  have hheader : (generator.stub greeter).header =
      .ok "public class GreeterImpl implements Greeter \x7b\n" :=
    (Stub.header_of_renderName (Scope.renderName_of_topLevel (by decide)) rfl).trans
      (congrArg Except.ok (by decide))
  have hmethod : (generator.stub greeter).method ⟨greet, ⟨"Greeter"⟩⟩ =
      .ok "\n    @Override\n    public void grüße() \x7b\n    \x7d\n" :=
    (Stub.method_of_void rfl rfl rfl rfl rfl).trans (congrArg Except.ok (by decide))
  show Stub.takePieces ((generator.stub greeter).header ::
    (generator.stub greeter).method ⟨greet, ⟨"Greeter"⟩⟩ :: [.ok "\x7d\n"]) = _
  rw [hheader, hmethod]
  rfl

theorem writeUnit_greeter :
    (generator.writeUnit (generator.sourcePath greeter ⟨"out"⟩) (pieces.map .ok) session).1 =
      .ok ⟨"out/GreeterImpl.java"⟩ := by
  decide

theorem implement_greeter :
    (generator.implement (.named ⟨"Greeter"⟩) ⟨"out"⟩ session).1 =
      .ok ⟨"out/GreeterImpl.java"⟩ := by
  have htarget : generator.target (.named ⟨"Greeter"⟩) = .ok greeter := by cbv
  have hmalformed : Closure.malformed generator.registry greeter = [] := by cbv
  rw [generator.implement_of_takePieces (pieces.map .ok) htarget members_greeter hmalformed
    takePieces_greeter, writeUnit_greeter]
  rfl

theorem implement_writes_text_of_greeter :
    let path : FilePath := ⟨"out/GreeterImpl.java"⟩
    let s' := (generator.implement (.named ⟨"Greeter"⟩) ⟨"out"⟩ session).2
    (session.disk.Sound ∧
      generator.implement (.named ⟨"Greeter"⟩) ⟨"out"⟩ session = (.ok path, s')) ∧
    ∃ d text serial, generator.target (.named ⟨"Greeter"⟩) = .ok d ∧
      path = generator.sourcePath d ⟨"out"⟩ ∧ generator.text d = .ok text ∧
      session.disk.Writes path serial (OutputUnit.encode true text) s'.disk ∧
      s'.disk.readBytes path =
        .ok (Text.utf8 (String.ofList (Text.escapeNonAscii text.toList))) ∧
      ∃ s'', generator.implement (.named ⟨"Greeter"⟩) ⟨"out"⟩ s' = (.ok path, s'') ∧
        s''.disk = s'.disk := by
  intro path s'
  have hrun : generator.implement (.named ⟨"Greeter"⟩) ⟨"out"⟩ session = (.ok path, s') :=
    Prod.ext implement_greeter rfl
  exact ⟨⟨sound_session, hrun⟩, generator.implement_writes_text sound_session hrun⟩

end Greeting

end StubGen
