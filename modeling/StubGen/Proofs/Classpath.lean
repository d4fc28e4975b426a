import StubGen.Packaging
import StubGen.Proofs.Locality
import StubGen.Tar.Format
import Mathlib

/-!
# What the compiler is told

An implementation is compiled against the build directory, the configured entries and what the type
and its ancestors record. The ancestors are found by a walk that may meet a type by many ways, and
several of them may record one entry. A path is added only if no earlier one is the same, so each
entry is there and none is there twice on account of an ancestor.

Main results:

* `Classpath.adds_addAll` — adding paths one after the other;
* `Classpath.adds_declared` — the entries of a type and its ancestors, each once;
* `Generator.implementArchive_congr` — the compiler is asked nothing else;
* `Generator.classpath_covers` — what is on the classpath of a run, and that it is asked about.
-/

namespace StubGen

open Relation Hierarchy

namespace FilePath

variable {p q r : FilePath}

theorem same_iff : p.same q = true ↔ p.components = q.components := beq_iff_eq

theorem same_refl (p : FilePath) : p.same p = true := same_iff.2 rfl

theorem same_trans (hpq : p.same q = true) (hqr : q.same r = true) : p.same r = true :=
  same_iff.2 ((same_iff.1 hpq).trans (same_iff.1 hqr))

end FilePath

/-! ## Adding paths -/

namespace Classpath

variable {ps qs rest : List FilePath} {p q : FilePath}

/-- Of the paths `qs`, those that are put behind `ps` are `rest`. -/
structure Adds (ps qs rest : List FilePath) : Prop where
  recorded : ∀ q ∈ rest, q ∈ qs
  complete : ∀ q ∈ qs, ∃ p ∈ ps ++ rest, q.same p = true
  /-- No path is the same as one before it. -/
  fresh : ∀ before q after, rest = before ++ q :: after → ∀ p ∈ ps ++ before, q.same p = false

theorem Adds.nil (ps : List FilePath) : Adds ps [] [] where
  recorded := fun _ hq => hq
  complete := fun q hq => nomatch hq
  fresh := fun before q after h => by simp at h

/-- A path that is there is not added. -/
theorem Adds.skip (hp : p ∈ ps) (hsame : q.same p = true) (h : Adds ps qs rest) :
    Adds ps (q :: qs) rest where
  recorded := fun x hx => List.mem_cons_of_mem _ (h.recorded x hx)
  complete := by
    intro x hx
    rcases List.mem_cons.1 hx with rfl | hx
    · exact ⟨p, List.mem_append_left _ hp, hsame⟩
    · exact h.complete x hx
  fresh := h.fresh

/-- A path that is not there is put at the end. -/
theorem Adds.cons (hnew : ∀ p ∈ ps, q.same p = false) (h : Adds (ps ++ [q]) qs rest) :
    Adds ps (q :: qs) (q :: rest) where
  recorded := by
    intro x hx
    rcases List.mem_cons.1 hx with rfl | hx
    · exact List.mem_cons_self
    · exact List.mem_cons_of_mem _ (h.recorded x hx)
  complete := by
    intro x hx
    rcases List.mem_cons.1 hx with rfl | hx
    · exact ⟨x, List.mem_append_right _ List.mem_cons_self, x.same_refl⟩
    · rw [List.append_cons]
      exact h.complete x hx
  fresh := by
    intro before x after hsplit
    -- the path itself is new, and those behind it were held against it, too
    cases before with
    | nil =>
      obtain ⟨rfl, -⟩ := List.cons.inj hsplit
      rw [List.append_nil]
      exact hnew
    | cons y before =>
      obtain ⟨rfl, hrest⟩ := List.cons.inj hsplit
      rw [List.append_cons]
      exact h.fresh before x after hrest

/-- Paths are only ever put at the end. -/
theorem adds_addAll (ps qs : List FilePath) :
    ∃ rest, addAll ps qs = ps ++ rest ∧ Adds ps qs rest := by
  induction qs generalizing ps with
  | nil => exact ⟨[], (List.append_nil ps).symm, .nil ps⟩
  | cons q qs ih =>
    show ∃ rest, addAll (add ps q) qs = ps ++ rest ∧ Adds ps (q :: qs) rest
    rw [add]
    split
    · -- the path is skipped, and the one that is there stands for it
      rename_i hany
      obtain ⟨p, hp, hsame⟩ := List.any_eq_true.1 hany
      obtain ⟨rest, hrest, hadds⟩ := ih ps
      exact ⟨rest, hrest, hadds.skip hp hsame⟩
    · rename_i hnone
      have hnew : ∀ p ∈ ps, q.same p = false := fun p hp =>
        Bool.eq_false_iff.2 fun hsame => hnone (List.any_eq_true.2 ⟨p, hp, hsame⟩)
      obtain ⟨rest, hrest, hadds⟩ := ih (ps ++ [q])
      exact ⟨q :: rest, hrest.trans (List.append_cons ps q rest).symm, .cons hnew hadds⟩

/-! ## The entries of a type and its ancestors -/

variable {r : Registry} {target : Declaration}

/-- An entry that is recorded for `target` or for something that it inherits from. -/
def IsRecorded (r : Registry) (target : Declaration) (p : FilePath) : Prop :=
  ∃ a, ReflTransGen (Parent r) target a ∧ a.classpath = some p

/-- In whatever order the clauses of a type are followed, they lead to its parents. -/
theorem leads_reverse : Leads r (fun d => d.supertypes.reverse) = Parent r := by
  funext d p
  simp only [Leads, List.mem_reverse]

theorem mem_declared (htarget : r.lookup target.name = some target) :
    p ∈ (visited r (fun d => d.supertypes.reverse) target).filterMap (·.classpath) ↔
      IsRecorded r target p := by
  simp only [List.mem_filterMap, mem_visited_iff htarget, leads_reverse, IsRecorded]

/-- What is put behind `ps` on account of a type and its ancestors. -/
theorem adds_declared (htarget : r.lookup target.name = some target) (ps : List FilePath) :
    ∃ rest, addAll ps (declared r target) = ps ++ rest ∧
      (∀ p, IsRecorded r target p → ∃ q ∈ ps ++ rest, p.same q = true) ∧
      (∀ q ∈ rest, IsRecorded r target q) ∧
      ∀ before q after, rest = before ++ q :: after → ∀ p ∈ ps ++ before, q.same p = false := by
  obtain ⟨entries, hentries, hfound⟩ := adds_addAll []
    ((visited r (fun d => d.supertypes.reverse) target).filterMap (·.classpath))
  obtain ⟨rest, hrest, hadds⟩ := adds_addAll ps entries
  rw [declared, hentries, List.nil_append]
  refine ⟨rest, hrest, fun p hp => ?_, fun q hq => ?_, hadds.fresh⟩
  · -- two steps may each have taken another path for the one that was recorded
    obtain ⟨q, hq, hpq⟩ := hfound.complete p ((mem_declared htarget).2 hp)
    obtain ⟨x, hx, hqx⟩ := hadds.complete q hq
    exact ⟨x, hx, FilePath.same_trans hpq hqx⟩
  · exact (mem_declared htarget).1 (hfound.recorded q (hadds.recorded q hq))

end Classpath

/-! ## The classpath of a run -/

/-- A job asks the compiler about its source and its classpath. -/
theorem PackageJob.run_congr (job : PackageJob) {compiler compiler' : Compiler}
    (h : ∀ s, compiler.compile job.source job.classpath s =
      compiler'.compile job.source job.classpath s) (format : ArchiveFormat) (s : Session) :
    job.run compiler format s = job.run compiler' format s := by
  rw [run, run, h]

namespace Generator

variable {g : Generator} {t : TypeRef} {d : Declaration} {archive build : FilePath}

theorem lookup_name_of_target (h : g.target t = .ok d) : g.registry.lookup d.name = some d := by
  cases t with
  | named n =>
    have hlookup := lookup_of_target h
    rwa [Registry.name_of_lookup hlookup]
  | array | var | wildcard | parameterized => cases h

/-- What a run does once the source has been written. -/
theorem implementArchive_of_implement {source : FilePath} {disk : Disk} {s s₁ : Session}
    (htarget : g.target t = .ok d) (hbuild : s.disk.makeDirectory build = .ok disk)
    (hsource : g.implement t build (s.withDisk disk) = (.ok source, s₁))
    (hextension : '/' ∉ g.settings.compiledExtension.toList) (compiler : Compiler)
    (format : ArchiveFormat) :
    g.implementArchive t archive build compiler format s =
      let (result, s₂) := (g.packageJob d build source archive).run compiler format s₁
      (result, removeBuild build s₂) := by
  rw [implementArchive, htarget]
  simp only [hbuild, packageIn, hsource]
  rw [if_neg (by simpa using hextension)]

/-- A run asks the compiler about the classpath of its target alone. -/
theorem implementArchive_congr (htarget : g.target t = .ok d) {compiler compiler' : Compiler}
    (h : ∀ source s, compiler.compile source (g.classpath d build) s =
      compiler'.compile source (g.classpath d build) s)
    (format : ArchiveFormat) (s : Session) :
    g.implementArchive t archive build compiler format s =
      g.implementArchive t archive build compiler' format s := by
  -- the source file depends on the run, the classpath does not
  have hrun : ∀ source s, (g.packageJob d build source archive).run compiler format s =
      (g.packageJob d build source archive).run compiler' format s :=
    fun source s => PackageJob.run_congr (g.packageJob d build source archive) (h source) format s
  -- `packageIn` uses the compiler only to run the job
  have hpackage : ∀ s, g.packageIn build t d archive compiler format s =
      g.packageIn build t d archive compiler' format s := by
    intro s
    simp only [packageIn, hrun]
  rw [implementArchive, implementArchive, htarget]
  simp only [hpackage]

/-- An archive run has the compiler look first in the build directory and then in the configured
entries, which stay as they are. Behind them stand entries that the type or something it inherits
from records, whatever ways lead there: all of these are on the classpath, and none of them behind
the same one. The compiler is asked about this classpath and no other, and its answer counts. -/
theorem classpath_covers (g : Generator) {t : TypeRef} {d : Declaration}
    (htarget : g.target t = .ok d) (build : FilePath) :
    (∃ ancestors, g.classpath d build = build :: g.settings.classpath ++ ancestors ∧
      (∀ a p, ReflTransGen (Parent g.registry) d a → a.classpath = some p →
        ∃ q ∈ g.classpath d build, p.same q = true) ∧
      (∀ q ∈ ancestors, ∃ a, ReflTransGen (Parent g.registry) d a ∧ a.classpath = some q) ∧
      ∀ before q after, ancestors = before ++ q :: after →
        ∀ p ∈ build :: g.settings.classpath ++ before, q.same p = false) ∧
    (∀ (archive : FilePath) (compiler compiler' : Compiler) (format : ArchiveFormat) (s : Session),
      (∀ source s, compiler.compile source (g.classpath d build) s =
        compiler'.compile source (g.classpath d build) s) →
      g.implementArchive t archive build compiler format s =
        g.implementArchive t archive build compiler' format s) ∧
    ∀ (archive source : FilePath) (compiler : Compiler) (format : ArchiveFormat) (disk : Disk)
      (s s₁ s₂ : Session) (e : IoError), s.disk.makeDirectory build = .ok disk →
      g.implement t build (s.withDisk disk) = (.ok source, s₁) →
      '/' ∉ g.settings.compiledExtension.toList →
      compiler.compile source (g.classpath d build) s₁ = (.error e, s₂) →
      g.implementArchive t archive build compiler format s =
        (.error (.compilationFailed d.name.canonical (.notRun e)), removeBuild build s₂) := by
  refine ⟨?_, fun _ _ _ format s h => implementArchive_congr htarget h format s,
    fun archive source compiler format disk s s₁ s₂ e hbuild hsource hextension hcompile => ?_⟩
  · -- the entries of the ancestors are put behind the configured ones
    obtain ⟨ancestors, hsplit, hcomplete, hrecorded, hfresh⟩ :=
      Classpath.adds_declared (lookup_name_of_target htarget) (build :: g.settings.classpath)
    refine ⟨ancestors, hsplit, fun a p ha hp => ?_, hrecorded, hfresh⟩
    rw [classpath, hsplit]
    exact hcomplete p ⟨a, ha, hp⟩
  · -- a compiler that does not run decides the outcome, so it has been asked
    rw [implementArchive_of_implement htarget hbuild hsource hextension, PackageJob.run]
    simp only [packageJob, hcompile]

end Generator

/-! ## Entries that are recorded twice -/

namespace Bundling

def interface (name : String) (supertypes : List String) (classpath : String) : Declaration :=
  { Declaration.interface ⟨name⟩ with
    interfaces := supertypes.map fun s => .named ⟨s⟩
    classpath := some ⟨classpath⟩ }

def leaf : Declaration := interface "Leaf" ["Left", "Right"] "lib/leaf.jar"

def left : Declaration := interface "Left" ["Top"] "lib/shared.jar"

def right : Declaration := interface "Right" ["Top"] "lib//shared.jar"

/-- The hierarchy closes behind this type. -/
def top : Declaration := interface "Top" ["Leaf"] "conf.jar/"

/-- The configuration has an entry twice, and another type records it, too. -/
def generator : Generator where
  registry := ⟨[leaf, left, right, top]⟩
  settings := { classpath := [⟨"conf.jar"⟩, ⟨"conf.jar"⟩] }

def session : Session where
  disk := { entries := [], nextSerial := 0, workingDirectory := [] }

/-- The session once the build directory is there. -/
def built : Session where
  disk := { entries := [(["build"], .directory)], nextSerial := 0, workingDirectory := [] }

/-- A compiler that cannot be found. -/
def compiler : Compiler := ⟨fun _ _ s => (.error (.os .notFound), s)⟩

def members : Members := ⟨[⟨{ modifiers := .ofList [.publicAccess] }, ⟨"Leaf"⟩, true⟩], []⟩

/-- The pieces of the implementation of `Leaf`. -/
def pieces : List String := ["public class LeafImpl implements Leaf \x7b\n", "\x7d\n"]

theorem target_leaf : generator.target (.named ⟨"Leaf"⟩) = .ok leaf := by cbv

theorem visited_leaf :
    visited generator.registry (fun d => d.supertypes.reverse) leaf = [leaf, right, top, left] := by
  cbv

theorem classpath_leaf :
    generator.classpath leaf ⟨"build"⟩ =
      [⟨"build"⟩, ⟨"conf.jar"⟩, ⟨"conf.jar"⟩, ⟨"lib/leaf.jar"⟩, ⟨"lib//shared.jar"⟩] := by
  have hdeclared : Classpath.declared generator.registry leaf =
      [⟨"lib/leaf.jar"⟩, ⟨"lib//shared.jar"⟩, ⟨"conf.jar/"⟩] := by
    rw [Classpath.declared, visited_leaf]
    decide
  rw [Generator.classpath, hdeclared]
  decide

theorem takePieces_leaf :
    Stub.takePieces ((generator.stub leaf).pieces members) =
      Stub.takePieces (pieces.map .ok) := by
  have hheader : (generator.stub leaf).header =
      .ok "public class LeafImpl implements Leaf \x7b\n" :=
    (Stub.header_of_renderName (Scope.renderName_of_topLevel (by decide)) rfl).trans
      (congrArg Except.ok (by decide))
  show Stub.takePieces ((generator.stub leaf).header :: [.ok "\x7d\n"]) = _
  rw [hheader]
  rfl

theorem implement_leaf :
    (generator.implement (.named ⟨"Leaf"⟩) ⟨"build"⟩ built).1 = .ok ⟨"build/LeafImpl.java"⟩ := by
  have hmembers : generator.members leaf = .ok members := by cbv
  have hmalformed : Closure.malformed generator.registry leaf = [] := by cbv
  have hwrite :
      (generator.writeUnit (generator.sourcePath leaf ⟨"build"⟩) (pieces.map .ok) built).1 =
        .ok ⟨"build/LeafImpl.java"⟩ := by decide
  rw [generator.implement_of_takePieces (pieces.map .ok) target_leaf hmembers hmalformed
    takePieces_leaf, hwrite]
  rfl

/-- The entry of `Left` is on the classpath as that of `Right`, and the compiler is asked. -/
theorem classpath_covers_of_leaf :
    generator.target (.named ⟨"Leaf"⟩) = .ok leaf ∧
    (∃ q ∈ generator.classpath leaf ⟨"build"⟩, FilePath.same ⟨"lib/shared.jar"⟩ q = true) ∧
    (∃ ancestors, generator.classpath leaf ⟨"build"⟩ =
        ⟨"build"⟩ :: [⟨"conf.jar"⟩, ⟨"conf.jar"⟩] ++ ancestors ∧
      ancestors = [⟨"lib/leaf.jar"⟩, ⟨"lib//shared.jar"⟩]) ∧
    (generator.implementArchive (.named ⟨"Leaf"⟩) ⟨"leaf.jar"⟩ ⟨"build"⟩ compiler .tar
      session).1 = .error (.compilationFailed "Leaf" (.notRun (.os .notFound))) := by
  obtain ⟨⟨ancestors, hsplit, hcomplete, -, -⟩, -, hasked⟩ :=
    generator.classpath_covers target_leaf ⟨"build"⟩
  -- the clause of `Leaf` that names `Left` makes it a parent
  have hleft : ReflTransGen (Parent generator.registry) leaf left :=
    .single ⟨.named ⟨"Left"⟩, by decide, by decide⟩
  have hbuild : session.disk.makeDirectory ⟨"build"⟩ = .ok built.disk := by decide
  refine ⟨target_leaf, hcomplete left _ hleft rfl, ⟨ancestors, hsplit, ?_⟩, ?_⟩
  · exact List.append_cancel_left (hsplit.symm.trans classpath_leaf)
  · -- the source is written, and then the compiler is asked for the classpath
    have hrun := hasked ⟨"leaf.jar"⟩ _ compiler .tar built.disk session _ _ _ hbuild
      (Prod.ext implement_leaf rfl) (by decide) rfl
    exact congrArg Prod.fst hrun

end Bundling

end StubGen
