import Mathlib.Data.List.Induction
import Mathlib.Data.List.ReduceOption
import StubGen.CommandLine
import StubGen.Proofs.Disk.Changes
import StubGen.Proofs.Except

/-!
# Which layer decides

Layers of settings are applied one on top of the other. Of each setting the last layer that sets it
decides, except that classpath entries add up, so layers can be merged before they are applied, in
any grouping. A run has up to five layers: of the files only those that are there, or that the
caller names, and of the environment and the arguments only what they set.

Main results:

* `Layer.merge_assoc` — how layers are grouped does not matter;
* `Settings.lastWins_foldl`, `Settings.classpath_foldl` — what layers make of settings;
* `Settings.load_eq_ok_iff`, `Settings.load_eq_error_iff` — the layers of files, and when they
  cannot be loaded;
* `CommandLine.settings_precedence` — all of this together.
-/

namespace StubGen

/-! ## Merging -/

namespace Layer

theorem merge_assoc (l m n : Layer) : (l.merge m).merge n = l.merge (m.merge n) := by
  obtain ⟨_, _, _, _, _, _, a, _⟩ := l
  obtain ⟨_, _, _, _, _, _, b, _⟩ := m
  obtain ⟨_, _, _, _, _, _, c, _⟩ := n
  simp only [merge, mk.injEq, Option.or_assoc, true_and, and_true]
  -- the classpath is all that adds up
  cases a <;> cases b <;> cases c <;> simp

/-- The layer, if it sets anything. -/
def present? (l : Layer) : Option Layer := if l = {} then none else some l

theorem present?_eq_none_iff {l : Layer} : l.present? = none ↔ l = {} := by
  rw [present?, ite_eq_left_iff]
  simp

end Layer

namespace Settings

theorem apply_empty (s : Settings) : s.apply {} = s := by
  obtain ⟨_, _, _, _, _, _, classpath, _⟩ := s
  simp [apply]

theorem foldl_present? (s : Settings) (l : Layer) : l.present?.toList.foldl apply s = s.apply l := by
  rw [Layer.present?]
  split
  · rename_i hl
    rw [hl, apply_empty]
    rfl
  · rfl

/-! ## Layers one on top of the other -/

/-- The value that the last of the layers with a value has, or the value at the start. -/
def LastWins {α : Type} (setting : Layer → Option α) (layers : List Layer) (start v : α) : Prop :=
  (∃ before l after, layers = before ++ l :: after ∧ setting l = some v ∧
    ∀ m ∈ after, setting m = none) ∨
  ((∀ l ∈ layers, setting l = none) ∧ v = start)

variable {α : Type} {setting : Layer → Option α} {layers : List Layer} {start v : α} {l : Layer}

/-- A layer on top decides if it sets a value, and changes nothing else. -/
theorem LastWins.concat (h : LastWins setting layers start v) :
    LastWins setting (layers ++ [l]) start ((setting l).getD v) := by
  cases hl : setting l with
  | some w => exact .inl ⟨layers, l, [], rfl, hl, fun m hm => absurd hm List.not_mem_nil⟩
  | none =>
    -- a layer that does not set it leaves things as they were
    have hunset : ∀ m ∈ [l], setting m = none := List.forall_mem_singleton.2 hl
    rcases h with ⟨before, m, after, rfl, hm, hafter⟩ | ⟨hnone, rfl⟩
    · refine .inl ⟨before, m, after ++ [l], by simp, hm, ?_⟩
      exact List.forall_mem_append.2 ⟨hafter, hunset⟩
    · exact .inr ⟨List.forall_mem_append.2 ⟨hnone, hunset⟩, rfl⟩

/-- A setting that every layer replaces is the one of the last layer that sets it. -/
theorem lastWins_foldl {value : Settings → α}
    (happly : ∀ s l, value (apply s l) = (setting l).getD (value s)) (s : Settings)
    (layers : List Layer) :
    LastWins setting layers (value s) (value (layers.foldl apply s)) := by
  induction layers using List.reverseRecOn with
  | nil => exact .inr ⟨fun l hl => absurd hl List.not_mem_nil, rfl⟩
  | append_singleton layers l ih =>
    rw [List.foldl_append, List.foldl_cons, List.foldl_nil, happly]
    exact ih.concat

/-- Classpath entries add up in the order of the layers. -/
theorem classpath_foldl (s : Settings) (layers : List Layer) :
    (layers.foldl apply s).classpath =
      s.classpath ++ (layers.filterMap (·.classpath)).flatten := by
  induction layers generalizing s with
  | nil => simp
  | cons l layers ih =>
    rw [List.foldl_cons, ih]
    show s.classpath ++ l.classpath.getD [] ++ _ = _
    cases hl : l.classpath with
    | none => simp [hl]
    | some entries => simp [hl]

/-- What layers make of the settings `s`: of each setting the last layer that sets it decides, and
the classpath entries of all layers are added in order. -/
structure Layered (layers : List Layer) (s t : Settings) : Prop where
  implSuffix : LastWins (·.implSuffix) layers s.implSuffix t.implSuffix
  sourceExtension : LastWins (·.sourceExtension) layers s.sourceExtension t.sourceExtension
  compiledExtension : LastWins (·.compiledExtension) layers s.compiledExtension t.compiledExtension
  escapeUnicode : LastWins (·.escapeUnicode) layers s.escapeUnicode t.escapeUnicode
  compiler : LastWins (·.compiler) layers s.compiler t.compiler
  compilerArgs : LastWins (·.compilerArgs) layers s.compilerArgs t.compilerArgs
  prelude : LastWins (·.prelude) layers s.prelude t.prelude
  classpath : t.classpath = s.classpath ++ (layers.filterMap (·.classpath)).flatten

theorem layered_foldl (s : Settings) (layers : List Layer) :
    Layered layers s (layers.foldl apply s) where
  implSuffix := lastWins_foldl (fun _ _ => rfl) s layers
  sourceExtension := lastWins_foldl (fun _ _ => rfl) s layers
  compiledExtension := lastWins_foldl (fun _ _ => rfl) s layers
  escapeUnicode := lastWins_foldl (fun _ _ => rfl) s layers
  compiler := lastWins_foldl (fun _ _ => rfl) s layers
  compilerArgs := lastWins_foldl (fun _ _ => rfl) s layers
  prelude := lastWins_foldl (fun _ _ => rfl) s layers
  classpath := classpath_foldl s layers

end Settings

/-! ## Layers of files -/

theorem Text.ofUtf8?_utf8 (s : String) : Text.ofUtf8? (Text.utf8 s) = some s := by
  have hbytes : (⟨(Text.utf8 s).toArray⟩ : ByteArray) = s.toByteArray := by
    rw [← String.utf8Encode_toList, List.utf8Encode, ByteArray.ext_iff, List.data_toByteArray,
      Text.utf8]
  rw [Text.ofUtf8?, hbytes, String.fromUTF8?, dif_pos s.isValidUTF8]
  rfl

/-- A file that was written as text is read as that text. -/
theorem Disk.readText_of_find? {d : Disk} {p : FilePath} {serial : Nat} {s : String}
    (h : d.find? p = some (.file serial (Text.utf8 s))) : d.readText p = .ok s := by
  rw [readText, Except.bind_eq_ok_iff]
  refine ⟨Text.utf8 s, readBytes_of_find? h, ?_⟩
  rw [Text.ofUtf8?_utf8]
  rfl

namespace Layer

variable {d : Disk} {p : FilePath} {l : Layer} {environment : List (String × String)}
  {explicit : Option FilePath}

/-- The file at `p` can be read, and what it says is the layer. -/
def StandsIn (d : Disk) (p : FilePath) (l : Layer) : Prop :=
  ∃ text, d.readText p = .ok text ∧ ofText text = .ok l

/-- The file at `p` cannot be read, or what it says cannot be decoded. -/
def Unusable (d : Disk) (p : FilePath) : Prop :=
  (∃ e, d.readText p = .error e) ∨ ∃ text, d.readText p = .ok text ∧ ∃ e, ofText text = .error e

theorem ofFile_eq_ok_iff : ofFile d p = .ok l ↔ StandsIn d p l := by
  rw [ofFile, Except.bind_eq_ok_iff]
  simp only [FileRole.read, Except.mapError_eq_ok_iff]
  rfl

theorem ofFile_eq_error_iff : (∃ e, ofFile d p = .error e) ↔ Unusable d p := by
  rw [Except.exists_eq_error_iff]
  simp only [ne_eq, ofFile_eq_ok_iff, StandsIn, Unusable, Except.exists_eq_error_iff]
  cases d.readText p with
  | error e => simp
  | ok text => simp

/-- The files that count: those that need not be there if they are, and the one that is named. -/
theorem files_eq (d : Disk) (environment : List (String × String)) (explicit : Option FilePath) :
    files d environment explicit =
      ((userFile? environment).filter d.isFile).toList ++
        ((some fileName).filter d.isFile).toList ++ explicit.toList := by
  rw [files, List.filter_append, Option.toList_filter, Option.toList_filter, Option.toList_some]

theorem mem_files_iff : p ∈ files d environment explicit ↔
    (userFile? environment).filter d.isFile = some p ∨ (some fileName).filter d.isFile = some p ∨
      explicit = some p := by
  rw [files_eq, List.mem_append, List.mem_append, Option.mem_toList, Option.mem_toList,
    Option.mem_toList, or_assoc]

end Layer

namespace Settings

open Layer (StandsIn Unusable)

variable {d : Disk} {environment : List (String × String)} {explicit : Option FilePath}
  {s : Settings}

/-- Every file that counts gives a layer, in order, and the environment gives the last. -/
theorem load_eq_ok_iff : load d environment explicit = .ok s ↔
    ∃ user working named,
      Option.Rel (StandsIn d) ((Layer.userFile? environment).filter d.isFile) user ∧
      Option.Rel (StandsIn d) ((some Layer.fileName).filter d.isFile) working ∧
      Option.Rel (StandsIn d) explicit named ∧
      s = (user.toList ++ working.toList ++ named.toList ++
        [Layer.ofEnvironment environment]).foldl apply {} := by
  -- the list of files is cut into its three places, each of which has one file at most
  rw [load, Layer.files_eq, List.mapM_append, List.mapM_append]
  simp only [Except.bind_eq_ok_iff, Except.mapM_toList_eq_ok_iff, Layer.ofFile_eq_ok_iff]
  -- each place gives the layer of its file, or none if there is no file
  constructor
  · rintro ⟨_, ⟨_, ⟨_, ⟨user, huser, rfl⟩, _, ⟨working, hworking, rfl⟩, ⟨⟩⟩, _,
      ⟨named, hnamed, rfl⟩, ⟨⟩⟩, ⟨⟩⟩
    exact ⟨user, working, named, huser, hworking, hnamed, rfl⟩
  · rintro ⟨user, working, named, huser, hworking, hnamed, rfl⟩
    exact ⟨_, ⟨_, ⟨_, ⟨user, huser, rfl⟩, _, ⟨working, hworking, rfl⟩, rfl⟩, _,
      ⟨named, hnamed, rfl⟩, rfl⟩, rfl⟩

theorem load_eq_error_iff : (∃ e, load d environment explicit = .error e) ↔
    ∃ p, ((Layer.userFile? environment).filter d.isFile = some p ∨
      (some Layer.fileName).filter d.isFile = some p ∨ explicit = some p) ∧ Unusable d p := by
  -- after the files nothing can go wrong, for the variables need no decoding
  have hfiles : (∃ e, load d environment explicit = .error e) ↔
      ∃ e, (Layer.files d environment explicit).mapM (Layer.ofFile d) = .error e := by
    rw [load]
    cases (Layer.files d environment explicit).mapM (Layer.ofFile d) <;>
      simp [bind, Except.bind, pure, Except.pure]
  rw [hfiles, Except.mapM_eq_error_iff]
  simp only [Layer.mem_files_iff, Layer.ofFile_eq_error_iff]

end Settings

/-! ## The layers of a run -/

theorem Layer.compiler_ofEnvironment_iff {bindings : List (String × String)} {v : String} :
    (Layer.ofEnvironment bindings).compiler = some v ↔
      bindings.lookup Layer.compilerVariable = some v ∧ v ≠ "" := by
  show (bindings.lookup Layer.compilerVariable).filter _ = some v ↔ _
  rw [Option.filter_eq_some_iff, bne_iff_ne]

theorem Layer.classpath_ofEnvironment_iff {bindings : List (String × String)}
    {entries : List FilePath} :
    (Layer.ofEnvironment bindings).classpath = some entries ↔
      ∃ v, (bindings.lookup Layer.classpathVariable = some v ∧ v ≠ "") ∧
        (Text.pieces ':' v.toList).map (fun p => ⟨String.ofList p⟩) = entries := by
  show ((bindings.lookup Layer.classpathVariable).filter _).map _ = some entries ↔ _
  simp only [Option.map_eq_some_iff, Option.filter_eq_some_iff, bne_iff_ne]

/-- The environment makes no layer if its variables are empty, as if they were not there. -/
theorem Layer.ofEnvironment_eq_empty_iff {bindings : List (String × String)} :
    Layer.ofEnvironment bindings = {} ↔
      ∀ name ∈ [Layer.compilerVariable, Layer.classpathVariable],
        ∀ v, bindings.lookup name = some v → v = "" := by
  have hunset : ∀ name, Layer.setting? bindings name = none ↔
      ∀ v, bindings.lookup name = some v → v = "" := by
    intro name
    rw [Layer.setting?, Option.filter_eq_none_iff]
    simp
  simp only [Layer.ofEnvironment, Layer.mk.injEq, Option.map_eq_none_iff, hunset,
    List.forall_mem_cons]
  tauto

namespace CommandLine

theorem Arguments.value?_eq_none_iff {a : Arguments} {s : Switch} :
    a.value? s = none ↔ a.has s = false := by
  rw [value?, values, List.head?_eq_none_iff, List.map_eq_nil_iff, List.filter_eq_nil_iff, has,
    List.any_eq_false]

/-- What arguments set: the suffix and the compiler that they give, the classpath entries in their
order, and the two settings that can only be switched off. All else is for files to set. -/
structure Arguments.Sets (a : Arguments) (l : Layer) : Prop where
  implSuffix : l.implSuffix = a.value? .suffix
  sourceExtension : l.sourceExtension = none
  compiledExtension : l.compiledExtension = none
  escapeUnicode : ∀ b, l.escapeUnicode = some b ↔ a.has .rawUnicode = true ∧ b = false
  compiler : l.compiler = a.value? .compiler
  compilerArgs : l.compilerArgs = none
  classpath : ∀ entries, l.classpath = some entries ↔
    a.has .classpath = true ∧ (a.values .classpath).map FilePath.mk = entries
  prelude : ∀ b, l.prelude = some b ↔ a.has .noPrelude = true ∧ b = false

/-- The layer of an invocation is what its arguments set. -/
theorem Arguments.sets_invocation (a : Arguments) : a.Sets a.invocation.layer where
  implSuffix := rfl
  sourceExtension := rfl
  compiledExtension := rfl
  escapeUnicode b := by
    rw [invocation, Option.ite_none_right_eq_some, Option.some_inj]
    exact and_congr_right fun _ => eq_comm
  compiler := rfl
  compilerArgs := rfl
  classpath entries := by rw [invocation, Option.ite_none_right_eq_some, Option.some_inj]
  prelude b := by
    rw [invocation, Option.ite_none_right_eq_some, Option.some_inj]
    exact and_congr_right fun _ => eq_comm

/-- The arguments make no layer if none of them is a setting. -/
theorem Arguments.layer_eq_empty_iff {a : Arguments} :
    a.invocation.layer = {} ↔
      ∀ s ∈ [Switch.suffix, .compiler, .classpath, .noPrelude, .rawUnicode], a.has s = false := by
  simp only [invocation, Layer.mk.injEq, value?_eq_none_iff, ite_eq_right_iff, reduceCtorEq,
    imp_false, Bool.not_eq_true, List.forall_mem_cons]
  tauto

theorem reduceOption_cons_eq_append {α : Type} (a? : Option α) (as : List (Option α)) :
    (a? :: as).reduceOption = a?.toList ++ as.reduceOption := by
  cases a? <;> rfl

namespace Invocation

variable (i : Invocation) (env : Environment) (d : Disk) {s : Settings}

/-- The settings of a run are made by the layers that are there, from the bottom up. -/
theorem settings_eq_ok_iff : i.settings env d = .ok s ↔
    ∃ user working named,
      Option.Rel (Layer.StandsIn d) ((Layer.userFile? env.bindings).filter d.isFile) user ∧
      Option.Rel (Layer.StandsIn d) ((some Layer.fileName).filter d.isFile) working ∧
      Option.Rel (Layer.StandsIn d) i.config named ∧
      s = [user, working, named, (Layer.ofEnvironment env.bindings).present?,
        i.layer.present?].reduceOption.foldl .apply {} := by
  -- layers that set nothing may be left out
  have hlayers : ∀ user working named : Option Layer,
      [user, working, named, (Layer.ofEnvironment env.bindings).present?,
        i.layer.present?].reduceOption.foldl Settings.apply {} =
      ((user.toList ++ working.toList ++ named.toList ++
        [Layer.ofEnvironment env.bindings]).foldl Settings.apply {}).apply i.layer := by
    intro user working named
    simp only [reduceOption_cons_eq_append, List.reduceOption_nil, List.append_nil,
      List.foldl_append, Settings.foldl_present?, List.foldl_cons, List.foldl_nil]
  simp only [hlayers]
  rw [settings, Except.bind_eq_ok_iff]
  simp only [Settings.load_eq_ok_iff]
  constructor
  · rintro ⟨_, ⟨user, working, named, huser, hworking, hnamed, rfl⟩, ⟨⟩⟩
    exact ⟨user, working, named, huser, hworking, hnamed, rfl⟩
  · rintro ⟨user, working, named, huser, hworking, hnamed, rfl⟩
    exact ⟨_, ⟨user, working, named, huser, hworking, hnamed, rfl⟩, rfl⟩

theorem settings_eq_error_iff : (∃ e, i.settings env d = .error e) ↔
    ∃ p, ((Layer.userFile? env.bindings).filter d.isFile = some p ∨
      (some Layer.fileName).filter d.isFile = some p ∨ i.config = some p) ∧
        Layer.Unusable d p := by
  rw [← Settings.load_eq_error_iff, settings]
  cases Settings.load d env.bindings i.config <;> simp [bind, Except.bind, pure, Except.pure]

/-- A run generates with its settings, if they can be loaded, over the types that they let it
read. -/
theorem generator_eq_ok_iff (g : Generator) : i.generator env d = .ok g ↔
    i.settings env d = .ok g.settings ∧ i.registry g.settings d = .ok g.registry ∧
      Inheritance.validate g.registry = .ok () := by
  rw [generator]
  simp only [Except.bind_eq_ok_iff, Except.mapError_eq_ok_iff]
  constructor
  · rintro ⟨s, hs, r, hr, ⟨⟩, hvalid, ⟨⟩⟩
    exact ⟨hs, hr, hvalid⟩
  · rintro ⟨hs, hr, hvalid⟩
    exact ⟨g.settings, hs, g.registry, hr, (), hvalid, rfl⟩

end Invocation

/-- Of each setting the last layer that sets it decides, and classpath entries add up; so layers may
be merged before they are applied, in any grouping. The layers of a run are, from the bottom up,
the file of the user and the file in the working directory if they are there, the file that the
arguments name, the variables of the environment that are not empty, and the arguments: a variable
sets the compiler or the classpath, a switch sets the setting it is for, and neither sets anything
else. The layers cannot be loaded exactly if one of these files cannot be read or decoded. -/
theorem settings_precedence :
    (∀ (s : Settings) (layers : List Layer), s.Layered layers (layers.foldl .apply s)) ∧
    (∀ (s : Settings) (l m : Layer), (s.apply l).apply m = s.apply (l.merge m)) ∧
    (∀ l m n : Layer, (l.merge m).merge n = l.merge (m.merge n)) ∧
    ∀ (a : Arguments) (env : Environment) (d : Disk),
      let i := a.invocation
      let user? := (Layer.userFile? env.bindings).filter d.isFile
      let working? := (some Layer.fileName).filter d.isFile
      let environment := Layer.ofEnvironment env.bindings
      (∀ s, i.settings env d = .ok s ↔
        ∃ user working named,
          Option.Rel (Layer.StandsIn d) user? user ∧
          Option.Rel (Layer.StandsIn d) working? working ∧
          Option.Rel (Layer.StandsIn d) i.config named ∧
          s = [user, working, named, environment.present?, i.layer.present?].reduceOption.foldl
            .apply {}) ∧
      ((∃ e, i.settings env d = .error e) ↔
        ∃ p, (user? = some p ∨ working? = some p ∨ i.config = some p) ∧ Layer.Unusable d p) ∧
      (environment.present? = none ↔
        ∀ name ∈ [Layer.compilerVariable, Layer.classpathVariable],
          ∀ v, env.bindings.lookup name = some v → v = "") ∧
      (∀ v, environment.compiler = some v ↔
        env.bindings.lookup Layer.compilerVariable = some v ∧ v ≠ "") ∧
      (∀ entries, environment.classpath = some entries ↔
        ∃ v, (env.bindings.lookup Layer.classpathVariable = some v ∧ v ≠ "") ∧
          (Text.pieces ':' v.toList).map (fun p => ⟨String.ofList p⟩) = entries) ∧
      environment = { compiler := environment.compiler, classpath := environment.classpath } ∧
      a.Sets i.layer ∧
      (i.layer.present? = none ↔
        ∀ s ∈ [Switch.suffix, .compiler, .classpath, .noPrelude, .rawUnicode], a.has s = false) ∧
      (∀ g, i.generator env d = .ok g ↔
        i.settings env d = .ok g.settings ∧ i.registry g.settings d = .ok g.registry ∧
          Inheritance.validate g.registry = .ok ()) := by
  refine ⟨Settings.layered_foldl, Settings.apply_merge, Layer.merge_assoc, fun a env d => ?_⟩
  intro i user? working? environment
  -- the clauses on variables and on switches are about one layer each
  refine ⟨fun s => i.settings_eq_ok_iff env d, i.settings_eq_error_iff env d, ?_,
    fun v => Layer.compiler_ofEnvironment_iff, fun entries => Layer.classpath_ofEnvironment_iff,
    rfl, a.sets_invocation, ?_, i.generator_eq_ok_iff env d⟩
  · rw [Layer.present?_eq_none_iff, Layer.ofEnvironment_eq_empty_iff]
  · rw [Layer.present?_eq_none_iff, Arguments.layer_eq_empty_iff]

/-- A later compiler replaces an earlier one, and later classpath entries follow earlier ones. -/
example :
    let layers : List Layer :=
      [{ compiler := some "ecj", classpath := some [⟨"a.jar"⟩] }, { compiler := some "javac-21" },
        { classpath := some [⟨"b.jar"⟩] }]
    layers.foldl Settings.apply {} =
      { compiler := "javac-21", classpath := [⟨"a.jar"⟩, ⟨"b.jar"⟩] } := by
  decide

end CommandLine

/-! ## A run with every layer -/

namespace Layering

open CommandLine

def userText : String := "compiler='a'\ncompiler-args=['-g']\nclasspath=['a.jar']\n"

def userLayer : Layer :=
  { compiler := some "a", compilerArgs := some ["-g"], classpath := some [⟨"a.jar"⟩] }

def workingText : String := "compiler='b'\nclasspath=['b.jar']\n"

def workingLayer : Layer := { compiler := some "b", classpath := some [⟨"b.jar"⟩] }

def namedText : String := "impl-suffix='Stub'\nclasspath=['c.jar']\n"

def namedLayer : Layer := { implSuffix := some "Stub", classpath := some [⟨"c.jar"⟩] }

def disk : Disk where
  entries :=
    [(["home"], .directory), (["home", "implgen"], .directory),
      (["home", "implgen", "implgen.toml"], .file 0 (Text.utf8 userText)),
      (["work"], .directory), (["work", "implgen.toml"], .file 1 (Text.utf8 workingText)),
      (["work", "named.toml"], .file 2 (Text.utf8 namedText))]
  nextSerial := 3
  workingDirectory := ["work"]

/-- The variable for the compiler is there, but empty. -/
def environment : Environment where
  bindings :=
    [("XDG_CONFIG_HOME", "/home"), ("IMPLGEN_COMPILER", ""), ("IMPLGEN_CLASSPATH", "d.jar")]
  build := ⟨"/tmp/build"⟩
  programs := ⟨fun _ _ s => (.error (.os .notFound), s)⟩

def arguments : Arguments where
  targets := ["Api"]
  options := [(.types, "api.toml"), (.config, "named.toml"), (.classpath, "e.jar")]

theorem standsIn_user : Layer.StandsIn disk ⟨"/home/implgen/implgen.toml"⟩ userLayer := by
  have hthere : disk.find? ⟨"/home/implgen/implgen.toml"⟩ =
      some (.file 0 (Text.utf8 userText)) := rfl
  exact ⟨userText, Disk.readText_of_find? hthere, by decide +kernel⟩

theorem standsIn_working : Layer.StandsIn disk Layer.fileName workingLayer := by
  have hthere : disk.find? Layer.fileName = some (.file 1 (Text.utf8 workingText)) := rfl
  exact ⟨workingText, Disk.readText_of_find? hthere, by decide +kernel⟩

theorem standsIn_named : Layer.StandsIn disk ⟨"named.toml"⟩ namedLayer := by
  have hthere : disk.find? ⟨"named.toml"⟩ = some (.file 2 (Text.utf8 namedText)) := rfl
  exact ⟨namedText, Disk.readText_of_find? hthere, by decide +kernel⟩

/-- The file in the working directory replaces the compiler of the user, and the empty variable does
not; the entries of all five layers come to the classpath. -/
theorem settings_precedence_of_arguments :
    arguments.invocation.settings environment disk = .ok
      { implSuffix := "Stub", compiler := "b", compilerArgs := ["-g"]
        classpath := [⟨"a.jar"⟩, ⟨"b.jar"⟩, ⟨"c.jar"⟩, ⟨"d.jar"⟩, ⟨"e.jar"⟩] } := by
  obtain ⟨-, -, -, hrun⟩ := settings_precedence
  refine ((hrun arguments environment disk).1 _).2
    ⟨some userLayer, some workingLayer, some namedLayer, ?_, ?_, ?_, by decide⟩
  · exact .some standsIn_user
  · exact .some standsIn_working
  · exact .some standsIn_named

end Layering

end StubGen
