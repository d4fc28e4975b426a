import StubGen.Packaging
import StubGen.Proofs.BinaryName.Grammar
import StubGen.Proofs.Except
import StubGen.Proofs.FilePath.Extension
import StubGen.Proofs.Render
import StubGen.Tar.Format

/-!
# Where an implementation goes

The place of a source file, the place of the compiled unit and the name of the archive entry are
each worked out in a way of their own: directories are appended for the packages, the extension of
the source file is replaced, and dots become separators. For a name that can be declared they agree,
and with the class that the source file declares, whatever the implementation is called. Only a
class that is called `.` has its unit looked for elsewhere.

Main results:

* `Generator.components_sourceDirectory`, `Generator.segments_archiveEntry` — the directories of
  both places, name by name;
* `Generator.compiled_at_entry_iff` — when they agree.
-/

namespace StubGen

/-! ## Names as segments of a path -/

namespace BinaryName

variable {cs : List Char}

/-- No identifier is a text with a dot in it. -/
theorem IsIdentifier.ofList_ne (h : IsIdentifier cs) {s : String} (hs : '.' ∈ s.toList) :
    String.ofList cs ≠ s := by
  rintro rfl
  rw [String.toList_ofList] at hs
  exact h.dot_not_mem hs

theorem IsIdentifier.isSegment (h : IsIdentifier cs) : FilePath.IsSegment (String.ofList cs) where
  ne_empty := fun hempty => h.ne_nil (by simpa using congrArg String.toList hempty)
  ne_dot := h.ofList_ne (by decide)
  noSeparator := by
    rw [String.toList_ofList]
    exact h.slash_not_mem

end BinaryName

namespace FilePath

theorem components_foldl_join (p : FilePath) {ns : List String} (hns : ∀ n ∈ ns, IsSegment n) :
    ((ns.map FilePath.mk).foldl join p).components = p.components ++ ns.map component := by
  induction ns generalizing p with
  | nil => exact (List.append_nil _).symm
  | cons n ns ih =>
    rw [List.map_cons, List.foldl_cons, ih _ fun m hm => hns m (List.mem_cons_of_mem _ hm),
      components_join p (hns n List.mem_cons_self), List.append_assoc]
    rfl

end FilePath

/-- Settings whose texts can be part of a file name: none has a separator, the extensions are not
empty, and that of a source file has no dot in it. -/
structure Settings.NameFiles (s : Settings) : Prop where
  implSuffix : '/' ∉ s.implSuffix.toList
  sourceExtension : FilePath.IsPart s.sourceExtension
  noDot : '.' ∉ s.sourceExtension.toList
  compiledExtension : FilePath.IsPart s.compiledExtension

/-- What the text of an implementation says about its package. -/
def Stub.packageClause (stub : Stub) : String :=
  if stub.target.package.isEmpty then "" else "package " ++ stub.target.package ++ ";\n\n"

/-- The name of the class stands between the package clause and the generic parameters. -/
theorem Stub.exists_header_eq {stub : Stub} {text : String} (h : stub.header = .ok text) :
    ∃ params rest, stub.scope.renderTypeParams stub.target.typeParams = .ok params ∧
      text = stub.packageClause ++ "public class " ++ stub.name ++ params ++ " " ++ rest := by
  obtain ⟨params, hparams, h⟩ := Except.bind_eq_ok_iff.1 h
  obtain ⟨supertype, -, h⟩ := Except.bind_eq_ok_iff.1 h
  obtain rfl := Except.ok.inj h
  refine ⟨params, (if stub.target.isInterface then "implements" else "extends") ++ " " ++
    supertype ++ Scope.renderTypeArgs stub.target.typeParams ++ " \x7b\n", hparams, ?_⟩
  simp only [packageClause, String.append_assoc]

namespace Generator

open FilePath (IsPart IsSegment)

variable {g : Generator} {d : Declaration}

/-! ## Places -/

/-- The names of the directories of a package. -/
def packageNames (package : String) : List String :=
  if package.isEmpty then [] else (Text.pieces '.' package.toList).map String.ofList

theorem packageSegments_eq (package : String) :
    packageSegments package = (packageNames package).map FilePath.mk := by
  rw [packageSegments, packageNames]
  split
  · rfl
  · rw [List.map_map]
    rfl

/-- The directory of the source file. -/
def sourceDirectory (d : Declaration) (root : FilePath) : FilePath :=
  (packageSegments d.package).foldl FilePath.join root

theorem isIdentifier_of_mem_packageNames (hd : d.name.IsDotted) {n : String}
    (hn : n ∈ packageNames d.package) :
    ∃ cs, BinaryName.IsIdentifier cs ∧ n = String.ofList cs := by
  rw [packageNames] at hn
  split at hn
  · cases hn
  · rename_i hne
    obtain ⟨cs, hcs, rfl⟩ := List.mem_map.1 hn
    have hpackage : d.name.package ≠ "" := fun h => hne (String.isEmpty_iff.2 h)
    exact ⟨cs, hd.isIdentifier_of_mem_package hpackage hcs, rfl⟩

/-- The directories of the package stand below the root of the source tree. -/
theorem components_sourceDirectory (hd : d.name.IsDotted) (root : FilePath) :
    (sourceDirectory d root).components =
      root.components ++ (packageNames d.package).map .name := by
  rw [sourceDirectory, packageSegments_eq, FilePath.components_foldl_join]
  · refine congrArg _ (List.map_congr_left fun n hn => ?_)
    obtain ⟨cs, hcs, rfl⟩ := isIdentifier_of_mem_packageNames hd hn
    exact FilePath.component_eq_name (hcs.ofList_ne (by decide))
  · intro n hn
    obtain ⟨cs, hcs, rfl⟩ := isIdentifier_of_mem_packageNames hd hn
    exact hcs.isSegment

theorem isPart_implementationName (hd : d.name.IsDotted) (hs : g.settings.NameFiles)
    (himplementation : g.implementationName d ≠ "") : IsPart (g.implementationName d) where
  ne_empty := himplementation
  noSeparator := by
    rw [implementationName, String.toList_append, List.mem_append, not_or]
    exact ⟨fun h => hd.slash_not_mem (BinaryName.mem_chars_of_mem_simpleName h), hs.implSuffix⟩

/-- The entry is named after the directories of the package and the compiled unit. -/
theorem segments_archiveEntry (hd : d.name.IsDotted) (hs : g.settings.NameFiles)
    (himplementation : IsPart (g.implementationName d)) :
    (Text.pieces '/' (g.archiveEntry d).toList).map String.ofList =
      packageNames d.package ++
        [g.implementationName d ++ "." ++ g.settings.compiledExtension] := by
  have hname : '/' ∉ (g.implementationName d ++ "." ++ g.settings.compiledExtension).toList := by
    simp [himplementation.noSeparator, hs.compiledExtension.noSeparator]
  rw [archiveEntry, packageNames]
  generalize g.implementationName d ++ "." ++ g.settings.compiledExtension = name at hname ⊢
  split
  · rw [Text.pieces_of_not_mem hname, List.map_singleton, String.ofList_toList, List.nil_append]
  · have hentry : ∀ cs : List Char, (String.ofList cs ++ "/" ++ name).toList =
        cs ++ '/' :: name.toList := fun cs => by simp
    have hpackage : '/' ∉ d.package.toList := hd.slash_not_mem_package
    rw [hentry, Text.pieces_append, Text.pieces_map_replace hpackage,
      Text.pieces_of_not_mem hname, List.map_append, List.map_singleton, String.ofList_toList]

/-- Where the compiled unit is looked for. -/
theorem withExtension_sourcePath (hs : g.settings.NameFiles)
    (himplementation : IsPart (g.implementationName d)) (root : FilePath) :
    (g.sourcePath d root).withExtension g.settings.compiledExtension =
      if g.implementationName d = "." then (sourceDirectory d root).join ⟨".."⟩
      else (sourceDirectory d root).join
        ⟨g.implementationName d ++ "." ++ g.settings.compiledExtension⟩ := by
  rw [sourcePath, ← sourceDirectory]
  exact FilePath.withExtension_join _ himplementation hs.sourceExtension hs.noDot
    hs.compiledExtension

theorem fileStem?_sourcePath (hs : g.settings.NameFiles)
    (himplementation : IsPart (g.implementationName d)) (root : FilePath) :
    (g.sourcePath d root).fileStem? = some (g.implementationName d) := by
  rw [sourcePath]
  exact FilePath.fileStem?_join _ himplementation hs.sourceExtension hs.noDot

/-- For a type with a name that can be declared, an implementation with a name, and settings whose
texts can be part of file names: the compiled unit is looked for where the archive entry says that
it belongs, unless the implementation is called `.`. Then it is the directory above that of the
source file that is looked for. The source file is always named after the class that it declares. -/
theorem compiled_at_entry_iff (hname : Registry.refusal? d.name = none) (hs : g.settings.NameFiles)
    (hne : g.implementationName d ≠ "") (root : FilePath) :
    let compiled := (g.sourcePath d root).withExtension g.settings.compiledExtension
    let segments := (Text.pieces '/' (g.archiveEntry d).toList).map String.ofList
    (compiled.components = root.components ++ segments.map .name ↔
      g.implementationName d ≠ ".") ∧
    (g.implementationName d = "." →
      compiled.components = root.components ++ segments.dropLast.map .name ++ [.parent]) ∧
    ∃ stem, (g.sourcePath d root).fileStem? = some stem ∧
      ∀ text, (g.stub d).header = .ok text →
        ∃ params rest, (g.stub d).scope.renderTypeParams d.typeParams = .ok params ∧
          text = (g.stub d).packageClause ++ "public class " ++ stem ++ params ++ " " ++ rest := by
  intro compiled segments
  obtain ⟨hdotted, -⟩ := Registry.refusal?_eq_none_iff.1 hname
  have himplementation := isPart_implementationName hdotted hs hne
  -- both paths end in the implementation's name, and what can differ is the extension put on it
  have hsegments : segments = packageNames d.package ++
      [g.implementationName d ++ "." ++ g.settings.compiledExtension] :=
    segments_archiveEntry hdotted hs himplementation
  have hcompiled : compiled = _ := withExtension_sourcePath hs himplementation root
  have hparent : IsSegment ".." := ⟨by decide, by decide, by decide⟩
  have hunit := FilePath.isSegment_of_stem himplementation hs.compiledExtension.noSeparator
  have hdot : g.implementationName d = "." →
      compiled.components = root.components ++ segments.dropLast.map .name ++ [.parent] := by
    intro h
    rw [hcompiled, if_pos h, FilePath.components_join _ hparent,
      components_sourceDirectory hdotted, hsegments, List.dropLast_concat]
    rfl
  refine ⟨⟨fun hagree h => ?_, fun h => ?_⟩, hdot, (g.stub d).name,
    fileStem?_sourcePath hs himplementation root, fun text h => Stub.exists_header_eq h⟩
  · -- the way to the parent directory is no name
    rw [hdot h, hsegments, List.dropLast_concat, List.map_append, ← List.append_assoc] at hagree
    cases (List.append_inj' hagree rfl).2
  · rw [hcompiled, if_neg h, FilePath.components_join _ hunit, components_sourceDirectory hdotted,
      hsegments, List.map_append, List.append_assoc,
      FilePath.component_eq_name (FilePath.ne_dots_of_stem himplementation hs.compiledExtension)]
    rfl

end Generator

/-! ## A member type, and a type without a simple name -/

namespace Nested

/-- A member type in a package. -/
def inner : Declaration := Declaration.interface ⟨"com.acme.Outer$Inner"⟩

/-- Names of implementations and of compiled units have several dots. -/
def generator : Generator :=
  ⟨⟨[inner]⟩, { implSuffix := ".Stub.", compiledExtension := "class.gz" }⟩

theorem nameFiles : generator.settings.NameFiles :=
  ⟨by decide, ⟨by decide, by decide⟩, by decide, ⟨by decide, by decide⟩⟩

theorem header_inner :
    (generator.stub inner).header = .ok ("package com.acme;\n\n" ++
      "public class Inner.Stub. implements com.acme.Outer.Inner \x7b\n") := by
  have houter : (generator.stub inner).scope.renderName ⟨"com.acme.Outer"⟩ =
      .ok "com.acme.Outer" :=
    Scope.renderName_of_topLevel (by decide)
  have hinner : (generator.stub inner).scope.renderName inner.name =
      .ok ("com.acme.Outer" ++ "." ++ inner.name.simpleName) :=
    Scope.renderName_of_enclosing (d := inner) (by decide) (by decide) (by decide) houter
  exact (Stub.header_of_renderName hinner rfl).trans (congrArg Except.ok (by decide))

/-- The unit is `./com/acme/Inner.Stub..class.gz`, and the source file is named after its class. -/
theorem compiled_at_entry_of_inner :
    (Registry.refusal? inner.name = none ∧ generator.settings.NameFiles ∧
      generator.implementationName inner ≠ "") ∧
    ((generator.sourcePath inner ⟨"."⟩).withExtension
        generator.settings.compiledExtension).components =
      (⟨"."⟩ : FilePath).components ++
        [.name "com", .name "acme", .name "Inner.Stub..class.gz"] ∧
    ∃ stem rest, (generator.sourcePath inner ⟨"."⟩).fileStem? = some stem ∧
      "package com.acme;\n\n" ++
          "public class Inner.Stub. implements com.acme.Outer.Inner \x7b\n" =
        (generator.stub inner).packageClause ++ "public class " ++ stem ++ " " ++ rest := by
  have hname : Registry.refusal? inner.name = none := by decide +kernel
  have himplementation : generator.implementationName inner ≠ "" := by decide
  obtain ⟨hagree, -, stem, hstem, hheader⟩ :=
    Generator.compiled_at_entry_iff hname nameFiles himplementation ⟨"."⟩
  have hentry : (Text.pieces '/' (generator.archiveEntry inner).toList).map String.ofList =
      ["com", "acme", "Inner.Stub..class.gz"] := by decide
  rw [hentry] at hagree
  obtain ⟨params, rest, hparams, htext⟩ := hheader _ header_inner
  obtain rfl : "" = params := Except.ok.inj hparams
  rw [String.append_empty] at htext
  exact ⟨⟨hname, nameFiles, himplementation⟩, hagree.2 (by decide), stem, rest, hstem, htext⟩

end Nested

namespace Nameless

/-- The name of the type ends in a `$`, so it has an empty simple name. -/
def nameless : Declaration := Declaration.interface ⟨"A$"⟩

/-- An implementation adds a dot to the name of its type. -/
def generator : Generator := ⟨⟨[nameless]⟩, { implSuffix := "." }⟩

/-- The settings of the generator can be part of file names. -/
theorem nameFiles : generator.settings.NameFiles :=
  ⟨by decide, ⟨by decide, by decide⟩, by decide, ⟨by decide, by decide⟩⟩

/-- A session in which the source file and the compiled unit have been written. -/
def session : Session where
  disk :=
    { entries := [(["out"], .directory), (["out", "..java"], .file 0 []),
        (["out", "..class"], .file 1 [0xCA, 0xFE])]
      nextSerial := 2
      workingDirectory := [] }

/-- A compiler that has nothing more to do. -/
def compiler : Compiler := ⟨fun _ _ s => (.ok 0, s)⟩

def job : PackageJob :=
  generator.packageJob nameless ⟨"out"⟩ (generator.sourcePath nameless ⟨"out"⟩) ⟨"out.tar"⟩

/-- The unit is where its entry says, but the directory that the build directory is in is packaged
in its place, which fails. -/
theorem compiled_ne_entry :
    Registry.refusal? nameless.name = none ∧ generator.settings.NameFiles ∧
    generator.implementationName nameless ≠ "" ∧
    job.source = ⟨"out/..java"⟩ ∧ job.compiled = ⟨"out/.."⟩ ∧ job.entry = "..class" ∧
    ((generator.sourcePath nameless ⟨"out"⟩).withExtension
      generator.settings.compiledExtension).components ≠
        (⟨"out"⟩ : FilePath).components ++
          ((Text.pieces '/' (generator.archiveEntry nameless).toList).map
            String.ofList).map .name ∧
    session.disk.readBytes ⟨"out/..class"⟩ = .ok [0xCA, 0xFE] ∧
    (job.run compiler .tar session).1 = .error (.packagingFailed "A." (.os .isADirectory)) := by
  refine ⟨by decide +kernel, nameFiles, by decide, by decide, by decide, by decide, by decide,
    by decide, by decide⟩

end Nameless

end StubGen
