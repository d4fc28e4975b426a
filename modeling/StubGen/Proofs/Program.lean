import StubGen.Program
import StubGen.Proofs.Except
import StubGen.Proofs.Pieces

/-!
# What is handed to the compiler

A program gets its arguments as texts, so a classpath has to be written as one. Whoever reads the
text cuts it at the separators, which gives the entries back only if none of them holds a separator
itself. A classpath with such an entry is refused, and so is an argument that would end at a NUL; no
program is called then. Otherwise the compiler of the settings is called, with the classpath as it
is read back, and what it answers is the answer.

Main results:

* `Classpath.pieces_text` — the text of a classpath is cut into its entries;
* `Settings.compile_externalCompiler` — what is called, and when nothing is.
-/

namespace StubGen

namespace Classpath

variable {ps : List FilePath} {text : String}

theorem text_eq_ok_iff : Classpath.text ps = .ok text ↔
    (∀ p ∈ ps, ':' ∉ p.chars) ∧ ":".intercalate (ps.map FilePath.text) = text := by
  rw [Classpath.text]
  split
  · rename_i hany
    obtain ⟨p, hp, hsep⟩ := List.any_eq_true.1 hany
    exact iff_of_false (fun h => nomatch h) fun h => h.1 p hp (by simpa using hsep)
  · rename_i hnone
    rw [Except.ok.injEq, and_iff_right fun p hp hsep =>
      hnone (List.any_eq_true.2 ⟨p, hp, by simpa using hsep⟩)]

theorem text_eq_error (h : ∃ p ∈ ps, ':' ∈ p.chars) :
    Classpath.text ps = .error .separatorInEntry := by
  obtain ⟨p, hp, hsep⟩ := h
  rw [Classpath.text, if_pos (List.any_eq_true.2 ⟨p, hp, by simpa using hsep⟩)]

/-- The text of a list of paths is the paths with the separator between them. -/
theorem toList_intercalate (ps : List FilePath) :
    (":".intercalate (ps.map FilePath.text)).toList = Text.join ':' (ps.map FilePath.chars) := by
  induction ps with
  | nil => rfl
  | cons p ps ih =>
    cases ps with
    | nil => rw [List.map_singleton, String.intercalate_singleton]; rfl
    | cons q ps =>
      rw [List.map_cons, List.map_cons, String.intercalate_cons_cons, ← List.map_cons,
        String.toList_append, String.toList_append, ih]
      simp [Text.join, FilePath.chars]

/-- What is written as one text is read as the same entries. -/
theorem pieces_text (hne : ps ≠ []) (h : Classpath.text ps = .ok text) :
    (Text.pieces ':' text.toList).map (fun p => ⟨String.ofList p⟩) = ps := by
  obtain ⟨hsep, rfl⟩ := text_eq_ok_iff.1 h
  rw [toList_intercalate, Text.pieces_join (by simpa using hne) (by simpa using hsep),
    List.map_map]
  exact List.map_id'' (fun p => congrArg FilePath.mk String.ofList_toList) ps

end Classpath

/-- The arguments of a compiler: those of the settings, the classpath after its option unless there
is none, and the source at the end. -/
inductive Compiler.Hands (arguments : List String) (source : FilePath) (classpath : List FilePath) :
    List String → Prop
  | withoutClasspath (hnone : classpath = []) :
      Hands arguments source classpath (arguments ++ [source.text])
  | withClasspath {text : String} (hsome : classpath ≠ [])
      (htext : (Text.pieces ':' text.toList).map (fun p => ⟨String.ofList p⟩) = classpath) :
      Hands arguments source classpath (arguments ++ ["-cp", text, source.text])

section

variable {arguments : List String} {source : FilePath} {classpath : List FilePath}

theorem compilerArguments_of_mem (h : ∃ p ∈ classpath, ':' ∈ p.chars) :
    compilerArguments arguments source classpath = .error .separatorInEntry := by
  obtain ⟨p, hp, hsep⟩ := h
  have hsome : ¬ classpath.isEmpty = true := fun hnone =>
    List.not_mem_nil (List.isEmpty_iff.1 hnone ▸ hp)
  rw [compilerArguments, if_neg hsome, Classpath.text_eq_error ⟨p, hp, hsep⟩]
  rfl

theorem compilerArguments_of_not_mem (h : ∀ p ∈ classpath, ':' ∉ p.chars) :
    ∃ handed, compilerArguments arguments source classpath = .ok handed ∧
      Compiler.Hands arguments source classpath handed := by
  rw [compilerArguments]
  split
  · rename_i hnone
    exact ⟨_, rfl, .withoutClasspath (List.isEmpty_iff.1 hnone)⟩
  · rename_i hsome
    have hne : classpath ≠ [] := mt List.isEmpty_iff.2 hsome
    have htext := Classpath.text_eq_ok_iff.2 ⟨h, rfl⟩
    exact ⟨_, by rw [htext]; rfl, .withClasspath hne (Classpath.pieces_text hne htext)⟩

end

/-- The compiler of the settings is called with their arguments, with the classpath if there is one,
and with the source, and what it answers is the answer. It is not called if an entry of the classpath
holds the separator, or if the name of the compiler or an argument holds a NUL; this leaves the
session as it was. -/
theorem Settings.compile_externalCompiler (g : Settings) (programs : Programs) (source : FilePath)
    (classpath : List FilePath) (s : Session) :
    let answer := (g.externalCompiler programs).compile source classpath s
    ((∃ p ∈ classpath, ':' ∈ p.chars) → answer = (.error .separatorInEntry, s)) ∧
    ((∀ p ∈ classpath, ':' ∉ p.chars) →
      ∃ handed, Compiler.Hands g.compilerArgs source classpath handed ∧
        ((∃ a ∈ g.compiler :: handed, '\x00' ∈ a.toList) →
          answer = (.error .nulInArgument, s)) ∧
        ((∀ a ∈ g.compiler :: handed, '\x00' ∉ a.toList) →
          answer = programs.call g.compiler handed s)) := by
  -- the check that no text holds a NUL, as a condition
  have hnul : ∀ as : List String, (as.any fun a => a.toList.contains '\x00') = true ↔
      ∃ a ∈ as, '\x00' ∈ a.toList := by
    intro as
    simp only [List.any_eq_true, List.contains_iff_mem]
  refine ⟨fun hsep => ?_, fun hsep => ?_⟩
  · -- the classpath cannot be joined, and nothing is called
    rw [externalCompiler, Compiler.program]
    dsimp only
    rw [compilerArguments_of_mem hsep]
  · -- the arguments are there, and now only a NUL can keep the program from being called
    obtain ⟨handed, hargs, hhands⟩ := compilerArguments_of_not_mem hsep
    rw [externalCompiler, Compiler.program]
    dsimp only
    rw [hargs]
    exact ⟨handed, hhands, fun h => if_pos ((hnul _).2 h), fun h => if_neg fun hany =>
      ((hnul _).1 hany).elim fun a ha => h a ha.1 ha.2⟩

/-- Two entries are handed over as one text, which holds both. -/
example : compilerArguments ["-g"] ⟨"A.java"⟩ [⟨"lib"⟩, ⟨"b.jar"⟩] =
    .ok ["-g", "-cp", "lib:b.jar", "A.java"] :=
  rfl

end StubGen
