import StubGen.Metadata.Decode

/-!
# Settings

A run is governed by settings that come in layers. A layer sets some of them; a later layer wins,
except that classpath entries add up.

Main results:

* `apply_merge` — applying two layers is applying the one they merge to.
-/

namespace StubGen

/-- The settings of a run. -/
structure Settings where
  /-- What the name of an implementation adds to the name of its type. -/
  implSuffix : String := "Impl"
  sourceExtension : String := "java"
  compiledExtension : String := "class"
  /-- Whether characters outside ASCII are escaped in source text. -/
  escapeUnicode : Bool := true
  compiler : String := "javac"
  compilerArgs : List String := []
  classpath : List FilePath := []
  /-- Whether the root types are declared without being asked for. -/
  prelude : Bool := true
deriving DecidableEq, Inhabited

/-- One layer of settings. -/
structure Layer where
  implSuffix : Option String := none
  sourceExtension : Option String := none
  compiledExtension : Option String := none
  escapeUnicode : Option Bool := none
  compiler : Option String := none
  compilerArgs : Option (List String) := none
  classpath : Option (List FilePath) := none
  prelude : Option Bool := none
deriving DecidableEq, Inhabited

/-- The settings with a layer on top. -/
def Settings.apply (s : Settings) (l : Layer) : Settings where
  implSuffix := l.implSuffix.getD s.implSuffix
  sourceExtension := l.sourceExtension.getD s.sourceExtension
  compiledExtension := l.compiledExtension.getD s.compiledExtension
  escapeUnicode := l.escapeUnicode.getD s.escapeUnicode
  compiler := l.compiler.getD s.compiler
  compilerArgs := l.compilerArgs.getD s.compilerArgs
  classpath := s.classpath ++ l.classpath.getD []
  prelude := l.prelude.getD s.prelude

namespace Layer

/-- The layer that two layers make, the second on top. -/
def merge (l m : Layer) : Layer where
  implSuffix := m.implSuffix.or l.implSuffix
  sourceExtension := m.sourceExtension.or l.sourceExtension
  compiledExtension := m.compiledExtension.or l.compiledExtension
  escapeUnicode := m.escapeUnicode.or l.escapeUnicode
  compiler := m.compiler.or l.compiler
  compilerArgs := m.compilerArgs.or l.compilerArgs
  classpath :=
    match l.classpath, m.classpath with
    | some a, some b => some (a ++ b)
    | a, b => b.or a
  prelude := m.prelude.or l.prelude

/-- The variable that names the compiler. -/
def compilerVariable : String := "IMPLGEN_COMPILER"

/-- The variable that lists classpath entries. -/
def classpathVariable : String := "IMPLGEN_CLASSPATH"

/-- The value of a variable, unless it is empty. -/
def setting? (environment : List (String × String)) (name : String) : Option String :=
  (environment.lookup name).filter (· != "")

/-- The layer that the environment sets. -/
def ofEnvironment (environment : List (String × String)) : Layer where
  compiler := setting? environment compilerVariable
  classpath := (setting? environment classpathVariable).map fun v =>
    (Text.pieces ':' v.toList).map fun p => ⟨String.ofList p⟩

end Layer

theorem Settings.apply_merge (s : Settings) (l m : Layer) :
    (s.apply l).apply m = s.apply (l.merge m) := by
  cases l with | mk _ _ _ _ _ _ c _ => cases m with | mk _ _ _ _ _ _ d _ =>
  simp only [Settings.apply, Layer.merge, Settings.mk.injEq, Option.getD_or, true_and, and_true]
  cases c <;> cases d <;> simp

namespace Decode

/-- Reads a layer; a layer has no other entries than the settings. -/
def layer (dialect : Dialect) : Document → Except DecodeError Layer :=
  Schema.read dialect
    { start := {}
      isClosed := true
      fields := [
        field "impl-suffix" (optional text) fun v r => { r with implSuffix := v },
        field "source-extension" (optional text) fun v r => { r with sourceExtension := v },
        field "compiled-extension" (optional text) fun v r => { r with compiledExtension := v },
        field "escape-unicode" (optional flag) fun v r => { r with escapeUnicode := v },
        field "compiler" (optional text) fun v r => { r with compiler := v },
        field "compiler-args" (optional (list text)) fun v r => { r with compilerArgs := v },
        field "classpath" (optional (list path)) fun v r => { r with classpath := v },
        field "prelude" (optional flag) fun v r => { r with prelude := v }] }

end Decode

end StubGen
