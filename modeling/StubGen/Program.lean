import StubGen.Packaging

/-!
# Programs as compilers

The compiler of the settings is a program that is looked for and called. It gets the configured
arguments, the classpath unless there is none, and the source file. What the programs do is a
parameter.
-/

namespace StubGen

/-- The programs that can be called. A program that was found answers with its exit status, which is
-1 if it was killed; the reason why none was found is the answer otherwise. -/
structure Programs where
  call : (name : String) → (arguments : List String) → Session → Except IoError Int × Session

/-- The arguments of the compiler: an empty classpath is not passed on. -/
def compilerArguments (arguments : List String) (source : FilePath) (classpath : List FilePath) :
    Except IoError (List String) :=
  if classpath.isEmpty then .ok (arguments ++ [source.text])
  else do return arguments ++ ["-cp", ← Classpath.text classpath, source.text]

/-- A program with leading arguments as a compiler. It is not looked for if its arguments cannot be
passed on. -/
def Compiler.program (programs : Programs) (name : String) (arguments : List String) :
    Compiler where
  compile source classpath s :=
    match compilerArguments arguments source classpath with
    | .error e => (.error e, s)
    | .ok arguments =>
      if (name :: arguments).any fun a => a.toList.contains '\x00' then (.error .nulInArgument, s)
      else programs.call name arguments s

/-- The compiler of the settings. -/
def Settings.externalCompiler (g : Settings) (programs : Programs) : Compiler :=
  .program programs g.compiler g.compilerArgs

end StubGen
