import StubGen.Registry.Load
import StubGen.Settings

/-!
# Where settings come from

From the bottom up, the layers of a run are the file of the user, the file in the working directory,
a file named by the caller and the environment. The first two count only if they are there.
-/

namespace StubGen

namespace Layer

/-- The name of a settings file. -/
def fileName : FilePath := ⟨"implgen.toml"⟩

/-- The directory of settings in the directory that holds those of all programs. -/
def directoryName : FilePath := ⟨"implgen"⟩

/-- The layer in a text. -/
def ofText (text : String) : Except DecodeError Layer := do
  Decode.layer .file (← Document.ofText text)

/-- The layer in a file. -/
def ofFile (d : Disk) (path : FilePath) : Except FileProblem Layer := do
  let text ← FileRole.settings.read d path
  (ofText text).mapError fun e => .unusable .settings path (.undecodable e)

/-- The directory with the settings of all programs: the one that the environment names, if that is
an absolute path, and else one in the home directory. -/
def userDirectory? (environment : List (String × String)) : Option FilePath :=
  match environment.lookup "XDG_CONFIG_HOME" with
  | some p =>
    if FilePath.isAbsolute ⟨p⟩ then some ⟨p⟩ else inHome
  | none => inHome
where
  inHome := (environment.lookup "HOME").map fun h => (FilePath.mk h).join ⟨".config"⟩

/-- The settings file of the user. -/
def userFile? (environment : List (String × String)) : Option FilePath :=
  (userDirectory? environment).map fun d => (d.join directoryName).join fileName

/-- The settings files of a run, from the bottom up. -/
def files (d : Disk) (environment : List (String × String)) (explicit : Option FilePath) :
    List FilePath :=
  ((userFile? environment).toList ++ [fileName]).filter d.isFile ++ explicit.toList

end Layer

/-- The settings of a run. -/
def Settings.load (d : Disk) (environment : List (String × String)) (explicit : Option FilePath) :
    Except FileProblem Settings := do
  let layers ← (Layer.files d environment explicit).mapM (Layer.ofFile d)
  return (layers ++ [Layer.ofEnvironment environment]).foldl Settings.apply {}

end StubGen
