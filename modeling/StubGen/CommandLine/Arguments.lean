/-!
# Arguments of the command line

Options and type names may come in any order. An option is spelled with one letter or with its full
name; its value follows in the next argument or in the same one. After `--` all arguments are type
names. Reading stops at the first argument that cannot be used, and at the first that asks for the
help or the version.
-/

namespace StubGen.CommandLine

/-- The options. -/
inductive Switch
  | types
  | output
  | archive
  | config
  | suffix
  | compiler
  | classpath
  | noPrelude
  | rawUnicode
  | verbose
  | help
  | version
deriving DecidableEq, Inhabited

namespace Switch

def all : List Switch :=
  [types, output, archive, config, suffix, compiler, classpath, noPrelude, rawUnicode, verbose,
    help, version]

/-- The full name of an option. -/
def long : Switch → String
  | types => "types"
  | output => "output"
  | archive => "archive"
  | config => "config"
  | suffix => "suffix"
  | compiler => "compiler"
  | classpath => "classpath"
  | noPrelude => "no-prelude"
  | rawUnicode => "raw-unicode"
  | verbose => "verbose"
  | help => "help"
  | version => "version"

/-- The letter of an option. -/
def letter? : Switch → Option Char
  | types => some 't'
  | output => some 'o'
  | archive => some 'a'
  | config => some 'c'
  | verbose => some 'v'
  | help => some 'h'
  | version => some 'V'
  | _ => none

/-- Whether an option has a value. -/
def hasValue : Switch → Bool
  | types | output | archive | config | suffix | compiler | classpath => true
  | _ => false

/-- Whether an option may be given again. -/
def isRepeatable : Switch → Bool
  | types | classpath | verbose => true
  | _ => false

/-- Whether the value of an option is a path, which must not be empty. -/
def namesPath : Switch → Bool
  | types | output | archive | config | classpath => true
  | _ => false

def ofLong? (name : String) : Option Switch := all.find? fun s => s.long == name

def ofLetter? (c : Char) : Option Switch := all.find? fun s => s.letter? == some c

end Switch

/-- What an argument says, or part of one. -/
inductive Word
  | target (name : String)
  | flag (s : Switch)
  /-- An option with a value, which may be still to come. -/
  | valued (s : Switch) (value? : Option String)
  | unusable
deriving DecidableEq, Inhabited

/-- The words of an argument that begins with one dash. -/
def letterWords : List Char → List Word
  | [] => []
  | c :: rest =>
    match Switch.ofLetter? c with
    | none => [.unusable]
    | some s =>
      if s.hasValue then
        match rest with
        | [] => [.valued s none]
        | '=' :: value => [.valued s (some (String.ofList value))]
        | value => [.valued s (some (String.ofList value))]
      else .flag s :: letterWords rest

/-- The word of an argument that begins with two dashes. -/
def longWord (text : List Char) : Word :=
  let (name, rest) := text.span (· != '=')
  match Switch.ofLong? (String.ofList name), rest with
  | none, _ => .unusable
  | some s, [] => if s.hasValue then .valued s none else .flag s
  | some s, _ :: value => if s.hasValue then .valued s (some (String.ofList value)) else .unusable

/-- The words of an argument. -/
def words (argument : String) : List Word :=
  match argument.toList with
  | '-' :: '-' :: text => [longWord text]
  | ['-'] => [.target argument]
  | '-' :: text => letterWords text
  | _ => [.target argument]

/-- Why reading the arguments stops early. -/
inductive Stop
  /-- The arguments cannot be used. -/
  | usage
  | help
  | version
deriving DecidableEq, Inhabited

/-- Arguments as far as they have been read. -/
structure Arguments where
  targets : List String := []
  options : List (Switch × String) := []
deriving DecidableEq, Inhabited

namespace Arguments

/-- Whether an option has been given. -/
def has (a : Arguments) (s : Switch) : Bool := a.options.any (·.1 == s)

/-- The values of an option in order. -/
def values (a : Arguments) (s : Switch) : List String :=
  (a.options.filter (·.1 == s)).map (·.2)

/-- The value of an option. -/
def value? (a : Arguments) (s : Switch) : Option String := (a.values s).head?

/-- The arguments with one more type name. -/
def addTarget (a : Arguments) (name : String) : Arguments :=
  { a with targets := a.targets ++ [name] }

/-- The arguments with one more option. -/
def addOption (a : Arguments) (s : Switch) (value : String) : Except Stop Arguments :=
  if s = .help then .error .help
  else if s = .version then .error .version
  else if !s.isRepeatable && a.has s then .error .usage
  else if s.namesPath && value == "" then .error .usage
  else .ok { a with options := a.options ++ [(s, value)] }

/-- The arguments with the words of one more, and the option that still wants its value. -/
def addWords (a : Arguments) : List Word → Except Stop (Arguments × Option Switch)
  | [] => .ok (a, none)
  | .target name :: ws => (a.addTarget name).addWords ws
  | .flag s :: ws => do (← a.addOption s "").addWords ws
  | .valued s (some value) :: ws => do (← a.addOption s value).addWords ws
  | .valued s none :: _ => .ok (a, some s)
  | .unusable :: _ => .error .usage

/-- Whether an argument cannot be the value of the option before it. -/
def isOption (argument : String) : Bool :=
  match argument.toList with
  | '-' :: _ :: _ => true
  | _ => false

/-- Reads arguments; `awaiting?` is the option that still wants its value. -/
def readFrom (a : Arguments) : (awaiting? : Option Switch) → List String → Except Stop Arguments
  | none, [] => .ok a
  | some _, [] => .error .usage
  -- A value that looks like an option is taken for one, so the value before it is missing.
  | some s, value :: rest =>
    if isOption value then .error .usage
    else do (← a.addOption s value).readFrom none rest
  | none, "--" :: rest => .ok (rest.foldl addTarget a)
  | none, argument :: rest => do
    let (a, awaiting?) ← a.addWords (words argument)
    a.readFrom awaiting? rest

/-- Reads arguments. At least one type and one file of metadata are needed, and an archive has no
output directory. -/
def read (arguments : List String) : Except Stop Arguments := do
  let a ← readFrom {} none arguments
  if a.targets.isEmpty || !a.has .types || (a.has .archive && a.has .output) then throw .usage
  return a

end Arguments

end StubGen.CommandLine
