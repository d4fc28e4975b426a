import StubGen.Session
import StubGen.Shell.Reader

/-!
# Machines and words

A script runs on a machine: the session that it changes, the variables and arguments that give its
words their meaning, and the channels that its streams lead to. What a word stands for is found in
three steps: its parameters and commands make way for characters, these are cut into fields, and a
field that is a pattern makes way for the paths that fit it.
-/

namespace StubGen.Shell

/-! ## Machines -/

/-- Where a stream leads. -/
inductive Channel
  | output
  | errorOutput
  | nowhere
  /-- What was printed for another command, or is given as its input. -/
  | text (bytes : List UInt8)
  | file (h : FileHandle) (appends : Bool)
deriving Inhabited

structure Machine where
  session : Session
  bindings : List (String × String)
  /-- The name of the script, by which it complains. -/
  name : String
  arguments : List String := []
  functions : List (String × Command) := []
  status : Nat := 0
  /-- The status of the last command whose output is part of a word. -/
  outputStatus : Nat := 0
  /-- What is to be done at the end. -/
  atExit : String := ""
  options : List Char := []
  /-- Whether a failure is only looked at, and so does not end a script that ends on failures. -/
  isTested : Bool := false
  /-- The channels that the streams lead to. -/
  streams : List (Nat × Nat) := [(0, 0), (1, 1), (2, 2)]
  channels : Array Channel := #[.nowhere, .output, .errorOutput]

/-- What ends more than the command it is met in. -/
inductive Leave
  | exit
  | kill
  | function
  /-- So many loops, and then perhaps on with the next round of the one around them. -/
  | loop (outer : Nat) (goesOn : Bool)

/-- A step of a script: the machine is there whether the script goes on or not. -/
abbrev Step := ExceptT Leave (StateM Machine)

instance {α : Type} : Inhabited (Step α) := ⟨throw .exit⟩

def setStatus (n : Nat) : Step Unit := modify ({ · with status := n })

def succeedIf (b : Bool) : Step Unit := setStatus (if b then 0 else 1)

def disk : Step Disk := return (← get).session.disk

def setDisk (d : Disk) : Step Unit := modify fun m => { m with session := m.session.withDisk d }

def assign (name value : String) : Step Unit :=
  modify fun m => { m with bindings := (name, value) :: m.bindings.filter (·.1 != name) }

/-! ## Streams -/

/-- Leads a stream to a new channel. -/
def connect (stream : Nat) (c : Channel) : Step Unit := modify fun m =>
  { m with
    channels := m.channels.push c
    streams := (stream, m.channels.size) :: m.streams.filter (·.1 != stream) }

def channelOf (m : Machine) (stream : Nat) : Nat :=
  (m.streams.lookup stream).getD m.channels.size

/-- How long the file of a handle is. -/
def lengthOf (d : Disk) (h : FileHandle) : Nat :=
  (d.entries.findSome? fun
    | (_, .file serial bytes) => if serial == h.serial then some bytes.length else none
    | _ => none).getD 0

/-- Writes bytes to a stream. -/
def write (stream : Nat) (bytes : List UInt8) : Step Unit := modify fun m =>
  let i := channelOf m stream
  match m.channels[i]? with
  | some .output => { m with session.output := m.session.output ++ bytes }
  | some .errorOutput => { m with session.errorOutput := m.session.errorOutput ++ bytes }
  | some (.text before) => { m with channels := m.channels.set! i (.text (before ++ bytes)) }
  | some (.file h appends) =>
    let h := if appends then { h with position := lengthOf m.session.disk h } else h
    let (h, d) := m.session.disk.write h bytes
    { m with session := m.session.withDisk d, channels := m.channels.set! i (.file h appends) }
  | some .nowhere | none => m

/-- A character that stands for a byte which is part of no character. -/
def byteChar (b : UInt8) : Char := Char.ofNat (0xF700 + b.toNat)

/-- The bytes of a text. -/
def bytesOf (text : String) : List UInt8 :=
  text.toList.flatMap fun c =>
    if 0xF700 ≤ c.toNat && c.toNat < 0xF800 then [UInt8.ofNat (c.toNat - 0xF700)]
    else Text.utf8 c.toString

/-- Prints a text to a stream. -/
def print (stream : Nat) (text : String) : Step Unit := write stream (bytesOf text)

/-- Complains, and fails with a status. -/
def complain (status : Nat) (text : String) : Step Unit := do
  print 2 ((← get).name ++ ": 1: " ++ text ++ "\n")
  setStatus status

/-- The text of bytes. -/
def bytesText (bytes : List UInt8) : String :=
  (Text.ofUtf8? bytes).getD (String.ofList (bytes.map byteChar))

/-- Takes what can be read, or only the next line of it with its end. -/
def takeInput (oneLine : Bool) : Step (List UInt8) := do
  let m ← get
  let i := channelOf m 0
  match m.channels[i]? with
  | some (.text bytes) =>
    let (line, after) := bytes.span (· != 10)
    let taken := if oneLine then line ++ after.take 1 else bytes
    set { m with channels := m.channels.set! i (.text (bytes.drop taken.length)) }
    return taken
  | _ => return []

/-! ## Patterns -/

/-- A character of a pattern, and whether it is meant literally. -/
abbrev PatternChar := Char × Bool

/-- Whether a character is in a set as it is written. -/
def isIn (c : Char) : List Char → Bool
  | low :: '-' :: high :: set => low ≤ c && c ≤ high || isIn c set
  | d :: set => c == d || isIn c set
  | [] => false

/-- Whether a text fits a pattern. -/
partial def fits : List PatternChar → List Char → Bool
  | [], s => s.isEmpty
  | ('*', false) :: p, s => fits p s || !s.isEmpty && fits (('*', false) :: p) (s.drop 1)
  | ('[', false) :: p, s =>
    let isNegated := p.head?.any (·.1 == '!')
    let p := if isNegated then p.drop 1 else p
    -- A bracket that comes first is part of the set.
    let set := p.take 1 ++ (p.drop 1).takeWhile (· != (']', false))
    if set.length == p.length then s.head? == some '[' && fits p (s.drop 1)
    else
      match s with
      | c :: s => isIn c (set.map (·.1)) != isNegated && fits (p.drop (set.length + 1)) s
      | [] => false
  | (d, isLiteral) :: p, c :: s => (c == d || d == '?' && !isLiteral) && fits p s
  | _, [] => false

def isPattern (p : List PatternChar) : Bool :=
  p.any fun (c, isLiteral) => !isLiteral && "*?[".toList.contains c

def plain (p : List PatternChar) : String := String.ofList (p.map (·.1))

/-- The paths that start with a text and go on as a pattern says. -/
partial def paths (d : Disk) (start : String) (p : List PatternChar) : List String :=
  let (segment, rest) := p.span (·.1 != '/')
  let goOn (name : String) : List String :=
    let path := start ++ name
    if !rest.isEmpty then paths d (path ++ "/") (rest.drop 1)
    else if d.pathExists ⟨path⟩ then [path]
    else []
  if !isPattern segment then goOn (plain segment)
  else
    match d.locate ⟨if start == "" then "." else start⟩ with
    | .error _ => []
    | .ok l =>
      let names := (d.entries.filter fun e => e.1 != [] && e.1.dropLast == l).map (·.1.getLastD "")
      let wantsDot := segment.head?.any (·.1 == '.')
      let fitting := names.filter fun n => (wantsDot || !n.startsWith ".") && fits segment n.toList
      (fitting.mergeSort (· ≤ ·)).flatMap goOn

/-! ## Fields -/

/-- A piece of an expanded word. -/
inductive Piece
  /-- A character; one that comes from a value without quotes may separate fields. -/
  | char (c : Char) (quoted separates : Bool)
  /-- There is a field here, even if it is empty. -/
  | mark
  /-- One argument ends and another begins. -/
  | gap

/-- Fields while they are cut. -/
structure Cutter where
  fields : List (List PatternChar) := []
  field : List PatternChar := []
  hasField : Bool := false
  /-- Blanks have just ended a field, and another separator may follow. -/
  afterBlank : Bool := false

namespace Cutter

/-- The cutter after the end of a field, if there is one. -/
def close (k : Cutter) (afterBlank : Bool) : Cutter :=
  if k.hasField then { fields := k.fields ++ [k.field], afterBlank }
  else { k with afterBlank := k.afterBlank || afterBlank }

def step (separators : List Char) (k : Cutter) : Piece → Cutter
  | .mark => { k with hasField := true }
  | .gap => k.close false
  | .char c quoted separates =>
    if !separates || !separators.contains c then
      { k with field := k.field ++ [(c, quoted)], hasField := true, afterBlank := false }
    else if c.isWhitespace then k.close true
    else if k.afterBlank && !k.hasField then { k with afterBlank := false }
    else { k with hasField := true }.close false

end Cutter

/-- The fields of an expanded word. -/
def fieldsOf (separators : List Char) (ps : List Piece) : List (List PatternChar) :=
  ((ps.foldl (Cutter.step separators) {}).close false).fields

/-- An expanded word that is not cut, as a pattern. -/
def patternOf (ps : List Piece) : List PatternChar :=
  ps.filterMap fun
    | .char c quoted _ => some (c, quoted)
    | .mark => none
    | .gap => some (' ', true)

def separatorsOf (m : Machine) : List Char := ((m.bindings.lookup "IFS").getD " \t\n").toList

/-! ## Sums -/

namespace Sum

/-- The operators between numbers, those that bind least first; longer ones come before shorter ones
where both can be read. -/
def operators : List (List String) :=
  [["||"], ["&&"], ["==", "!="], ["<=", ">=", "<", ">"], ["+", "-"], ["*", "/", "%"]]

def apply (operator : String) (a b : Int) : Int :=
  let truth (p : Bool) : Int := if p then 1 else 0
  match operator with
  | "||" => truth (a != 0 || b != 0)
  | "&&" => truth (a != 0 && b != 0)
  | "==" => truth (a == b)
  | "!=" => truth (a != b)
  | "<=" => truth (a ≤ b)
  | ">=" => truth (b ≤ a)
  | "<" => truth (a < b)
  | ">" => truth (b < a)
  | "+" => a + b
  | "-" => a - b
  | "*" => a * b
  | "/" => a.tdiv b
  | _ => a.tmod b

open Reader

mutual

/-- The value of what operators of the given levels join. -/
partial def value (valueOf : String → Int) : List (List String) → Reader Int
  | level :: inner => do rest valueOf level inner (← value valueOf inner)
  | [] => do
    blanks true
    if ← takes "(" then
      let n ← value valueOf operators
      blanks true
      discard (takes ")")
      return n
    else if ← takes "-" then return -(← value valueOf [])
    else if ← takes "+" then value valueOf []
    else if ← takes "!" then return if (← value valueOf []) == 0 then 1 else 0
    else
      let name := String.ofList ((← get).takeWhile isNameChar)
      if name == "" then failure
      skip name.length
      return name.toInt?.getD (valueOf name)

/-- The value of operands that follow on a first one. -/
partial def rest (valueOf : String → Int) (level : List String) (inner : List (List String))
    (first : Int) : Reader Int := do
  blanks true
  match (← level.filterM sees).head? with
  | none => return first
  | some operator =>
    skip operator.length
    let second ← value valueOf inner
    rest valueOf level inner (apply operator first second)

end

/-- The value of an expression, if it is one. -/
def ofText? (m : Machine) (text : String) : Option Int :=
  let valueOf (name : String) : Int := ((m.bindings.lookup name).bind String.toInt?).getD 0
  match (value valueOf operators).run text.toList with
  | some (n, rest) => if rest.all Char.isWhitespace then some n else none
  | none => none

end Sum

end StubGen.Shell
