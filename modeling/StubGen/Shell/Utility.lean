import StubGen.Shell.Expansion

/-!
# Commands without scripts inside

The commands of the shell that only print, test and change variables, and the small programs that
read, copy and remove files.
-/

namespace StubGen.Shell

/-! ## Files -/

/-- What a failure is called. -/
def reasonOf (e : IoError) : String :=
  match e with
  | .os .notFound => "Directory nonexistent"
  | .os e => e.description
  | e => e.message

/-- Opens the file that a stream is to lead to. -/
def openFile (operator path : String) : Step (Except String Channel) := do
  let d ← disk
  let create : Step (Except String Channel) := do
    match d.createFile ⟨path⟩ with
    | .ok (h, d) =>
      setDisk d
      return .ok (.file h (operator == ">>"))
    | .error e => return .error ("cannot create " ++ path ++ ": " ++ reasonOf e)
  match path, operator, d.find? ⟨path⟩ with
  | "/dev/null", _, _ => return .ok .nowhere
  | _, "<", some (.file _ bytes) => return .ok (.text bytes)
  | _, "<", some .directory => return .ok .nowhere
  | _, "<", none => return .error ("cannot open " ++ path ++ ": No such file")
  | _, ">>", some (.file serial _) => return .ok (.file ⟨serial, 0⟩ true)
  | _, _, _ => create

/-- Carries out a change of the disk for a small program. -/
def change (program what : String) (d : Except IoError Disk) : Step Unit := do
  match d with
  | .ok d => setDisk d
  | .error e =>
    let reason :=
      match e with
      | .os e => e.description
      | e => e.message
    print 2 (program ++ ": " ++ what ++ ": " ++ reason ++ "\n")
    setStatus 1

/-- The last name of a path. -/
def baseName (path : String) : String :=
  String.ofList ((Text.pieces '/' path.toList).reverse.find? (!·.isEmpty)).toList.flatten

/-- The path of the directory that holds a path. -/
def directoryName (path : String) : String :=
  let s := path.toList.reverse.dropWhile (· == '/')
  let above := s.dropWhile (· != '/')
  if above.isEmpty then (if path.startsWith "/" then "/" else ".")
  else
    let above := String.ofList (above.dropWhile (· == '/')).reverse
    if above == "" then "/" else above

/-- A name without an ending, unless that is all of it. -/
def withoutEnding (name ending : String) : String :=
  if name != ending && name.endsWith ending then (name.dropEnd ending.length).toString else name

/-- The path of a copy: in the target if that is a directory. -/
def copyPath (d : Disk) (source target : String) : FilePath :=
  if d.isDirectory ⟨target⟩ then ⟨target ++ "/" ++ baseName source⟩ else ⟨target⟩

/-- The disk with a file that has the bytes of another one. -/
def copied (d : Disk) (source target : String) : Except IoError Disk := do
  let bytes ← d.readBytes ⟨source⟩
  let (h, d) ← d.createFile (copyPath d source target)
  return (d.write h bytes).2

/-! ## Small programs -/

/-- Runs a small program on its operands, and says whether there is one of that name. -/
def callUtility (name : String) (arguments : List String) : Step Bool := do
  let (options, operands) := arguments.partition fun a => a.startsWith "-" && a != "-"
  let letters := (options.map (·.toList.drop 1)).flatten
  setStatus 0
  match name, operands with
  | "cat", [] => write 1 (← takeInput false)
  | "cat", operands =>
    for path in operands do
      if path == "-" then write 1 (← takeInput false)
      else
        let d ← disk
        let content := d.readBytes ⟨path⟩
        write 1 (content.toOption.getD [])
        if content.toOption.isNone then change name path (content.map fun _ => d)
  | "cp", operands =>
    for source in operands.dropLast do
      let target := operands.getLastD ""
      change name ("cannot stat '" ++ source ++ "'") (copied (← disk) source target)
  | "mv", operands =>
    for source in operands.dropLast do
      let d ← disk
      let target := operands.getLastD ""
      change name ("cannot stat '" ++ source ++ "'") do
        (← copied d source target).removeFile ⟨source⟩
  | "rm", operands =>
    for path in operands do
      let d ← disk
      let isTree := d.isDirectory ⟨path⟩ && letters.any "rR".toList.contains
      if d.pathExists ⟨path⟩ || !letters.contains 'f' then
        change name ("cannot remove '" ++ path ++ "'")
          (if isTree then d.removeTree ⟨path⟩ else d.removeFile ⟨path⟩)
  | "mkdir", operands =>
    for path in operands do
      let d ← disk
      change name ("cannot create directory '" ++ path ++ "'") <|
        if letters.contains 'p' then
          let (made, d) := d.makeDirectoryTree ⟨path⟩
          made.map fun _ => d
        else d.makeDirectory ⟨path⟩
  | "rmdir", operands =>
    for path in operands do
      change name ("failed to remove '" ++ path ++ "'") ((← disk).removeDirectory ⟨path⟩)
  | "touch", operands =>
    for path in operands do
      let d ← disk
      if !d.pathExists ⟨path⟩ then
        change name ("cannot touch '" ++ path ++ "'") ((d.createFile ⟨path⟩).map (·.2))
  | "basename", path :: rest =>
    print 1 (withoutEnding (baseName path) (rest.headD "") ++ "\n")
  | "dirname", operands => print 1 (String.join (operands.map fun p => directoryName p ++ "\n"))
  | "sleep", _ => pure ()
  | _, _ => return false
  return true

/-! ## Printing -/

/-- A text with its escapes carried out. A character may be given by three octal digits, and outside
formats by a zero and three more. -/
def unescaped (isFormat : Bool) : List Char → List Char
  | '\\' :: c :: s =>
    match "abefnrtv\\".toList.idxOf? c with
    | some i => "\x07\x08\x1b\x0c\n\r\t\x0b\\".toList.getD i c :: unescaped isFormat s
    | none =>
      let width := if c == '0' && !isFormat then 4 else 3
      let digits := ((c :: s).take width).takeWhile fun d => '0' ≤ d && d ≤ '7'
      if digits.isEmpty then '\\' :: c :: unescaped isFormat s
      else
        let value := digits.foldl (fun n d => 8 * n + (d.toNat - '0'.toNat)) 0
        let c := if value < 128 then Char.ofNat value else byteChar (UInt8.ofNat value)
        c :: unescaped isFormat (s.drop (digits.length - 1))
  | c :: s => c :: unescaped isFormat s
  | [] => []
termination_by s => s.length
decreasing_by all_goals (simp only [List.length_cons, List.length_drop]; omega)

/-- What `echo` prints. -/
def echoed (arguments : List String) : String :=
  let isOpen := arguments.head? == some "-n"
  let text := " ".intercalate (if isOpen then arguments.drop 1 else arguments)
  String.ofList (unescaped false text.toList) ++ if isOpen then "" else "\n"

/-- A text in a field of the width that comes before a conversion. -/
def padded (layout : List Char) (text : String) : String :=
  let width := (String.ofList (layout.dropWhile fun c => c == '-' || c == '0')).toNat?.getD 0
  let missing := width - text.length
  if layout.contains '-' then text ++ "".pushn ' ' missing
  else "".pushn (if layout.head? == some '0' then '0' else ' ') missing ++ text

/-- The text of an argument under a conversion. -/
def converted (conversion : Char) (argument : String) : String :=
  let n := (argument.toInt?).getD 0
  match conversion with
  | 's' => argument
  | 'b' => String.ofList (unescaped false argument.toList)
  | 'c' => String.ofList (argument.toList.take 1)
  | 'x' => String.ofList (Nat.toDigits 16 n.toNat)
  | 'o' => String.ofList (Nat.toDigits 8 n.toNat)
  | _ => toString n

/-- A format with conversions of arguments, of which some are left. -/
partial def formatOnce (format : List Char) (arguments : List String) : String × List String :=
  match format with
  | [] => ("", arguments)
  | '%' :: '%' :: s =>
    let (text, left) := formatOnce s arguments
    ("%" ++ text, left)
  | '%' :: s =>
    let (layout, s) := s.span fun c => c.isDigit || c == '-'
    let item := padded layout (converted (s.headD 's') (arguments.headD ""))
    let (text, left) := formatOnce (s.drop 1) (arguments.drop 1)
    (item ++ text, left)
  | c :: s =>
    let (text, left) := formatOnce s arguments
    (c.toString ++ text, left)

/-- What `printf` prints: the format is used again as long as arguments are left. -/
partial def formatted (format : List Char) (arguments : List String) : String :=
  let (text, left) := formatOnce format arguments
  if left.isEmpty || left.length == arguments.length then text else text ++ formatted format left

/-! ## Conditions -/

/-- Whether a condition holds, if it is one. -/
def holds? (d : Disk) : List String → Option Bool
  | [] => some false
  | [a] => some (a != "")
  | [a, operator, b] =>
    let compare (p : Int → Int → Bool) : Option Bool := return p (← a.toInt?) (← b.toInt?)
    match operator with
    | "=" => some (a == b)
    | "!=" => some (a != b)
    | "-eq" => compare (· == ·)
    | "-ne" => compare (· != ·)
    | "-lt" => compare (· < ·)
    | "-le" => compare (· ≤ ·)
    | "-gt" => compare (· > ·)
    | "-ge" => compare (· ≥ ·)
    | "-a" => some (a != "" && b != "")
    | "-o" => some (a != "" || b != "")
    | _ => if a == "!" then (holds? d [operator, b]).map (!·) else none
  | "!" :: ws => (holds? d ws).map (!·)
  | [operator, a] =>
    match operator, d.find? ⟨a⟩ with
    | "-n", _ => some (a != "")
    | "-z", _ => some (a == "")
    | "-f", some (.file ..) | "-d", some .directory | "-s", some .directory => some true
    | "-s", some (.file _ bytes) => some !bytes.isEmpty
    | "-e", e | "-r", e | "-w", e => some e.isSome
    | "-f", _ | "-d", _ | "-s", _ => some false
    | _, _ => none
  | _ => none

/-- Tests a condition. -/
def test (ws : List String) : Step Unit := do
  match holds? (← disk) ws with
  | some b => succeedIf b
  | none => complain 2 ("test: " ++ ws.headD "" ++ ": unexpected operator")

/-! ## Variables and places -/

/-- The fields of a line, of which the last takes what is left. -/
def lineFields (separators : List Char) : Nat → List Char → List String
  | 0, _ => []
  | n + 1, s =>
    let isBlank (c : Char) : Bool := c.isWhitespace && separators.contains c
    let s := s.dropWhile isBlank
    if n == 0 then [String.ofList (s.reverse.dropWhile isBlank).reverse]
    else
      let (field, after) := s.span (!separators.contains ·)
      let after := after.dropWhile isBlank
      let isSeparated := after.head?.any separators.contains
      String.ofList field :: lineFields separators n (if isSeparated then after.drop 1 else after)

/-- Reads a line into variables, and fails if its end is missing. -/
def readLine (arguments : List String) : Step Unit := do
  let names := arguments.filter (!·.startsWith "-")
  let line := (bytesText (← takeInput true)).toList
  let text := if arguments.contains "-r" then line else line.filter (· != '\\')
  let values := lineFields (separatorsOf (← get)) names.length (text.filter (· != '\n'))
  for (name, value) in names.zip values do
    assign name value
  succeedIf (line.getLast? == some '\n')

/-- Gives variables values, where arguments say so. -/
def assignAll (arguments : List String) : Step Unit := do
  for a in arguments do
    match Text.splitFirst? '=' a.toList with
    | some (name, value) => assign (String.ofList name) (String.ofList value)
    | none => pure ()

/-- Changes the options and the arguments of the script. -/
def setOptions (arguments : List String) : Step Unit := do
  let (flags, operands) := arguments.span fun a =>
    a != "--" && (a.startsWith "-" || a.startsWith "+") && a.length > 1
  for flag in flags do
    let letters := flag.toList.drop 1
    modify fun m =>
      let kept := m.options.filter (!letters.contains ·)
      { m with options := if flag.startsWith "-" then kept ++ letters else kept }
  if !operands.isEmpty then
    let operands := if operands.head? == some "--" then operands.drop 1 else operands
    modify ({ · with arguments := operands })

/-- Changes the working directory. -/
def goTo (path : String) : Step Unit := do
  let d ← disk
  match d.locate ⟨path⟩ with
  | .ok l =>
    if d.get? l == some .directory then setDisk { d with workingDirectory := l }
    else complain 2 ("cd: can't cd to " ++ path)
  | .error _ => complain 2 ("cd: can't cd to " ++ path)

/-- The working directory as a path. -/
def workingPath (d : Disk) : String := "/" ++ "/".intercalate d.workingDirectory

/-- Calls a command or a small program that needs no script. -/
def callSimple (name : String) (arguments : List String) : Step Unit := do
  let m ← get
  setStatus 0
  match name, arguments with
  | ":", _ | "true", _ | "wait", _ | "umask", _ => pure ()
  | "false", _ => setStatus 1
  | "echo", arguments => print 1 (echoed arguments)
  | "printf", format :: arguments => print 1 (formatted (unescaped true format.toList) arguments)
  | "test", ws => test ws
  | "[", ws =>
    if ws.getLast? == some "]" then test ws.dropLast else complain 2 "[: missing ]"
  | "set", arguments => setOptions arguments
  | "shift", arguments =>
    let n := (arguments.head?.bind String.toNat?).getD 1
    if n ≤ m.arguments.length then set { m with arguments := m.arguments.drop n, status := 0 }
    else
      complain 2 "shift: can't shift that many"
      throw .exit
  | "export", arguments | "readonly", arguments | "local", arguments => assignAll arguments
  | "unset", names =>
    modify fun m => { m with bindings := m.bindings.filter fun x => !names.contains x.1 }
  | "read", arguments => readLine arguments
  | "cd", arguments => goTo (arguments.headD ((m.bindings.lookup "HOME").getD "/"))
  | "pwd", _ => print 1 (workingPath m.session.disk ++ "\n")
  | "trap", [action, signal] =>
    if signal == "EXIT" || signal == "0" then
      modify ({ · with atExit := if action == "-" then "" else action })
  | "kill", arguments => if !arguments.contains "-0" then throw .kill
  | name, arguments =>
    if !(← callUtility (baseName name) arguments) then complain 127 (name ++ ": not found")

end StubGen.Shell
