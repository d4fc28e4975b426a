import StubGen.Shell.Utility

/-!
# Running scripts

A command is carried out on a machine: its words are expanded, its streams are led where they should
go, and what its first word names is called. The status of a command decides how the script goes on.
A script that does not end keeps its machine running, so these definitions are partial.
-/

namespace StubGen.Shell

/-- The value of a parameter, if it has one. -/
def parameter? (m : Machine) (name : String) : Option String :=
  match name with
  | "@" | "*" => some (" ".intercalate m.arguments)
  | "#" => some (toString m.arguments.length)
  | "?" => some (toString m.status)
  | "$" => some "2"
  | "-" => some (String.ofList m.options)
  | "0" => some m.name
  | name =>
    match name.toNat? with
    | some n => m.arguments[n - 1]?
    | none => m.bindings.lookup name

/-- The text without the shortest or the longest part at its end that fits a pattern; `turn` says
which end that is. -/
def trimmed (longest : Bool) (turn : List Char → List Char) (p : List PatternChar)
    (s : List Char) : List Char :=
  let counts := List.range (s.length + 1)
  let fitting := counts.filter fun n => fits p (turn ((turn s).take n))
  match if longest then fitting.getLast? else fitting.head? with
  | some n => turn ((turn s).drop n)
  | none => s

/-- The pieces of a value. -/
def piecesOf (quoted : Bool) (s : List Char) : List Piece := s.map (.char · quoted !quoted)

/-- The number that a command of the script is given. -/
def numberOf (arguments : List String) (otherwise : Nat) : Step Nat := do
  match arguments with
  | [] => return otherwise
  | a :: _ =>
    match a.toNat? with
    | some n => return n
    | none =>
      complain 2 ("Illegal number: " ++ a)
      throw .exit

mutual

/-- The pieces of a word. -/
partial def expand (w : Word) : Step (List Piece) := do
  return (← w.mapM expandPart).flatten

partial def expandPart (p : Part) : Step (List Piece) := do
  match p with
  | .char c quoted => return [.char c quoted false]
  | .quotes => return [.mark]
  | .output body quoted =>
    let text := (← outputOf body).toList
    return piecesOf quoted (text.reverse.dropWhile (· == '\n')).reverse
  | .sum expression quoted =>
    let text := plain (patternOf (← expand expression))
    match Sum.ofText? (← get) text with
    | some n => return piecesOf quoted (toString n).toList
    | none =>
      complain 2 ("arithmetic expression: expecting primary: \"" ++ text ++ "\"")
      throw .exit
  | .parameter name operator operand quoted =>
    let m ← get
    if (name == "@" || name == "*" && !quoted) && operator == "" then
      let arguments := m.arguments.map fun a =>
        (if quoted then [.mark] else []) ++ piecesOf quoted a.toList
      return (arguments.intersperse [.gap]).flatten
    if name == "*" && operator == "" then
      let separator := String.ofList ((separatorsOf m).take 1)
      return piecesOf true (separator.intercalate m.arguments).toList
    let value? := parameter? m name
    let isThere := if operator.startsWith ":" then value?.any (· != "") else value?.isSome
    let value := (value?.getD "").toList
    match operator.toList.getLast? with
    | some '-' => if isThere then return piecesOf quoted value else expand operand
    | some '+' => if isThere then expand operand else return []
    | some '=' =>
      if isThere then return piecesOf quoted value
      let text ← textOf operand
      assign name text
      return piecesOf quoted text.toList
    | some '?' =>
      if isThere then return piecesOf quoted value
      let text ← textOf operand
      complain 2 (name ++ ": " ++ if text == "" then "parameter not set or null" else text)
      throw .exit
    | some '#' =>
      let p := patternOf (← expand operand)
      return piecesOf quoted (trimmed (operator == "##") id p value)
    | some '%' =>
      let p := patternOf (← expand operand)
      return piecesOf quoted (trimmed (operator == "%%") List.reverse p value)
    | some _ => return piecesOf quoted (toString value.length).toList
    | none => return piecesOf quoted value

/-- The text of a word that is not cut into fields. -/
partial def textOf (w : Word) : Step String := do
  return plain (patternOf (← expand w))

/-- The fields of words, with paths in place of patterns. -/
partial def fields (ws : List Word) : Step (List String) := do
  let fieldsOfWord (w : Word) : Step (List String) := do
    let ps ← expand w
    let m ← get
    return (fieldsOf (separatorsOf m) ps).flatMap fun f =>
      let found :=
        if isPattern f && !m.options.contains 'f' then paths m.session.disk "" f else []
      if found.isEmpty then [plain f] else found
  return (← ws.mapM fieldsOfWord).flatten

/-- Performs a step of which only files, prints and the status stay. -/
partial def isolate (step : Step Unit) : Step Unit := do
  let before ← get
  modify ({ · with atExit := "" })
  toTheEnd step
  modify fun m =>
    let workingDirectory := before.session.disk.workingDirectory
    { before with
      session := { m.session with disk.workingDirectory := workingDirectory }
      channels := m.channels
      status := m.status }

/-- Performs a step up to where the script ends, and then what was to be done there. -/
partial def toTheEnd (step : Step Unit) : Step Unit := do
  let guarded (step : Step Unit) : Step Unit := do
    try step
    catch e =>
      match e with
      | .kill => throw .kill
      | _ => pure ()
  guarded step
  let m ← get
  if m.atExit != "" then
    set { m with atExit := "" }
    guarded do
      perform m.atExit
      setStatus m.status

/-- What a command prints. -/
partial def outputOf (c : Command) : Step String := do
  let before ← get
  isolate do
    connect 1 (.text [])
    run c
  modify fun m => { m with status := before.status, outputStatus := m.status }
  match (← get).channels[before.channels.size]? with
  | some (.text bytes) => return bytesText bytes
  | _ => return ""

/-- Performs the commands of a text. -/
partial def perform (text : String) : Step Unit := do
  match Command.ofText? text with
  | some c => run c
  | none =>
    complain 2 "Syntax error"
    throw .exit

/-- Runs a command of which the failure is only looked at, and says whether it succeeded. -/
partial def tests (c : Command) : Step Bool := do
  let before := (← get).isTested
  modify ({ · with isTested := true })
  run c
  modify ({ · with isTested := before })
  return (← get).status == 0

/-- Ends a script that is to end on failures. -/
partial def checkStatus : Step Unit := do
  let m ← get
  if m.status != 0 && !m.isTested && m.options.contains 'e' then throw .exit

/-- Runs the body of a loop; the answer says whether the loop goes on. -/
partial def runBody (c : Command) : Step Bool := do
  try
    run c
    return true
  catch e =>
    match e with
    | .loop 0 goesOn => return goesOn
    | .loop (n + 1) goesOn => throw (.loop n goesOn)
    | e => throw e

partial def run (c : Command) : Step Unit := do
  match c with
  | .nothing => pure ()
  | .sequence a b =>
    run a
    run b
  | .both a b => if ← tests a then run b
  | .either a b => if !(← tests a) then run b
  | .negated c => succeedIf !(← tests c)
  | .pipe a b =>
    let i := (← get).channels.size
    isolate do
      connect 1 (.text [])
      run a
    isolate do
      modify fun m => { m with streams := (0, i) :: m.streams.filter (·.1 != 0) }
      run b
    checkStatus
  | .condition test yes no =>
    if ← tests test then
      setStatus 0
      run yes
    else
      setStatus 0
      run no
  | .again isUntil test body => again isUntil test body 0
  | .loop name words body =>
    setStatus 0
    for f in ← fields words do
      assign name f
      if !(← runBody body) then break
  | .choice w branches =>
    let text := (← textOf w).toList
    setStatus 0
    for (ps, body) in branches do
      if ← ps.anyM fun p => return fits (patternOf (← expand p)) text then return ← run body
  | .isolated c =>
    isolate (run c)
    checkStatus
  | .function name body =>
    modify fun m => { m with functions := (name, body) :: m.functions }
    setStatus 0
  | .redirected c rs =>
    let before := (← get).streams
    if ← redirect rs then
      try run c
      catch e =>
        modify ({ · with streams := before })
        throw e
      modify ({ · with streams := before })
    else
      modify ({ · with streams := before })
      checkStatus
  | .simple assignments words =>
    modify ({ · with outputStatus := 0 })
    let fs ← fields words
    let before := (← get).bindings
    for (name, value) in assignments do
      assign name (← textOf value)
    match fs with
    | [] => setStatus (← get).outputStatus
    | name :: arguments =>
      call name arguments
      -- Assignments before a command are for that command.
      if !assignments.isEmpty then modify ({ · with bindings := before })
    checkStatus

/-- A loop under a condition. -/
partial def again (isUntil : Bool) (test body : Command) (status : Nat) : Step Unit := do
  if (← tests test) == isUntil then setStatus status
  else if ← runBody body then again isUntil test body (← get).status

/-- Leads streams elsewhere, one after the other, as long as that is possible. -/
partial def redirect (rs : List Redirection) : Step Bool := do
  match rs with
  | [] => return true
  | (stream, operator, target) :: rs =>
    let text ← textOf target
    if operator == "<<" then
      connect stream (.text (Text.utf8 text))
      redirect rs
    else if operator.endsWith "&" then
      modify fun m =>
        let others := m.streams.filter (·.1 != stream)
        let source? := text.toNat?.bind fun n => m.streams.lookup n
        { m with streams := (source?.map ((stream, ·))).toList ++ others }
      redirect rs
    else
      match ← openFile operator text with
      | .ok c =>
        connect stream c
        redirect rs
      | .error why =>
        complain 2 why
        return false

/-- Calls what a name stands for: a function, a command of the shell or a small program. -/
partial def call (name : String) (arguments : List String) : Step Unit := do
  let m ← get
  match m.functions.lookup name with
  | some body =>
    modify ({ · with arguments := arguments })
    try run body
    catch e =>
      match e with
      | .function => pure ()
      | e => throw e
    modify ({ · with arguments := m.arguments })
  | none =>
    match name with
    | "exit" =>
      setStatus ((← numberOf arguments m.status) % 256)
      throw .exit
    | "return" =>
      setStatus ((← numberOf arguments m.status) % 256)
      throw .function
    | "break" => throw (.loop ((← numberOf arguments 1) - 1) false)
    | "continue" => throw (.loop ((← numberOf arguments 1) - 1) true)
    | "eval" => perform (" ".intercalate arguments)
    | "." => performFile arguments
    | "command" =>
      match arguments with
      | [] => setStatus 0
      | name :: arguments => call name arguments
    | "exec" =>
      match arguments with
      | [] => setStatus 0
      | name :: arguments =>
        call name arguments
        throw .exit
    | "sh" | "dash" => isolate (start name arguments)
    | name => callSimple name arguments

/-- Performs the commands of a file. -/
partial def performFile (arguments : List String) : Step Unit := do
  let path := arguments.headD ""
  match (← disk).readText ⟨path⟩ with
  | .ok text => perform text
  | .error _ =>
    complain 2 ("cannot open " ++ path ++ ": No such file")
    throw .exit

/-- Runs the script that arguments name. -/
partial def start (name : String) (arguments : List String) : Step Unit := do
  let (flags, operands) := arguments.span fun a => a.startsWith "-" && a != "-"
  let letters := (flags.map fun a => a.toList.drop 1).flatten
  modify fun m => { m with name, arguments := [], functions := [], options := letters }
  match letters.contains 'c', operands with
  | true, script :: operands =>
    modify fun m => { m with name := operands.headD name, arguments := operands.drop 1 }
    toTheEnd (perform script)
  | false, path :: operands =>
    modify fun m => { m with name := path, arguments := operands }
    toTheEnd (performFile [path])
  | _, [] => pure ()

end

end StubGen.Shell
