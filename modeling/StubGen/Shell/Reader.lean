import StubGen.Shell.Script

/-!
# Reading scripts

A script is read from its characters in one pass. Quotes and parameters are found on the way, and a
text that is no script is refused as a whole.
-/

namespace StubGen.Shell

/-- Reads something from the front of a text. -/
abbrev Reader := StateT (List Char) Option

instance {α : Type} : Inhabited (Reader α) := ⟨failure⟩

namespace Reader

/-! ## Characters -/

def skip (n : Nat) : Reader Unit := modify (·.drop n)

def sees (s : String) : Reader Bool := return s.toList.isPrefixOf (← get)

/-- Takes a text if it comes next. -/
def takes (s : String) : Reader Bool := do
  let found ← sees s
  if found then skip s.length
  return found

/-- Takes a text that has to come next. -/
def close (s : String) : Reader Unit := do
  if !(← takes s) then failure

/-- Skips blanks and comments, and line ends as well if they mean nothing here. -/
partial def blanks (lines : Bool) : Reader Unit := do
  match ← get with
  | ' ' :: s | '\t' :: s | '\\' :: '\n' :: s => set s; blanks lines
  | '#' :: s => set (s.dropWhile (· != '\n')); blanks lines
  | '\n' :: s => if lines then set s; blanks lines
  | _ => pure ()

/-- Whether a word ends here. -/
def wordEnds (s : List Char) : Bool := s.head?.all "|&;<>() \t\n".toList.contains

def isNameChar (c : Char) : Bool := c.isAlphanum || c == '_'

/-- The word that comes next, as it is written. -/
def upcoming : Reader String := do
  return String.ofList ((← get).takeWhile fun c => !wordEnds [c])

/-- Takes a word that has to come next. -/
def expect (word : String) : Reader Unit := do
  blanks true
  if (← upcoming) == word then skip word.length else failure

/-- The name of a parameter, which is empty if there is none. -/
def parameterName : Reader String := do
  let name : List Char :=
    match ← get with
    | c :: s =>
      if c.isDigit || "@*#?$-".toList.contains c then [c]
      else (c :: s).takeWhile isNameChar
    | [] => []
  skip name.length
  return String.ofList name

/-- The operators on the value of a parameter, the longer ones first. -/
def operators : List String :=
  [":-", ":=", ":?", ":+", "%%", "##", "-", "=", "?", "+", "%", "#"]

/-- The operators that lead streams elsewhere, the longer ones first. -/
def redirectionOperators : List String := ["<<-", "<<", "<&", "<", ">>", ">&", ">|", ">"]

/-- The words that end a list of commands. -/
def closers : List String := ["then", "else", "elif", "fi", "do", "done", "esac", "\x7d"]

/-- The written characters of a word. -/
def written (w : Word) : String :=
  String.ofList <| w.filterMap fun
    | .char c _ => some c
    | _ => none

def isQuoted (w : Word) : Bool :=
  w.any fun
    | .char _ quoted => quoted
    | _ => true

/-! ## Words and commands -/

mutual

/-- The parts of a word, up to where it stops. -/
partial def parts (quoted : Bool) (stops : List Char → Bool) : Reader Word := do
  let s ← get
  if s.isEmpty || stops s then return []
  skip 1
  let first : Word ←
    match s with
    | '\\' :: '\n' :: _ => skip 1; pure []
    | '\\' :: c :: _ =>
      skip 1
      -- Between quotes a backslash stays unless there is something to protect.
      if quoted && !"$`\"\\".toList.contains c then pure [.char '\\' true, .char c true]
      else pure [.char c true]
    | '$' :: s => pure [← expansion quoted s]
    | '`' :: s =>
      let text := s.takeWhile (· != '`')
      skip (text.length + 1)
      let (body, _) ← (list.run text : Option (Command × List Char))
      pure [.output body quoted]
    | c :: s =>
      if quoted || c != '"' && c != '\'' then pure [.char c quoted]
      else if c == '"' then
        let inner ← parts true (·.head? == some '"')
        close "\""
        pure (.quotes :: inner)
      else
        let text := s.takeWhile (· != '\'')
        skip text.length
        close "'"
        pure (.quotes :: text.map (.char · true))
    | [] => pure []
  return first ++ (← parts quoted stops)

/-- What a dollar sign starts, with the characters behind it. -/
partial def expansion (quoted : Bool) (s : List Char) : Reader Part := do
  match s with
  | '(' :: '(' :: _ =>
    skip 2
    return .sum (← expression 0) quoted
  | '(' :: _ =>
    skip 1
    let body ← list
    close ")"
    return .output body quoted
  | '{' :: '#' :: c :: _ =>
    if c == '}' then
      skip 3
      return .parameter "#" "" [] quoted
    skip 2
    let name ← parameterName
    skip 1
    return .parameter name "length" [] quoted
  | '{' :: _ =>
    skip 1
    let name ← parameterName
    let operator := (← operators.filterM sees).headD ""
    skip operator.length
    let isTrimming := operator.startsWith "%" || operator.startsWith "#"
    let operand ← parts (quoted && !isTrimming) (·.head? == some '}')
    close "\x7d"
    return .parameter name operator operand quoted
  | _ =>
    let name ← parameterName
    return if name == "" then .char '$' quoted else .parameter name "" [] quoted

/-- An expression up to the parentheses that end it. -/
partial def expression (depth : Nat) : Reader Word := do
  let w ← parts true fun s => s.head? == some '(' || s.head? == some ')'
  if depth == 0 && (← takes "))") then return w
  else if ← takes "(" then return w ++ .char '(' true :: (← expression (depth + 1))
  else if ← takes ")" then return w ++ .char ')' true :: (← expression (depth - 1))
  else failure

/-- A redirection, if one comes next. -/
partial def redirection? : Reader (Option Redirection) := do
  let (digits, s) := (← get).span Char.isDigit
  let some operator := redirectionOperators.find? fun o => o.toList.isPrefixOf s | return none
  skip (digits.length + operator.length)
  blanks false
  let target ← parts false wordEnds
  let usual := if operator.startsWith "<" then 0 else 1
  let stream := (String.ofList digits).toNat?.getD usual
  if operator.startsWith "<<" then
    return some (stream, "<<", ← document (operator == "<<-") target)
  return some (stream, operator, target)

/-- The lines behind this one, up to the one that was announced. -/
partial def document (isIndented : Bool) (delimiter : Word) : Reader Word := do
  let (line, after) := (← get).span (· != '\n')
  let lines := (String.ofList (after.drop 1)).splitOn "\n"
  let shown (l : String) := if isIndented then (l.dropWhile (· == '\t')).toString else l
  let body := lines.takeWhile fun l => shown l != written delimiter
  set (line ++ '\n' :: ("\n".intercalate (lines.drop (body.length + 1))).toList)
  let text := (String.join (body.map fun l => shown l ++ "\n")).toList
  if isQuoted delimiter then return text.map (.char · true)
  let (w, _) ← ((parts true fun _ => false).run text : Option (Word × List Char))
  return w

partial def redirections : Reader (List Redirection) := do
  blanks false
  match ← redirection? with
  | some r => return r :: (← redirections)
  | none => return []

/-- A simple command, of which a part has been read, or a function. -/
partial def simple (assignments : List (String × Word)) (words : List Word)
    (before : List Redirection) : Reader Command := do
  let before := before ++ (← redirections)
  let s ← get
  let name := s.takeWhile isNameChar
  if wordEnds s then
    if words.length == 1 && (← takes "()") then
      blanks true
      return .function (written words.flatten) (← command)
    if assignments.isEmpty && words.isEmpty && before.isEmpty then failure
    let c := Command.simple assignments words
    return if before.isEmpty then c else .redirected c before
  else if words.isEmpty && !name.isEmpty && (s.drop name.length).head? == some '=' then
    skip (name.length + 1)
    let value ← parts false wordEnds
    simple (assignments ++ [(String.ofList name, value)]) words before
  else
    let word ← parts false wordEnds
    simple assignments (words ++ [word]) before

/-- The words up to the end of a line. -/
partial def wordsOfLine : Reader (List Word) := do
  blanks false
  if wordEnds (← get) then return []
  let word ← parts false wordEnds
  return word :: (← wordsOfLine)

/-- The body of a loop. -/
partial def body : Reader Command := do
  expect "do"
  let c ← list
  expect "done"
  return c

/-- A condition behind the word that starts it. -/
partial def condition : Reader Command := do
  let test ← list
  expect "then"
  let yes ← list
  blanks true
  let word ← upcoming
  skip word.length
  match word with
  | "elif" => return .condition test yes (← condition)
  | "else" =>
    let no ← list
    expect "fi"
    return .condition test yes no
  | "fi" => return .condition test yes .nothing
  | _ => failure

/-- The patterns of a branch. -/
partial def patterns : Reader (List Word) := do
  blanks false
  let pattern ← parts false wordEnds
  blanks false
  if ← takes "|" then return pattern :: (← patterns)
  else if ← takes ")" then return [pattern]
  else failure

/-- The branches of a choice. -/
partial def branches : Reader (List (List Word × Command)) := do
  blanks true
  if (← upcoming) == "esac" then
    skip 4
    return []
  discard (takes "(")
  let ps ← patterns
  let c ← list
  blanks true
  discard (takes ";;")
  return (ps, c) :: (← branches)

/-- A command that a word opens, behind that word. -/
partial def compound (word : String) : Reader Command := do
  match word with
  | "if" => condition
  | "while" | "until" =>
    let test ← list
    return .again (word == "until") test (← body)
  | "for" =>
    blanks false
    let name ← parameterName
    blanks true
    let arguments : Word := [.parameter "@" "" [] true]
    let words ←
      if (← upcoming) == "in" then
        skip 2
        wordsOfLine
      else pure [arguments]
    discard (takes ";")
    return .loop name words (← body)
  | "case" =>
    blanks false
    let w ← parts false wordEnds
    expect "in"
    return .choice w (← branches)
  | "\x7b" =>
    let c ← list
    expect "\x7d"
    return c
  | _ =>
    let c ← list
    close ")"
    return .isolated c

partial def command : Reader Command := do
  blanks false
  let word ← upcoming
  if ["if", "while", "until", "for", "case", "\x7b"].contains word || (← sees "(") then
    skip (max word.length 1)
    let c ← compound word
    match ← redirections with
    | [] => return c
    | rs => return .redirected c rs
  else simple [] [] []

/-- Commands that read from each other, perhaps negated. -/
partial def pipeline : Reader Command := do
  blanks false
  if (← upcoming) == "!" then
    skip 1
    return .negated (← pipeline)
  let c ← command
  blanks false
  if (← sees "|") && !(← sees "||") then
    skip 1
    blanks true
    return .pipe c (← pipeline)
  return c

/-- What follows a pipeline under a condition. -/
partial def chain (c : Command) : Reader Command := do
  blanks false
  if ← takes "&&" then
    blanks true
    chain (.both c (← pipeline))
  else if ← takes "||" then
    blanks true
    chain (.either c (← pipeline))
  else return c

/-- Commands one after the other, up to what closes them. -/
partial def list : Reader Command := do
  blanks true
  if (← get).isEmpty || (← sees ")") || (← sees ";;") || closers.contains (← upcoming) then
    return .nothing
  let c ← chain (← pipeline)
  blanks false
  if ← sees ";;" then return c
  if (← takes ";") || (← takes "&") || (← sees "\n") then return .sequence c (← list)
  return c

end

end Reader

/-- The command that a text is, if it is one. -/
def Command.ofText? (text : String) : Option Command :=
  match Reader.list.run text.toList with
  | some (c, []) => some c
  | _ => none

end StubGen.Shell
