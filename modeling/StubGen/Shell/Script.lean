/-!
# Scripts

The command language in which a compiler can be given as a script, as far as such scripts need it:
simple commands with assignments and redirections, the connectives between them, conditions, loops,
choices by pattern and functions. Words hold commands in turn, whose output takes their place.
-/

namespace StubGen.Shell

mutual

/-- A part of a word. -/
inductive Part
  | char (c : Char) (quoted : Bool)
  /-- A pair of quotes, which make a word even if there is nothing in them. -/
  | quotes
  /-- A parameter; the operator says what is made of its value with another word. -/
  | parameter (name operator : String) (operand : List Part) (quoted : Bool)
  /-- What a command prints. -/
  | output (body : Command) (quoted : Bool)
  /-- The value of a whole-number expression. -/
  | sum (expression : List Part) (quoted : Bool)

/-- A command. -/
inductive Command
  | nothing
  | simple (assignments : List (String × List Part)) (words : List (List Part))
  /-- A command with streams led elsewhere: which stream, by which operator, and where. -/
  | redirected (body : Command) (redirections : List (Nat × String × List Part))
  | sequence (first second : Command)
  /-- The second part runs only if the first succeeded. -/
  | both (first second : Command)
  /-- The second part runs only if the first failed. -/
  | either (first second : Command)
  | negated (body : Command)
  /-- The second part reads what the first prints. -/
  | pipe (first second : Command)
  | condition (test yes no : Command)
  /-- The body as long as the test succeeds, or until it does. -/
  | again (isUntil : Bool) (test body : Command)
  /-- The body once for every field of the words. -/
  | loop (name : String) (words : List (List Part)) (body : Command)
  /-- The body of the first branch with a pattern that the word fits. -/
  | choice (word : List Part) (branches : List (List (List Part) × Command))
  /-- A group that changes nothing around it. -/
  | isolated (body : Command)
  | function (name : String) (body : Command)

end

instance : Inhabited Part := ⟨.quotes⟩

instance : Inhabited Command := ⟨.nothing⟩

/-- A word before its expansion. -/
abbrev Word := List Part

/-- A stream of a command led elsewhere. -/
abbrev Redirection := Nat × String × Word

end StubGen.Shell
