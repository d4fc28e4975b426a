import StubGen.Program
import StubGen.Shell.Run

/-!
# The programs at hand

A run works on a disk of its own, which no program of the operating system can see. The programs
that it can call are therefore the few that run on that disk themselves: the shell, and the small
programs that come with it. They belong to the program's surroundings and not to what is proved about
it: programs are a parameter wherever one is called.
-/

namespace StubGen.Shell

/-- The names of the programs. -/
def programNames : List String :=
  ["sh", "dash", "true", "false", "echo", "printf", "test", "[", "cat", "cp", "mv", "rm", "mkdir",
    "rmdir", "touch", "basename", "dirname", "sleep"]

/-- The directories of the programs. -/
def directories : List String := ["/bin/", "/usr/bin/"]

/-- Finds a program by its name, or by a path if there is a separator in it. A file that is no
program must not be run. -/
def findProgram (d : Disk) (name : String) : Except IoError String :=
  if !name.toList.contains '/' then
    if programNames.contains name then .ok name
    else if name == "." || name == ".." then .error (.os .permissionDenied)
    else if name.utf8ByteSize > Disk.nameLimit then .error (.os .nameTooLong)
    else .error (.os .notFound)
  else if programNames.contains (baseName name) &&
      directories.any (· ++ baseName name == name) then .ok (baseName name)
  else do
    -- What is there is no program, and what is not there fails for its own reason.
    discard (d.locate ⟨name⟩)
    throw (.os .permissionDenied)

/-- The programs under an environment. Where a program went is its own affair. -/
def programs (bindings : List (String × String)) : Programs where
  call name arguments s :=
    match findProgram s.disk name with
    | .error e => (.error e, s)
    | .ok program =>
      let start : Machine := { session := s, bindings, name }
      let (outcome, m) := (toTheEnd (call program arguments)).run start
      let status : Int :=
        match outcome with
        | .ok () => m.status
        | .error _ => -1
      let disk := { m.session.disk with workingDirectory := s.disk.workingDirectory }
      (.ok status, m.session.withDisk disk)

end StubGen.Shell
