import GateFormula.CommandLine.Execution

/-!
# The program

The outer layer of the command line: it reads the file that a command needs, runs the
command and prints what it answers. The exit status is zero for success, one for
failure and two for arguments that are not accepted.
-/

namespace GateFormula.CommandLine

/-- Why the system cannot read a file. Its error codes come with either sign. -/
def FileError.ofSystem : IO.Error → FileError
  | .noFileOrDirectory _ _ _ => .notFound
  | .inappropriateType _ code reason =>
    if code = 20 ∨ code + 20 = 0 then .notADirectory
    else if code = 21 ∨ code + 21 = 0 then .isDirectory
    else .other reason
  | error => .other (toString error)

/-- Read a file. -/
def readText (path : String) : IO (Except FileError String) := do
  try
    return .ok (← IO.FS.readFile path)
  catch error =>
    return .error (.ofSystem error)

/-- Print an outcome; the exit status that goes with it. -/
def Outcome.print (outcome : Outcome) : IO UInt32 := do
  IO.print outcome.output
  IO.eprint outcome.errors
  return if outcome.success then 0 else 1

/-- Print why arguments are not accepted; the exit status that goes with it. -/
def Refusal.print (refusal : Refusal) : IO UInt32 := do
  match refusal with
  | .displayHelp =>
    IO.print usage
    return 0
  | .displayVersion =>
    IO.println version
    return 0
  | _ =>
    IO.eprint ("error: " ++ refusal.message ++ "\n\n" ++ usage)
    return 2

/-- Run a command; the file that it needs is read first. -/
def run (command : Command) : IO UInt32 := do
  let contents ← match command.file? with
    | some path => readText path
    | none => pure (.error .notFound)
  (execute (fun _ => contents) command).print

end GateFormula.CommandLine

/-- Run the command that the arguments name. -/
def main (args : List String) : IO UInt32 :=
  match GateFormula.CommandLine.readCommand args with
  | .ok command => GateFormula.CommandLine.run command
  | .error refusal => refusal.print
