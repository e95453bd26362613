import GateFormula.Builtin
import GateFormula.CommandLine.Command
import GateFormula.Session.Document

/-!
# Running commands

A command answers with what it prints and whether it succeeds. It sees the outside
only through a function that reads files; how the text of a session is read and how
a report is written are `Formats`, of which the program has a standard one. A formula
that does not compile is explained by its diagnostics alone; every other failure is an
error with its context in front of it.
-/

namespace GateFormula.CommandLine

/-- Why a file cannot be read. -/
inductive FileError where
  /-- There is no such file. -/
  | notFound
  /-- It is a directory. -/
  | isDirectory
  /-- Its path leads through something that is no directory. -/
  | notADirectory
  /-- Any other reason, in words. -/
  | other (reason : String)
deriving DecidableEq, Repr

/-- Wording of a failure to read a file. -/
def FileError.message : FileError → String
  | .notFound => "No such file or directory (os error 2)"
  | .isDirectory => "Is a directory (os error 21)"
  | .notADirectory => "Not a directory (os error 20)"
  | .other reason => reason

/-- How sessions are read and reports are written. -/
structure Formats where
  /-- The definition that the text of a session holds, or why it holds none. -/
  readSession : String → Except String SessionDef
  /-- The text of a JSON value. -/
  writeJson : Json → String

/-- Sessions in YAML and indented JSON. -/
def Formats.standard : Formats where
  readSession text := (SessionDef.parse text).mapError DocumentError.message
  writeJson := Json.pretty

/-- What a command prints and whether it succeeds. -/
structure Outcome where
  /-- Standard output. -/
  output : String := ""
  /-- Standard error. -/
  errors : String := ""
  /-- Whether the exit status is that of success. -/
  success : Bool := true
deriving DecidableEq, Repr

/-- Failure with lines on standard error. -/
def Outcome.failure (lines : List String) : Outcome where
  errors := lines.foldl (fun text line => text ++ line ++ "\n") ""
  success := false

/-- Failure with an error and its context. -/
def Outcome.failureIn (context message : String) : Outcome :=
  .failure ["Error: " ++ context ++ ": " ++ message]

/-- Evaluate a formula after setting variables. -/
def executeEval (source : String) (settings : List (String × Float)) : Outcome :=
  let store := settings.foldl (fun store (name, value) => store.set name value) Store.empty
  let (result, store) := compileIn .builtin store source
  match result with
  | .error diagnostics => .failure [diagnostics.message]
  | .ok program =>
    match program.evaluate store with
    | .error fault => .failureIn ("evaluating `" ++ source ++ "`") fault.message
    | .ok value => { output := Number.text value ++ "\n" }

/-- List the code of a formula. -/
def executeDisasm (source : String) : Outcome :=
  match (compile .builtin source).result with
  | .error diagnostics => .failure [diagnostics.message]
  | .ok program => { output := program.listing ++ "\n" }

/-- The line of a requirement in a plain report. -/
def outcomeLine (name : String) (outcome : Except Fault Bool) : String :=
  let text := match outcome with
    | .ok true => "met"
    | .ok false => "not met"
    | .error fault => "error: " ++ fault.message
  "  " ++ name ++ ": " ++ text ++ "\n"

/-- Whether a requirement has an outcome. -/
def hasOutcome : Except Fault Bool → Bool
  | .ok _ => true
  | .error _ => false

/-- Report on a session in plain text; the command fails if a requirement has no outcome. -/
def plainReport (s : Session) : Outcome where
  output := s.checkAll.foldl (fun text (name, outcome) => text ++ outcomeLine name outcome)
    ("Session: " ++ s.name ++ "\n")
  success := s.checkAll.all fun (_, outcome) => hasOutcome outcome

/-- Report on a session in JSON. -/
def jsonReport (formats : Formats) (s : Session) : Outcome where
  output := formats.writeJson s.report ++ "\n"

/-- Report on a session, after a visit if asked for. -/
def reportOn (formats : Formats) (s : Session) (visit json : Bool) : Outcome :=
  let (visited, s) := if visit then s.visit else (.ok (), s)
  match visited with
  | .error (.evaluation fault) =>
    .failureIn "visiting session"
      ((SessionError.evaluation fault).message ++ ": " ++ fault.message)
  | .error error => .failureIn "visiting session" error.message
  | .ok () => if json then jsonReport formats s else plainReport s

/-- Check the requirements of a session document. -/
def executeCheck (formats : Formats) (readFile : String → Except FileError String)
    (path : String) (visit json : Bool) : Outcome :=
  let context := "loading session " ++ path
  match readFile path with
  | .error error => .failureIn context error.message
  | .ok text =>
    match formats.readSession text with
    | .error message => .failureIn context message
    | .ok definition =>
      match Session.ofDefinition definition .builtin with
      | .error failures => .failure (failures.map EntryFailure.message)
      | .ok s => reportOn formats s visit json

/-- Run a command with given formats. -/
def executeWith (formats : Formats) (readFile : String → Except FileError String) :
    Command → Outcome
  | .eval source settings => executeEval source settings
  | .disasm source => executeDisasm source
  | .check path visit json => executeCheck formats readFile path visit json

/-- Run a command. -/
def execute (readFile : String → Except FileError String) : Command → Outcome :=
  executeWith .standard readFile

end GateFormula.CommandLine
