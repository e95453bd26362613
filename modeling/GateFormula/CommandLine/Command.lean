import GateFormula.CommandLine.Arguments
import GateFormula.CommandLine.Setting

/-!
# Commands

Three commands: evaluate a formula, list its code, and check the requirements of a
session document. Every command and the program itself explain themselves on
request; the program also tells its version.
-/

namespace GateFormula.CommandLine

/-- A command with its arguments. -/
inductive Command where
  /-- Evaluate a formula after setting variables. -/
  | eval (source : String) (settings : List (String × Float))
  /-- List the code of a formula. -/
  | disasm (source : String)
  /-- Check the requirements of a session document, after a visit if asked for, and report
  in plain text or JSON. -/
  | check (path : String) (visit json : Bool)

/-- The file that a command reads, if any. -/
def Command.file? : Command → Option String
  | .check path _ _ => some path
  | .eval _ _ | .disasm _ => none

/-- Name and version of the program. -/
def version : String :=
  "gate-formula 0.1.0"

/-- How the program is called. -/
def usage : String :=
  "Usage: gate-formula <COMMAND>\n\n"
    ++ "Commands:\n"
    ++ "  eval <FORMULA> [-s, --set <NAME=VALUE>]...  Evaluate a formula\n"
    ++ "  disasm <FORMULA>                            List the code of a formula\n"
    ++ "  check -f, --file <PATH> [--visit] [--json]  Check the requirements of a session\n"
    ++ "  help [COMMAND]                              Explain a command\n"

/-- The option that explains a command. -/
def helpOption : Spec :=
  { long := "help", short := some 'h', effect := .refuse .displayHelp }

/-- The option that tells the version. -/
def versionOption : Spec :=
  { long := "version", short := some 'V', effect := .refuse .displayVersion }

/-- Arguments of the program before the command. -/
def programGrammar : Grammar :=
  ⟨[helpOption, versionOption], 0⟩

/-- Whether a text is a setting. -/
def isSetting (text : String) : Bool :=
  match readSetting text with
  | .ok _ => true
  | .error _ => false

/-- Arguments of the command that evaluates. -/
def evalGrammar : Grammar where
  options :=
    [ { long := "set", short := some 's', hasValue := true, repeatable := true,
        accepts := isSetting },
      helpOption ]
  operands := 1

/-- Arguments of the command that lists code. -/
def disasmGrammar : Grammar :=
  ⟨[helpOption], 1⟩

/-- Arguments of the command that checks. -/
def checkGrammar : Grammar where
  options :=
    [ { long := "file", short := some 'f', hasValue := true, required := true },
      { long := "visit" },
      { long := "json" },
      helpOption ]
  operands := 0

/-- Read the arguments of the command that evaluates. -/
def readEval (texts : List String) : Except Refusal Command := do
  let a ← Arguments.read evalGrammar texts
  let settings := (a.valuesOf "set").filterMap fun text => (readSetting text).toOption
  return .eval (a.operands.headD "") settings

/-- Read the arguments of the command that lists code. -/
def readDisasm (texts : List String) : Except Refusal Command := do
  let a ← Arguments.read disasmGrammar texts
  return .disasm (a.operands.headD "")

/-- Read the arguments of the command that checks. -/
def readCheck (texts : List String) : Except Refusal Command := do
  let a ← Arguments.read checkGrammar texts
  return .check ((a.valuesOf "file").headD "") (a.has "visit") (a.has "json")

/-- Names of the commands, of which the last explains the others. -/
def commandNames : List String :=
  ["eval", "disasm", "check", "help"]

/-- Explain the program or one of its commands. -/
def readHelp : List String → Refusal
  | [] => .displayHelp
  | [name] => if commandNames.contains name then .displayHelp else .invalidCommand
  | _ :: _ :: _ => .invalidCommand

/-- Read the arguments behind the name of a command. -/
def readNamed (name : String) (texts : List String) : Except Refusal Command :=
  match name with
  | "eval" => readEval texts
  | "disasm" => readDisasm texts
  | "check" => readCheck texts
  | "help" => .error (readHelp texts)
  | _ => .error .invalidCommand

/-- Read a command line. Behind `--` no command can follow. -/
def readCommand : List String → Except Refusal Command
  | [] => .error .missingCommand
  | "--" :: [] => .error .missingCommand
  | "--" :: name :: _ =>
    .error (if commandNames.contains name then .unknownArgument else .invalidCommand)
  | text :: texts =>
    match text.toList with
    | '-' :: _ :: _ =>
      match Arguments.take programGrammar {} text with
      | .error refusal => .error refusal
      | .ok _ => readCommand texts
    | _ => readNamed text texts

end GateFormula.CommandLine
