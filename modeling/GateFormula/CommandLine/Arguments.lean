/-!
# Reading arguments

Arguments are options, with or without a value, and operands. An option is long, as
`--name` with its value after an equals sign or in the next argument, or short, as
`-n` with its value attached or in the next argument; short options without values
may share a dash. After `--` everything is an operand. An option whose value is in
the next argument is settled only when that value is there, so a wrong value comes to
light after the faults in the form of the argument behind it.
-/

namespace GateFormula.CommandLine

/-- Why arguments are not accepted, or what is shown instead of running. -/
inductive Refusal where
  /-- Help is asked for. -/
  | displayHelp
  /-- The version is asked for. -/
  | displayVersion
  /-- No command is given, which shows the help too. -/
  | missingCommand
  /-- The command is not known. -/
  | invalidCommand
  /-- An option or an operand is not known. -/
  | unknownArgument
  /-- Something required is not given. -/
  | missingArgument
  /-- An option is given without its value. -/
  | missingValue
  /-- A value does not have the form that its option asks for. -/
  | rejectedValue
  /-- An option that may be given once is given again. -/
  | repeatedOption
  /-- An option without a value is given one. -/
  | unexpectedValue
deriving DecidableEq, Repr

/-- Wording of a refusal; what is shown instead of running has no words of its own. -/
def Refusal.message : Refusal → String
  | .displayHelp | .displayVersion => ""
  | .missingCommand => "a command is required"
  | .invalidCommand => "unrecognized command"
  | .unknownArgument => "unexpected argument"
  | .missingArgument => "a required argument was not provided"
  | .missingValue => "an option lacks its value"
  | .rejectedValue => "invalid value for an option"
  | .repeatedOption => "an option cannot be used more than once"
  | .unexpectedValue => "an option takes no value"

/-- What an option does. -/
inductive Effect where
  /-- It is recorded. -/
  | record
  /-- It ends the reading. -/
  | refuse (refusal : Refusal)
deriving DecidableEq, Repr

/-- An option that a command has. -/
structure Spec where
  /-- Name after two dashes. -/
  long : String
  /-- Letter after one dash. -/
  short : Option Char := none
  /-- Whether it has a value. -/
  hasValue : Bool := false
  /-- Whether it may be given more than once. -/
  repeatable : Bool := false
  /-- Whether it must be given. -/
  required : Bool := false
  /-- Which values it takes. -/
  accepts : String → Bool := fun _ => true
  /-- What it does. -/
  effect : Effect := .record

/-- The options and the operands of a command. -/
structure Grammar where
  /-- Options. -/
  options : List Spec
  /-- Number of operands, all of them required. -/
  operands : Nat

/-- Arguments that have been read. -/
structure Arguments where
  /-- Options in order, with their values. -/
  given : List (String × Option String) := []
  /-- Operands in order. -/
  operands : List String := []
  /-- An option that is not settled, and its value if it is there. -/
  pending : Option (Spec × Option String) := none
  /-- Whether the next argument may be the value of the pending option. -/
  awaiting : Bool := false

namespace Arguments

/-- Whether an option has been recorded. -/
def has (a : Arguments) (long : String) : Bool :=
  a.given.any fun option => option.1 = long

/-- The values of an option. -/
def valuesOf (a : Arguments) (long : String) : List String :=
  a.given.filterMap fun option => if option.1 = long then option.2 else none

/-- Record an option, unless it may not be given again or its value is wrong. -/
def record (a : Arguments) (spec : Spec) (value : Option String) :
    Except Refusal Arguments :=
  if a.has spec.long && !spec.repeatable then .error .repeatedOption
  else if !value.all spec.accepts then .error .rejectedValue
  else .ok { a with given := a.given ++ [(spec.long, value)] }

/-- Settle the pending option. -/
def settle (a : Arguments) : Except Refusal Arguments :=
  match a.pending with
  | none => .ok a
  | some (_, none) => .error .missingValue
  | some (spec, some value) => { a with pending := none }.record spec (some value)

/-- Take an option whose value, if it has one, is there. -/
def takeComplete (a : Arguments) (spec : Spec) (value : Option String) :
    Except Refusal Arguments := do
  let a ← a.settle
  match spec.effect with
  | .refuse refusal => .error refusal
  | .record => return { ← a.record spec value with awaiting := false }

/-- Take an option whose value is to follow. -/
def takeAwaiting (a : Arguments) (spec : Spec) : Except Refusal Arguments := do
  let a ← a.settle
  return { a with pending := some (spec, none), awaiting := true }

/-- Take a long option, the dashes dropped. -/
def takeLong (grammar : Grammar) (a : Arguments) (text : List Char) :
    Except Refusal Arguments :=
  let name := text.takeWhile (· ≠ '=')
  let value := match text.dropWhile (· ≠ '=') with
    | [] => none
    | _ :: value => some (String.ofList value)
  match grammar.options.find? fun spec => spec.long.toList = name with
  | none => .error .unknownArgument
  | some spec =>
    match spec.hasValue, value with
    | true, some value => a.takeComplete spec (some value)
    | true, none => a.takeAwaiting spec
    | false, none => a.takeComplete spec none
    | false, some _ => .error .unexpectedValue

/-- Take the short options behind a dash. -/
def takeShort (grammar : Grammar) (a : Arguments) : List Char → Except Refusal Arguments
  | [] => .ok a
  | c :: cs =>
    match grammar.options.find? fun spec => spec.short = some c with
    | none => .error .unknownArgument
    | some spec =>
      if spec.hasValue then
        match cs with
        | [] => a.takeAwaiting spec
        | '=' :: value => a.takeComplete spec (some (String.ofList value))
        | value => a.takeComplete spec (some (String.ofList value))
      else
        match a.takeComplete spec none with
        | .error refusal => .error refusal
        | .ok a => takeShort grammar a cs

/-- Take an operand. -/
def takeOperand (grammar : Grammar) (a : Arguments) (text : String) :
    Except Refusal Arguments := do
  if grammar.operands ≤ a.operands.length then .error .unknownArgument
  else
    let a ← a.settle
    return { a with operands := a.operands ++ [text] }

/-- Take operands only. -/
def takeOperands (grammar : Grammar) (a : Arguments) (texts : List String) :
    Except Refusal Arguments :=
  texts.foldlM (takeOperand grammar) a

/-- Take an argument that is not `--`. -/
def take (grammar : Grammar) (a : Arguments) (text : String) : Except Refusal Arguments :=
  match text.toList with
  | '-' :: '-' :: long => a.takeLong grammar long
  | '-' :: c :: short => a.takeShort grammar (c :: short)
  | _ =>
    match a.awaiting, a.pending with
    | true, some (spec, _) => .ok { a with pending := some (spec, some text), awaiting := false }
    | _, _ => a.takeOperand grammar text

/-- Take arguments in order. -/
def takeAll (grammar : Grammar) (a : Arguments) : List String → Except Refusal Arguments
  | [] => .ok a
  | text :: texts =>
    if text = "--" then a.takeOperands grammar texts
    else
      match a.take grammar text with
      | .error refusal => .error refusal
      | .ok a => takeAll grammar a texts

/-- Whether everything required has been given. -/
def isComplete (grammar : Grammar) (a : Arguments) : Bool :=
  a.operands.length = grammar.operands
    && grammar.options.all fun spec => !spec.required || a.has spec.long

/-- Read the arguments of a command. -/
def read (grammar : Grammar) (texts : List String) : Except Refusal Arguments := do
  let a ← takeAll grammar {} texts
  let a ← a.settle
  if a.isComplete grammar then return a else .error .missingArgument

end Arguments

end GateFormula.CommandLine
