import GateFormula.Signature

/-!
# Programs

A compiled formula is a list of instructions for a stack machine in postfix order,
kept together with its text. A program never changes, so that it can be evaluated
as often as needed.
-/

namespace GateFormula

/-- One step of the stack machine. -/
inductive Instruction where
  /-- Push a number. -/
  | push (value : Float)
  /-- Push the value of a variable. -/
  | load (name : String)
  /-- Replace the topmost `count` values by the answer of a function. -/
  | call (function : Signature) (count : Nat)

/-- How an instruction is listed. -/
def Instruction.text : Instruction → String
  | .push value => "const " ++ Number.text value
  | .load name => "load $" ++ name ++ "$"
  | .call function count => "call " ++ function.name ++ "/" ++ toString count

/-- The variable that an instruction reads, if any. -/
def Instruction.variable? : Instruction → Option String
  | .load name => some name
  | .push _ | .call _ _ => none

/-- A compiled formula. -/
structure Program where
  /-- The text that was compiled. -/
  source : String
  /-- The instructions in the order of their execution. -/
  code : List Instruction

/-- Names in the order of their first occurrence, each once. -/
def firstOccurrences (names : List String) : List String :=
  names.foldl (fun seen name => if seen.contains name then seen else seen ++ [name]) []

namespace Program

/-- The variables that a program reads, in the order of their first use. -/
def references (p : Program) : List String :=
  firstOccurrences (p.code.filterMap Instruction.variable?)

/-- A line number, at least four characters wide. -/
def lineNumber (n : Nat) : String :=
  let digits := toString n
  String.ofList (List.replicate (4 - digits.length) ' ') ++ digits

/-- The instructions of a program, one to a line, numbered from zero. -/
def listing (p : Program) : String :=
  "\n".intercalate (p.code.mapIdx fun i instruction =>
    lineNumber i ++ "  " ++ instruction.text)

end Program

end GateFormula
