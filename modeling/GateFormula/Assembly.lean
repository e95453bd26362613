import GateFormula.Problem
import GateFormula.Program
import GateFormula.Registry
import GateFormula.Token

/-!
# Assembling code from tokens

Tokens are taken one by one and code is written as soon as its place is certain.
Every parenthesis and every argument list opens a grouping of its own. In a grouping
the operators of two operands wait until one that binds no tighter, a comma, the
closing parenthesis or the end of the text releases them, so that they never leave
their grouping; the operators of one operand wait for their operand and are written
right after it. Names and argument counts that the registry does not support are
noted and assembling goes on; an error in the text ends it at once.
-/

namespace GateFormula

/-- A function whose name has been read. -/
structure PendingCall where
  /-- The name. -/
  name : String
  /-- Index of the name. -/
  index : Nat
  /-- The function, if the registry has it. -/
  function : Option Signature

/-- What a grouping is. -/
inductive GroupingKind where
  /-- The whole formula. -/
  | root
  /-- A formula in parentheses. -/
  | group
  /-- The arguments of a call, with the number of commas so far. -/
  | call (callee : PendingCall) (commas : Nat)

/-- A part of the formula that is not complete. -/
structure Grouping where
  /-- What it is. -/
  kind : GroupingKind
  /-- Index of its opening parenthesis. -/
  index : Nat
  /-- Length of the code when it was opened. -/
  start : Nat
  /-- Operators of two operands that wait, the latest first. -/
  binaries : List Operator := []
  /-- Operators of one operand that wait, the latest first. -/
  unaries : List Operator := []
  /-- Whether an operand comes next. -/
  expectsOperand : Bool := true

namespace Grouping

/-- Commas seen between the arguments of a call. -/
def commas (g : Grouping) : Nat :=
  match g.kind with
  | .call _ commas => commas
  | .root | .group => 0

/-- Whether nothing has been written in a grouping, as far as the length of the code and
the waiting operators tell. -/
def isEmpty (g : Grouping) (codeLength : Nat) : Bool :=
  codeLength = g.start && g.unaries.isEmpty && g.binaries.isEmpty && g.commas = 0

end Grouping

/-- The state between two tokens. -/
structure Assembly where
  /-- The innermost grouping. -/
  current : Grouping
  /-- The groupings around it, innermost first. -/
  enclosing : List Grouping := []
  /-- A function whose argument list comes next. -/
  pending : Option PendingCall := none
  /-- The code so far. -/
  code : Array Instruction := #[]
  /-- The problems so far. -/
  problems : Array Problem := #[]
  /-- The variables read so far, in order, with repetitions. -/
  mentioned : Array String := #[]

namespace Assembly

/-- The state before the first token. -/
def initial : Assembly where
  current := { kind := .root, index := 0, start := 0 }

/-- Whether an operand comes next. -/
def expectsOperand (a : Assembly) : Bool :=
  a.pending.isSome || a.current.expectsOperand

/-- Calls of operators, in order. -/
def callsOf (operators : List Operator) (operands : Nat) : List Instruction :=
  operators.map fun o => .call o.function operands

/-- Write an instruction. -/
def emit (a : Assembly) (instruction : Instruction) : Assembly :=
  { a with code := a.code.push instruction }

/-- Note a problem. -/
def report (a : Assembly) (problem : Problem) : Assembly :=
  { a with problems := a.problems.push problem }

/-- The operand of the current grouping is complete: write the operators that wait for
it. -/
def completeOperand (a : Assembly) : Assembly :=
  { a with
    code := a.code ++ callsOf a.current.unaries 1
    current := { a.current with unaries := [], expectsOperand := false } }

/-- Write all waiting operators of two operands of the current grouping. -/
def release (a : Assembly) : Assembly :=
  { a with
    code := a.code ++ callsOf a.current.binaries 2
    current := { a.current with binaries := [] } }

/-- Go on only if an operand is expected. -/
def requireOperand (a : Assembly) (index : Nat) : Except SyntaxError Unit :=
  if a.current.expectsOperand then .ok () else .error ⟨index, .unexpectedOperand⟩

/-- Take a number. -/
def takeLiteral (a : Assembly) (index : Nat) (value : Float) : Except SyntaxError Assembly := do
  a.requireOperand index
  return (a.emit (.push value)).completeOperand

/-- Take a name between sigils. A constant of that name comes before a variable. -/
def takeReference (registry : Registry) (a : Assembly) (index : Nat) (name : String) :
    Except SyntaxError Assembly := do
  a.requireOperand index
  match registry.constant? name with
  | some value => return (a.emit (.push value)).completeOperand
  | none =>
    let a := { a with mentioned := a.mentioned.push name }
    return (a.emit (.load name)).completeOperand

/-- Take a bare name. One that names no constant keeps its place as a zero. -/
def takeConstant (registry : Registry) (a : Assembly) (index : Nat) (name : String) :
    Except SyntaxError Assembly := do
  a.requireOperand index
  match registry.constant? name with
  | some value => return (a.emit (.push value)).completeOperand
  | none =>
    let a := a.report (.unknownConstant name index)
    return (a.emit (.push 0)).completeOperand

/-- Take the name of a function. -/
def takeCall (registry : Registry) (a : Assembly) (index : Nat) (name : String) :
    Except SyntaxError Assembly := do
  a.requireOperand index
  match registry.function? name with
  | some function => return { a with pending := some ⟨name, index, some function⟩ }
  | none =>
    let a := a.report (.unknownFunction name index)
    return { a with pending := some ⟨name, index, none⟩ }

/-- Take an operator. Where an operand is expected it must be one of one operand, and
elsewhere one of two, before which every waiting operator that binds at least as tightly
is written. -/
def takeOperator (registry : Registry) (a : Assembly) (index : Nat) (symbol : String) :
    Except SyntaxError Assembly :=
  match registry.operator? symbol with
  | none => .error ⟨index, .unknownOperator⟩
  | some o =>
    if a.current.expectsOperand then
      if o.isUnary then
        .ok { a with current := { a.current with unaries := o :: a.current.unaries } }
      else .error ⟨index, .missingOperand⟩
    else if o.isUnary then .error ⟨index, .misplacedOperator⟩
    else
      let ready := a.current.binaries.takeWhile (·.rank ≤ o.rank)
      let waiting := a.current.binaries.dropWhile (·.rank ≤ o.rank)
      .ok
        { a with
          code := a.code ++ callsOf ready 2
          current := { a.current with binaries := o :: waiting, expectsOperand := true } }

/-- Open a grouping. -/
def openGrouping (a : Assembly) (kind : GroupingKind) (index : Nat) : Assembly :=
  { a with
    current := { kind, index, start := a.code.size }
    enclosing := a.current :: a.enclosing
    pending := none }

/-- Take an opening parenthesis. -/
def takeOpening (a : Assembly) (index : Nat) : Except SyntaxError Assembly :=
  match a.pending with
  | some callee => .ok (a.openGrouping (.call callee 0) index)
  | none => do
    a.requireOperand index
    return a.openGrouping .group index

/-- Take a comma. -/
def takeComma (a : Assembly) (index : Nat) : Except SyntaxError Assembly :=
  match a.current.kind with
  | .root | .group => .error ⟨index, .misplacedComma⟩
  | .call callee commas =>
    if a.current.expectsOperand then .error ⟨index, .missingOperand⟩
    else
      let a := a.release
      .ok
        { a with
          current := { a.current with kind := .call callee (commas + 1), expectsOperand := true } }

/-- Write a call with `count` arguments. A function that the registry lacks has been noted
when its name was read. -/
def finishCall (a : Assembly) (callee : PendingCall) (count : Nat) : Assembly :=
  match callee.function with
  | none => a
  | some function =>
    if function.accepts count then a.emit (.call function count)
    else a.report (.arityMismatch callee.name callee.index count function)

/-- Leave the current grouping for the one around it, where it is an operand. -/
def leave (a : Assembly) (index : Nat) (isEmpty : Bool) : Except SyntaxError Assembly :=
  match a.enclosing with
  | [] => .error ⟨index, .unmatchedClose⟩
  | outer :: enclosing =>
    let inner := a.current
    let a := { a with current := outer, enclosing }
    let a := match inner.kind with
      | .call callee commas => a.finishCall callee (if isEmpty then 0 else commas + 1)
      | .root | .group => a
    .ok a.completeOperand

/-- Take a closing parenthesis. -/
def takeClosing (a : Assembly) (index : Nat) : Except SyntaxError Assembly :=
  let isEmpty := a.current.isEmpty a.code.size
  match a.current.kind, isEmpty with
  | .root, _ => .error ⟨index, .unmatchedClose⟩
  | .group, true => .error ⟨a.current.index, .emptyGroup⟩
  | _, _ =>
    if a.current.expectsOperand && !isEmpty then .error ⟨index, .missingOperand⟩
    else a.release.leave index isEmpty

/-- Take the end of the text. -/
def takeFinish (a : Assembly) (index : Nat) : Except SyntaxError Assembly :=
  if !a.enclosing.isEmpty then .error ⟨a.current.index, .unmatchedOpen⟩
  else if a.current.expectsOperand then
    .error ⟨index,
      if a.current.isEmpty a.code.size then .emptyExpression else .missingOperand⟩
  else .ok a.release

/-- Take a token. After the name of a function only its argument list may follow. -/
def take (registry : Registry) (a : Assembly) (located : Located) :
    Except SyntaxError Assembly :=
  if a.pending.isSome && located.token ≠ .opening then
    .error ⟨located.index, .unexpectedOperand⟩
  else
    match located.token with
    | .literal value => a.takeLiteral located.index value
    | .reference name => a.takeReference registry located.index name
    | .call name => a.takeCall registry located.index name
    | .constant name => a.takeConstant registry located.index name
    | .operator symbol => a.takeOperator registry located.index symbol
    | .opening => a.takeOpening located.index
    | .comma => a.takeComma located.index
    | .closing => a.takeClosing located.index
    | .finish => a.takeFinish located.index

end Assembly

end GateFormula
