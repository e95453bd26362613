import GateFormula.Program
import GateFormula.Store

/-!
# The stack machine

Instructions run one after another on a stack of numbers whose top is the last
value pushed. A call takes its arguments off the stack, the last one first, and
pushes the answer. Nothing is skipped: both operands of a logical operator are
evaluated, and the first error ends the run. A call that finds too few values, or
a run that does not end with a single value, means that the code is not balanced;
compiled code always is.
-/

namespace GateFormula

/-- Why a run gives no number. -/
inductive Fault where
  /-- A variable is missing or a function refuses its arguments. -/
  | failed (cause : EvalError)
  /-- The code does not leave exactly one value on the stack. -/
  | unbalanced
deriving DecidableEq, Repr

/-- Wording of a fault. -/
def Fault.message : Fault → String
  | .failed cause => cause.message
  | .unbalanced => "the code is not balanced"

namespace Machine

/-- Call a function on the topmost `count` values of the stack. -/
def apply (function : Signature) (count : Nat) (stack : List Float) :
    Except Fault (List Float) :=
  if count ≤ stack.length then
    match Args.ofList? function.arity (stack.take count).reverse with
    | none => .error .unbalanced
    | some args =>
      match function.call args with
      | .error cause => .error (.failed cause)
      | .ok output => .ok (output.toNumber :: stack.drop count)
  else .error .unbalanced

/-- Run one instruction. -/
def step (store : Store) (stack : List Float) : Instruction → Except Fault (List Float)
  | .push value => .ok (value :: stack)
  | .load name =>
    match store.get? name with
    | some value => .ok (value :: stack)
    | none => .error (.failed (.undeclaredVariable name))
  | .call function count => apply function count stack

/-- Run instructions in order. -/
def run (store : Store) (stack : List Float) : List Instruction → Except Fault (List Float)
  | [] => .ok stack
  | instruction :: code =>
    match step store stack instruction with
    | .error fault => .error fault
    | .ok stack => run store stack code

end Machine

namespace Program

/-- The value of a program in a store. -/
def evaluate (p : Program) (store : Store) : Except Fault Float :=
  match Machine.run store [] p.code with
  | .error fault => .error fault
  | .ok [value] => .ok value
  | .ok _ => .error .unbalanced

/-- The value of a program as a truth value: only zero is false. -/
def test (p : Program) (store : Store) : Except Fault Bool :=
  (p.evaluate store).map Arithmetic.isTruthy

end Program

end GateFormula
