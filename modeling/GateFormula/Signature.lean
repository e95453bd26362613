import GateFormula.Number.Layout
import GateFormula.Text.Quoted

/-!
# Callable functions

A signature is a name, a number of fixed arguments, whether more may follow, and
the function itself. The type of the function says what it is given: exactly as
many fixed arguments as the signature has, and a list of the others. A function
answers with a number or a truth value, or refuses with an error.
-/

namespace GateFormula

/-- What a function answers. -/
inductive Output where
  /-- A number. -/
  | number (value : Float)
  /-- A truth value. -/
  | truth (value : Bool)

/-- An answer as a number: true is one and false is zero. -/
def Output.toNumber : Output → Float
  | .number value => value
  | .truth true => 1
  | .truth false => 0

/-- Why a formula that compiles has no value. -/
inductive EvalError where
  /-- An operator was asked to divide by zero. -/
  | divisionByZero (operator : String)
  /-- A variable is not in the store the formula is evaluated against. -/
  | undeclaredVariable (name : String)
  /-- A function does not accept the values of its arguments. -/
  | domain (function reason : String)
deriving DecidableEq, Repr

/-- Wording of an evaluation error. -/
def EvalError.message : EvalError → String
  | .divisionByZero operator => "division by zero in '" ++ operator ++ "'"
  | .undeclaredVariable name => "variable '" ++ name ++ "' is not declared in this store"
  | .domain function reason => "'" ++ function ++ "' failed: " ++ reason

/-- Arguments of a call to a function with `arity` fixed arguments. -/
structure Args (arity : Nat) where
  /-- The fixed arguments. -/
  fixed : Vector Float arity
  /-- The arguments after them. -/
  rest : List Float

/-- All arguments in the order of the call. -/
def Args.all {arity : Nat} (args : Args arity) : List Float :=
  args.fixed.toList ++ args.rest

/-- Split the values of a call into fixed arguments and the rest. -/
def Args.ofList? (arity : Nat) (values : List Float) : Option (Args arity) :=
  if h : arity ≤ values.length then
    some
      { fixed := ⟨(values.take arity).toArray, by simp [Nat.min_eq_left h]⟩
        rest := values.drop arity }
  else none

/-- Splitting keeps every value and its place. -/
theorem Args.all_of_ofList? {arity : Nat} {values : List Float} {args : Args arity}
    (h : Args.ofList? arity values = some args) : args.all = values := by
  unfold Args.ofList? at h
  split at h
  · cases h
    simp [Args.all, Vector.toList, List.take_append_drop]
  · cases h

/-- A function that formulas can call. -/
structure Signature where
  /-- Name under which it is listed. -/
  name : String
  /-- Number of fixed arguments. -/
  arity : Nat
  /-- Whether further arguments may follow the fixed ones. -/
  variadic : Bool
  /-- The function. -/
  call : Args arity → Except EvalError Output

/-- Whether a call may have `count` arguments. -/
def Signature.accepts (s : Signature) (count : Nat) : Bool :=
  if s.variadic then s.arity ≤ count else count = s.arity

/-- Whether two signatures have one name and take the same arguments. -/
def Signature.sameShape (a b : Signature) : Bool :=
  a.name = b.name && a.arity = b.arity && a.variadic = b.variadic

/-- The accepted number of arguments in words. -/
def Signature.arityText (s : Signature) : String :=
  if s.variadic then "at least " ++ toString s.arity else toString s.arity

/-- One-line description that leaves the function itself out. -/
def Signature.describe (s : Signature) : String :=
  "FunctionSignature \x7b name: " ++ Text.quoted s.name ++ ", arity: " ++ toString s.arity
    ++ ", variadic: " ++ toString s.variadic ++ ", .. \x7d"

/-- A function of exactly one argument. -/
def Signature.unary (name : String) (f : Float → Except EvalError Output) : Signature where
  name
  arity := 1
  variadic := false
  call args := f args.fixed[0]

/-- A function of exactly two arguments. -/
def Signature.binary (name : String) (f : Float → Float → Except EvalError Output) :
    Signature where
  name
  arity := 2
  variadic := false
  call args := f args.fixed[0] args.fixed[1]

/-- A function of exactly three arguments. -/
def Signature.ternary (name : String) (f : Float → Float → Float → Except EvalError Output) :
    Signature where
  name
  arity := 3
  variadic := false
  call args := f args.fixed[0] args.fixed[1] args.fixed[2]

/-- A function of one or more arguments that combines them from a start value. -/
def Signature.folding (name : String) (start : Float) (f : Float → Float → Float) :
    Signature where
  name
  arity := 1
  variadic := true
  call args := .ok (.number (args.all.foldl f start))

end GateFormula
