import GateFormula.Arithmetic
import GateFormula.Registry

/-!
# The standard registry

The functions, operators and constants that every formula may use unless a host
starts from an empty registry. Comparisons and logical operators answer with a
truth value, everything else with a number. The logical operators evaluate both
operands. Division and remainder refuse a zero divisor, `sqrt` a negative number,
and `clamp` bounds in the wrong order.
-/

namespace GateFormula.Builtin

open Arithmetic

/-- A function of one number that always has a value. -/
def numeric (name : String) (f : Float → Float) : Signature :=
  .unary name fun x => .ok (.number (f x))

/-- Square root of a number that is not negative. -/
def squareRoot (x : Float) : Except EvalError Output :=
  if x < 0 then .error (.domain "sqrt" ("negative argument " ++ Number.text x))
  else .ok (.number x.sqrt)

/-- A number brought between two bounds. -/
def clamp (x low high : Float) : Except EvalError Output :=
  if high < low then
    .error (.domain "clamp"
      ("lower bound " ++ Number.text low ++ " is greater than upper bound " ++ Number.text high))
  else .ok (.number (least (greatest x low) high))

/-- The standard functions. -/
def functions : List Signature :=
  [ .folding "min" (1 / 0) least,
    .folding "max" (-1 / 0) greatest,
    .ternary "clamp" clamp,
    numeric "abs" Float.abs,
    numeric "sin" Float.sin,
    numeric "cos" Float.cos,
    numeric "tan" Float.tan,
    numeric "floor" Number.floor,
    numeric "ceil" Number.ceiling,
    numeric "round" Number.nearest,
    numeric "sign" sign,
    .unary "sqrt" squareRoot,
    .binary "pow" fun x y => .ok (.number (x.pow y)) ]

/-- An operator with a number as its value. -/
def arithmetic (symbol : String) (rank : Nat) (f : Float → Float → Float) : Operator :=
  ⟨symbol, rank, .binary symbol fun x y => .ok (.number (f x y))⟩

/-- An operator with a truth value. -/
def relation (symbol : String) (rank : Nat) (f : Float → Float → Bool) : Operator :=
  ⟨symbol, rank, .binary symbol fun x y => .ok (.truth (f x y))⟩

/-- An operator that refuses zero as its second operand. -/
def division (symbol : String) (rank : Nat) (f : Float → Float → Float) : Operator :=
  ⟨symbol, rank, .binary symbol fun x y =>
    if y == 0 then .error (.divisionByZero symbol) else .ok (.number (f x y))⟩

/-- Logical negation. -/
def negation : Operator :=
  ⟨"!", 0, .unary "!" fun x => .ok (.truth (x == 0))⟩

/-- The standard operators. The ranks are, from the tightest: negation,
multiplication, addition, order, equality, conjunction and disjunction. -/
def operators : List Operator :=
  [ negation,
    arithmetic "*" 1 (· * ·),
    division "/" 1 quotient,
    division "//" 1 (· / ·),
    division "%" 1 Number.remainder,
    arithmetic "+" 2 (· + ·),
    arithmetic "-" 2 (· - ·),
    relation "<" 3 fun x y => x < y,
    relation "<=" 3 fun x y => x ≤ y,
    relation ">" 3 fun x y => x > y,
    relation ">=" 3 fun x y => x ≥ y,
    relation "==" 4 fun x y => x == y,
    relation "!=" 4 fun x y => x != y,
    relation "&&" 5 fun x y => isTruthy x && isTruthy y,
    relation "||" 6 fun x y => isTruthy x || isTruthy y ]

/-- The standard constants. -/
def constants : List (String × Float) :=
  [ ("true", 1),
    ("false", 0),
    ("pi", 3.141592653589793),
    ("e", 2.718281828459045) ]

end GateFormula.Builtin

namespace GateFormula

/-- The registry of the standard functions, operators and constants. -/
def Registry.builtin : Registry where
  functions := .ofBindings (Builtin.functions.map fun s => (s.name, s))
  operators := .ofBindings (Builtin.operators.map fun o => (o.symbol, o))
  constants := .ofBindings Builtin.constants

end GateFormula
