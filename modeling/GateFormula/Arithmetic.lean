import GateFormula.Number.Binary

/-!
# Arithmetic of formulas

The numeric rules behind the standard functions and the merge rules of a store that
are more than one machine operation: extrema that ignore what is not a number, the
sign of a number, and the division that stays whole on whole operands.
-/

namespace GateFormula.Arithmetic

open Number

/-- The lesser of two numbers; one that is not a number gives way to the other. -/
def least (a b : Float) : Float :=
  if a.isNaN then b else if b.isNaN then a else if b < a then b else a

/-- The greater of two numbers; one that is not a number gives way to the other. -/
def greatest (a b : Float) : Float :=
  if a.isNaN then b else if b.isNaN then a else if a < b then b else a

/-- Zero for either zero, otherwise one with the sign of the number. -/
def sign (x : Float) : Float :=
  if x == 0 then 0 else if x.isNaN then x else withSignOf x 1

/-- Whether a number is finite and has no fraction. -/
def isWhole (x : Float) : Bool :=
  x.isFinite && x == truncate x

/-- Quotient of two numbers, truncated when both are whole. -/
def quotient (a b : Float) : Float :=
  if isWhole a && isWhole b then truncate (a / b) else a / b

/-- Whether a number counts as true: every number but zero does, also one that is
not a number. -/
def isTruthy (x : Float) : Bool :=
  x != 0

end GateFormula.Arithmetic
