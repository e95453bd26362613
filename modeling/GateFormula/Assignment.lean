import GateFormula.Compile
import GateFormula.Machine

/-!
# Assignments

An assignment merges the value of a formula into a variable by the rule of that
variable. The variable is declared once the formula compiles, so that applying an
assignment never adds a variable.
-/

namespace GateFormula

/-- An assignment as it is written. -/
structure AssignmentDef where
  /-- The variable. -/
  target : String
  /-- Text of the formula. -/
  expression : String
deriving DecidableEq, Repr

/-- A compiled assignment. -/
structure Assignment where
  /-- The variable. -/
  target : String
  /-- The formula. -/
  program : Program

namespace Assignment

/-- Compile an assignment for a store. -/
def compileIn (registry : Registry) (store : Store) (definition : AssignmentDef) :
    Except Diagnostics Assignment × Store :=
  let (result, store) := GateFormula.compileIn registry store definition.expression
  match result with
  | .error diagnostics => (.error diagnostics, store)
  | .ok program => (.ok ⟨definition.target, program⟩, store.declare definition.target)

/-- Evaluate and merge. The answer is the store afterwards and what the variable holds. -/
def apply (a : Assignment) (store : Store) : Except Fault (Store × Float) :=
  match a.program.evaluate store with
  | .error fault => .error fault
  | .ok value => .ok (store.update a.target value, store.merged a.target value)

/-- Apply assignments in order up to the first that has no value, whose fault is returned
with the store before it. -/
def applyAll : List Assignment → Store → Option Fault × Store
  | [], store => (none, store)
  | a :: assignments, store =>
    match a.apply store with
    | .error fault => (some fault, store)
    | .ok (store, _) => applyAll assignments store

end Assignment

end GateFormula
