import GateFormula.Arithmetic
import GateFormula.NameMap

/-!
# Stores of variables

A store gives numbers to variables. Compiling a formula declares the variables that
it mentions, with the value zero, and changes nothing else. A result is merged into
the value that is there by the rule of its variable, which the schema of the store
fixes once and for all.
-/

namespace GateFormula

/-- How a value is merged into the value that is there. -/
inductive Reducer where
  /-- Take the new value. -/
  | overwrite
  /-- Keep the greater one. -/
  | max
  /-- Keep the lesser one. -/
  | min
  /-- Add the two. -/
  | sum
deriving DecidableEq, Repr

namespace Reducer

/-- Name of a rule in a session document. -/
def name : Reducer → String
  | .overwrite => "overwrite"
  | .max => "max"
  | .min => "min"
  | .sum => "sum"

/-- The rule of a name. -/
def ofName? : String → Option Reducer
  | "overwrite" => some .overwrite
  | "max" => some .max
  | "min" => some .min
  | "sum" => some .sum
  | _ => none

/-- Merge a new value into the current one. -/
def merge (r : Reducer) (current new : Float) : Float :=
  match r with
  | .overwrite => new
  | .max => Arithmetic.greatest current new
  | .min => Arithmetic.least current new
  | .sum => current + new

end Reducer

/-- What a schema says of a variable. -/
structure VariableDef where
  /-- Value at the start. -/
  default : Float := 0
  /-- How results are merged. -/
  reducer : Reducer := .overwrite

/-- The variables that are known before any formula is compiled. -/
abbrev Schema := NameMap VariableDef

/-- Values of variables and their rules. -/
structure Store where
  /-- Current values. -/
  values : NameMap Float := ∅
  /-- Rules; a variable without one is overwritten. -/
  reducers : NameMap Reducer := ∅

namespace Store

/-- The store without variables. -/
def empty : Store := {}

/-- The store of a schema. -/
def ofSchema (schema : Schema) : Store where
  values := schema.map fun _ definition => definition.default
  reducers := schema.map fun _ definition => definition.reducer

/-- The value of a variable. -/
def get? (s : Store) (name : String) : Option Float :=
  s.values[name]?

/-- Whether a variable is in the store. -/
def contains (s : Store) (name : String) : Bool :=
  s.values.contains name

/-- Put a variable into the store with the value zero unless it is there. -/
def declare (s : Store) (name : String) : Store :=
  { s with values := s.values.insertIfNew name 0 }

/-- Declare several variables. -/
def declareAll (s : Store) (names : List String) : Store :=
  names.foldl declare s

/-- Give a variable a value, whatever its rule. -/
def set (s : Store) (name : String) (value : Float) : Store :=
  { s with values := s.values.insert name value }

/-- Declare a variable and tell whether it is new. -/
def declareNew (s : Store) (name : String) : Bool × Store :=
  if s.contains name then (false, s) else (true, s.set name 0)

/-- The rule of a variable. -/
def reducer (s : Store) (name : String) : Reducer :=
  s.reducers[name]?.getD .overwrite

/-- What a variable holds once a value is merged into it. -/
def merged (s : Store) (name : String) (value : Float) : Float :=
  match s.get? name with
  | some current => (s.reducer name).merge current value
  | none => value

/-- Merge a value into a variable by its rule. -/
def update (s : Store) (name : String) (value : Float) : Store :=
  s.set name (s.merged name value)

/-- Number of variables. -/
def size (s : Store) : Nat :=
  s.values.size

/-- The variables and their values in ascending order of the names. -/
def toList (s : Store) : List (String × Float) :=
  s.values.toList

end Store

end GateFormula
