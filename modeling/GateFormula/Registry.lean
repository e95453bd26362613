import GateFormula.NameMap
import GateFormula.Signature
import GateFormula.Text.Alphanumeric
import GateFormula.Text.Blank

/-!
# Registries

A registry holds the functions, operators and constants that formulas may use.
A host adds its own to them. An operator is checked when it is added: its symbol
consists of characters that belong to no name, number or grouping, and it takes one
operand or two.
-/

namespace GateFormula

/-- An operator and the function that it stands for. -/
structure Operator where
  /-- How it is written. -/
  symbol : String
  /-- How tightly it binds; a lower rank binds tighter. -/
  rank : Nat
  /-- The function of its operands. -/
  function : Signature

/-- Whether the operator stands before its only operand. -/
def Operator.isUnary (o : Operator) : Bool :=
  o.function.arity = 1

/-- Why an operator is not added. -/
inductive OperatorError where
  /-- It takes neither one operand nor two. -/
  | invalidArity (symbol : String) (arity : Nat)
  /-- Its symbol is empty or has a character that no symbol may have. -/
  | invalidSymbol (symbol : String)
  /-- Its function takes any number of arguments. -/
  | variadic (symbol : String)
deriving DecidableEq, Repr

/-- Wording of a refusal. -/
def OperatorError.message : OperatorError → String
  | .invalidArity symbol arity =>
    "operator '" ++ symbol ++ "' must take 1 or 2 operands, not " ++ toString arity
  | .invalidSymbol symbol =>
    "operator '" ++ symbol
      ++ "' may not be empty or contain letters, digits, whitespace or any of `$(),._`"
  | .variadic symbol => "operator '" ++ symbol ++ "' may not be variadic"

/-- Functions, operators and constants, each under its name or symbol. -/
structure Registry where
  /-- Functions by name. -/
  functions : NameMap Signature := ∅
  /-- Operators by symbol. -/
  operators : NameMap Operator := ∅
  /-- Constants by name. -/
  constants : NameMap Float := ∅

namespace Registry

/-- The registry with nothing in it. -/
def empty : Registry := {}

/-- The function of a name. -/
def function? (r : Registry) (name : String) : Option Signature :=
  r.functions[name]?

/-- The operator of a symbol. -/
def operator? (r : Registry) (symbol : String) : Option Operator :=
  r.operators[symbol]?

/-- The value of a constant. -/
def constant? (r : Registry) (name : String) : Option Float :=
  r.constants[name]?

/-- Add a function under its own name, in place of an earlier one. -/
def addFunction (r : Registry) (s : Signature) : Registry :=
  { r with functions := r.functions.insert s.name s }

/-- Add a constant, in place of an earlier one. -/
def addConstant (r : Registry) (name : String) (value : Float) : Registry :=
  { r with constants := r.constants.insert name value }

/-- Put an operator under its own symbol without checking it. -/
def putOperator (r : Registry) (o : Operator) : Registry :=
  { r with operators := r.operators.insert o.symbol o }

/-- Whether an operator symbol may have this character. -/
def isSymbolChar (c : Char) : Bool :=
  !(Text.isAlphanumeric c || Text.isBlank c || ['$', '(', ')', ',', '.', '_'].contains c)

/-- Check an operator and add it, in place of an earlier one of its symbol. -/
def addOperator (r : Registry) (o : Operator) : Except OperatorError Registry :=
  if o.symbol.toList.isEmpty || !o.symbol.toList.all isSymbolChar then
    .error (.invalidSymbol o.symbol)
  else if o.function.variadic then .error (.variadic o.symbol)
  else if o.function.arity = 1 ∨ o.function.arity = 2 then .ok (r.putOperator o)
  else .error (.invalidArity o.symbol o.function.arity)

/-- The operators whose symbol starts with a text, in the order of their symbols. -/
def operatorsStarting (r : Registry) (start : List Char) : List Operator :=
  r.operators.values.filter fun o => start.isPrefixOf o.symbol.toList

/-- Whether the symbol of some operator starts with a text. -/
def hasOperatorStarting (r : Registry) (start : List Char) : Bool :=
  r.operators.keys.any fun symbol => start.isPrefixOf symbol.toList

/-- Whether the symbol of some operator starts with a character. -/
def startsOperator (r : Registry) (c : Char) : Bool :=
  r.hasOperatorStarting [c]

end Registry

end GateFormula
