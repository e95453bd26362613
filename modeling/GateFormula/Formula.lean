import GateFormula.Problem
import GateFormula.Registry
import GateFormula.Term
import GateFormula.Token

/-!
# Formulas as trees

The grammar of formulas. A tree keeps every parenthesis, so that it has exactly one
row of tokens; it is ordered when no operator without parentheses stands where its
rank does not let it. Looking up the names of a tree gives a term or finds problems,
one for each use of a name that the registry does not support.
-/

namespace GateFormula

/-- A formula as it is written. -/
inductive Formula where
  /-- A number. -/
  | literal (value : Float)
  /-- A name between sigils. -/
  | reference (name : String)
  /-- A bare name. -/
  | constant (name : String)
  /-- A formula in parentheses. -/
  | group (inner : Formula)
  /-- A call of a function. -/
  | call (name : String) (operands : List Formula)
  /-- An operator before its operand. -/
  | unary (symbol : String) (operand : Formula)
  /-- An operator between its operands. -/
  | binary (symbol : String) (left right : Formula)

namespace Formula

/-! ### Tokens -/

mutual

/-- The tokens of a formula. -/
def tokens : Formula → List Token
  | .literal value => [.literal value]
  | .reference name => [.reference name]
  | .constant name => [.constant name]
  | .group inner => .opening :: inner.tokens ++ [.closing]
  | .call name operands => .call name :: .opening :: tokensOf operands ++ [.closing]
  | .unary symbol operand => .operator symbol :: operand.tokens
  | .binary symbol left right => left.tokens ++ .operator symbol :: right.tokens

/-- The tokens of operands, with commas between them. -/
def tokensOf : List Formula → List Token
  | [] => []
  | operand :: operands => operand.tokens ++ furtherTokens operands

/-- The tokens of operands, with a comma before each. -/
def furtherTokens : List Formula → List Token
  | [] => []
  | operand :: operands => .comma :: operand.tokens ++ furtherTokens operands

end

/-- Every formula has a token. -/
theorem tokens_ne_nil (f : Formula) : f.tokens ≠ [] := by
  cases f <;> simp [tokens]

/-! ### Order of operators -/

/-- The rank of a symbol; what is no operator binds tightest. -/
def rankOf (registry : Registry) (symbol : String) : Nat :=
  (registry.operator? symbol).elim 0 Operator.rank

/-- Whether a symbol is an operator before its operand. -/
def isUnary (registry : Registry) (symbol : String) : Bool :=
  (registry.operator? symbol).any Operator.isUnary

/-- Whether a symbol is an operator between its operands. -/
def isBinary (registry : Registry) (symbol : String) : Bool :=
  (registry.operator? symbol).any fun o => !o.isUnary

/-- The operator between two operands that is outermost in a formula, unless parentheses or
an operator before it enclose it. -/
def topmost? : Formula → Option String
  | .binary symbol _ _ => some symbol
  | _ => none

/-- Whether a formula may stand to the left of an operator of some rank. -/
def fitsLeft (registry : Registry) (rank : Nat) (f : Formula) : Bool :=
  f.topmost?.all fun symbol => rankOf registry symbol ≤ rank

/-- Whether a formula may stand to the right of an operator of some rank. -/
def fitsRight (registry : Registry) (rank : Nat) (f : Formula) : Bool :=
  f.topmost?.all fun symbol => rankOf registry symbol < rank

mutual

/-- Whether every symbol is an operator of its kind and every operator without parentheses
stands where its rank lets it. -/
def isOrdered (registry : Registry) : Formula → Bool
  | .literal _ | .reference _ | .constant _ => true
  | .group inner => inner.isOrdered registry
  | .call _ operands => areOrdered registry operands
  | .unary symbol operand =>
    isUnary registry symbol && operand.topmost?.isNone && operand.isOrdered registry
  | .binary symbol left right =>
    isBinary registry symbol
      && left.fitsLeft registry (rankOf registry symbol)
      && right.fitsRight registry (rankOf registry symbol)
      && left.isOrdered registry && right.isOrdered registry

/-- Whether several formulas are ordered. -/
def areOrdered (registry : Registry) : List Formula → Bool
  | [] => true
  | f :: fs => f.isOrdered registry && areOrdered registry fs

end

/-! ### Meaning -/

mutual

/-- The term of a formula, if the registry supports all its names. A constant of that name
comes before a variable. -/
def term? (registry : Registry) : Formula → Option Term
  | .literal value => some (.number value)
  | .reference name =>
    match registry.constant? name with
    | some value => some (.number value)
    | none => some (.reference name)
  | .constant name => (registry.constant? name).map .number
  | .group inner => inner.term? registry
  | .call name operands =>
    match registry.function? name, termsOf? registry operands with
    | some function, some operands =>
      if function.accepts operands.length then some (.apply function operands) else none
    | _, _ => none
  | .unary symbol operand =>
    match registry.operator? symbol, operand.term? registry with
    | some o, some operand => some (.apply o.function [operand])
    | _, _ => none
  | .binary symbol left right =>
    match registry.operator? symbol, left.term? registry, right.term? registry with
    | some o, some left, some right => some (.apply o.function [left, right])
    | _, _, _ => none

/-- The terms of several formulas. -/
def termsOf? (registry : Registry) : List Formula → Option (List Term)
  | [] => some []
  | f :: fs =>
    match f.term? registry, termsOf? registry fs with
    | some term, some terms => some (term :: terms)
    | _, _ => none

end

/-! ### Problems -/

mutual

/-- The problems of a formula in the order of the tokens at which they show: unknown names at
the name, wrong numbers of arguments at the closing parenthesis. The formula starts at the
token number `start`, and `place` gives the index of every token. -/
def problems (registry : Registry) (place : Nat → Nat) (start : Nat) : Formula → List Problem
  | .literal _ | .reference _ => []
  | .constant name =>
    match registry.constant? name with
    | some _ => []
    | none => [.unknownConstant name (place start)]
  | .group inner => inner.problems registry place (start + 1)
  | .call name operands =>
    let inside := problemsOf registry place (start + 2) operands
    match registry.function? name with
    | none => .unknownFunction name (place start) :: inside
    | some function =>
      if function.accepts operands.length then inside
      else inside ++ [.arityMismatch name (place start) operands.length function]
  | .unary _ operand => operand.problems registry place (start + 1)
  | .binary _ left right =>
    left.problems registry place start
      ++ right.problems registry place (start + left.tokens.length + 1)

/-- The problems of operands, with commas between them. -/
def problemsOf (registry : Registry) (place : Nat → Nat) (start : Nat) :
    List Formula → List Problem
  | [] => []
  | operand :: operands =>
    operand.problems registry place start
      ++ problemsOf registry place (start + operand.tokens.length + 1) operands

end

end Formula

end GateFormula
