import GateFormula.Signature

/-!
# Problems of a formula

A formula fails to compile in one of two ways. Its text may be malformed; then
there is a single error, at the first place where the text stops making sense. Or
its text is well formed but uses names that the registry does not have, or calls
functions with the wrong number of arguments; then every such problem is listed.
Places are indices of characters, counted from zero.
-/

namespace GateFormula

/-- What is wrong with the text of a formula. -/
inductive SyntaxFault where
  /-- A `$` directly follows a word or a symbol. -/
  | unexpectedSigil
  /-- A symbol has no closing `$`. -/
  | unterminatedSymbol
  /-- There is no name between two `$`. -/
  | emptySymbol
  /-- Operator characters match no operator. -/
  | unknownOperator
  /-- An operand is expected and something else follows. -/
  | missingOperand
  /-- An operand follows where an operator is expected. -/
  | unexpectedOperand
  /-- An operator of one operand stands between two. -/
  | misplacedOperator
  /-- A `(` is never closed. -/
  | unmatchedOpen
  /-- A `)` closes nothing. -/
  | unmatchedClose
  /-- A `,` stands outside the arguments of a call. -/
  | misplacedComma
  /-- Parentheses that are not a call hold nothing. -/
  | emptyGroup
  /-- There is no formula. -/
  | emptyExpression
deriving DecidableEq, Repr

/-- Wording of a fault. -/
def SyntaxFault.message : SyntaxFault → String
  | .unexpectedSigil => "unexpected sigil '$'"
  | .unterminatedSymbol => "unterminated symbol"
  | .emptySymbol => "empty symbol name"
  | .unknownOperator => "unknown operator"
  | .missingOperand => "missing operand"
  | .unexpectedOperand => "unexpected operand"
  | .misplacedOperator => "operator used in the wrong position"
  | .unmatchedOpen => "unmatched '('"
  | .unmatchedClose => "unmatched ')'"
  | .misplacedComma => "',' outside of a function call"
  | .emptyGroup => "empty parentheses"
  | .emptyExpression => "empty expression"

/-- A fault and the character at which it shows. -/
structure SyntaxError where
  /-- Index of the character. -/
  index : Nat
  /-- What is wrong there. -/
  fault : SyntaxFault
deriving DecidableEq, Repr

/-- Wording of an error. -/
def SyntaxError.message (e : SyntaxError) : String :=
  e.fault.message ++ " at index " ++ toString e.index

/-- A use of a name that the registry does not support. -/
inductive Problem where
  /-- A word names no constant. -/
  | unknownConstant (name : String) (index : Nat)
  /-- A call names no function. -/
  | unknownFunction (name : String) (index : Nat)
  /-- A call has a number of arguments that the function does not accept. -/
  | arityMismatch (name : String) (index got : Nat) (signature : Signature)

/-- Place of the name that a problem is about. -/
def Problem.index : Problem → Nat
  | .unknownConstant _ index => index
  | .unknownFunction _ index => index
  | .arityMismatch _ index _ _ => index

/-- Wording of a problem. -/
def Problem.message : Problem → String
  | .unknownConstant name index =>
    "unknown constant '" ++ name ++ "' at index " ++ toString index
  | .unknownFunction name index =>
    "unknown function '" ++ name ++ "' at index " ++ toString index
  | .arityMismatch name index got signature =>
    "function '" ++ name ++ "' at index " ++ toString index ++ " expects "
      ++ signature.arityText ++ " argument(s), got " ++ toString got

/-- Why a formula does not compile. -/
inductive Cause where
  /-- Its text is malformed. -/
  | malformed (error : SyntaxError)
  /-- Its names are not all supported; there is at least one problem. -/
  | unsupported (problems : List Problem)

/-- The text of a formula that does not compile, and why. -/
structure Diagnostics where
  /-- The text. -/
  source : String
  /-- The reason. -/
  cause : Cause

/-- One line per problem. -/
def Cause.lines : Cause → List String
  | .malformed error => ["syntax error: " ++ error.message]
  | .unsupported problems => problems.map Problem.message

/-- Wording of a failure: the text of the formula, then its problems. -/
def Diagnostics.message (d : Diagnostics) : String :=
  d.cause.lines.foldl (fun text line => text ++ "\n  - " ++ line)
    ("failed to compile `" ++ d.source ++ "`")

end GateFormula
