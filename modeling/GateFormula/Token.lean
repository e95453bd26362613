/-!
# Tokens

The words of a formula. A name is told apart by how it is written and by what
follows it: between sigils it is a variable, before an opening parenthesis a
function, and on its own a constant.
-/

namespace GateFormula

/-- A word of a formula. -/
inductive Token where
  /-- A number. -/
  | literal (value : Float)
  /-- A name between sigils. -/
  | reference (name : String)
  /-- A name, between sigils or not, that an opening parenthesis follows. -/
  | call (name : String)
  /-- A bare name. -/
  | constant (name : String)
  /-- The symbol of an operator. -/
  | operator (symbol : String)
  /-- An opening parenthesis. -/
  | opening
  /-- A closing parenthesis. -/
  | closing
  /-- A comma. -/
  | comma
  /-- The end of the text. -/
  | finish
deriving DecidableEq, Repr

/-- Whether an operand is expected after a token. -/
def Token.expectsOperandAfter : Token → Bool
  | .call _ | .operator _ | .opening | .comma => true
  | .literal _ | .reference _ | .constant _ | .closing | .finish => false

/-- Whether a token is a run of name or number characters, which no sigil may follow
directly. -/
def Token.isWord : Token → Bool
  | .literal _ | .reference _ | .call _ | .constant _ => true
  | .operator _ | .opening | .closing | .comma | .finish => false

/-- A token and the index of its first character. -/
structure Located where
  /-- Index of the first character. -/
  index : Nat
  /-- The token. -/
  token : Token
deriving DecidableEq, Repr

end GateFormula
