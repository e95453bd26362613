import GateFormula.Formula
import GateFormula.Token.Cursor

/-!
# Spelling formulas

A sketch is a formula in which the tree alone says what belongs together; its leaves
are texts of one token each. It is spelled as a text with single spaces between the
words, either with the parentheses that the ranks of its operators demand and no
others, or with parentheses around every operator and its operands.
-/

namespace GateFormula

/-- A formula without parentheses. -/
inductive Sketch where
  /-- The text of a number or of a name between sigils. -/
  | leaf (text : String)
  /-- An operator before its operand. -/
  | unary (symbol : String) (operand : Sketch)
  /-- An operator between its operands. -/
  | binary (symbol : String) (left right : Sketch)
  /-- A call of a function. -/
  | call (name : String) (operands : List Sketch)

namespace Sketch

/-- Words, in parentheses if they need them. -/
def enclose (needed : Bool) (words : List String) : List String :=
  if needed then "(" :: words ++ [")"] else words

/-- The operator between two operands that is outermost in a sketch, if there is one. -/
def topmost? : Sketch → Option String
  | .binary symbol _ _ => some symbol
  | _ => none

/-- Whether a sketch needs parentheses to the left of an operator of some rank. -/
def needsLeft (registry : Registry) (rank : Nat) (s : Sketch) : Bool :=
  s.topmost?.any fun symbol => rank < Formula.rankOf registry symbol

/-- Whether a sketch needs parentheses to the right of an operator of some rank. -/
def needsRight (registry : Registry) (rank : Nat) (s : Sketch) : Bool :=
  s.topmost?.any fun symbol => rank ≤ Formula.rankOf registry symbol

mutual

/-- The words of a sketch with the parentheses that it needs. -/
def words (registry : Registry) : Sketch → List String
  | .leaf text => [text]
  | .unary symbol operand =>
    symbol :: enclose operand.topmost?.isSome (operand.words registry)
  | .binary symbol left right =>
    let rank := Formula.rankOf registry symbol
    enclose (left.needsLeft registry rank) (left.words registry)
      ++ symbol :: enclose (right.needsRight registry rank) (right.words registry)
  | .call name operands => ("$" ++ name ++ "$") :: "(" :: wordsOf registry operands ++ [")"]

/-- The words of operands with commas between them. -/
def wordsOf (registry : Registry) : List Sketch → List String
  | [] => []
  | operand :: operands => operand.words registry ++ furtherWords registry operands

/-- The words of operands with a comma before each. -/
def furtherWords (registry : Registry) : List Sketch → List String
  | [] => []
  | operand :: operands => "," :: operand.words registry ++ furtherWords registry operands

end

mutual

/-- The words of a sketch with parentheses around every operator and its operands. -/
def allWords : Sketch → List String
  | .leaf text => [text]
  | .unary symbol operand => enclose true (symbol :: operand.allWords)
  | .binary symbol left right => enclose true (left.allWords ++ symbol :: right.allWords)
  | .call name operands => ("$" ++ name ++ "$") :: "(" :: allWordsOf operands ++ [")"]

/-- All words of operands with commas between them. -/
def allWordsOf : List Sketch → List String
  | [] => []
  | operand :: operands => operand.allWords ++ furtherAllWords operands

/-- All words of operands with a comma before each. -/
def furtherAllWords : List Sketch → List String
  | [] => []
  | operand :: operands => "," :: operand.allWords ++ furtherAllWords operands

end

/-- The text of a sketch with the parentheses that it needs. -/
def text (registry : Registry) (s : Sketch) : String :=
  " ".intercalate (s.words registry)

/-- The text of a sketch with parentheses around every operator and its operands. -/
def fullText (s : Sketch) : String :=
  " ".intercalate s.allWords

/-- The term of a leaf: its text has to be a single number or a single name. -/
def leafTerm? (registry : Registry) (text : String) : Option Term :=
  match tokenize registry text with
  | .ok [⟨_, .literal value⟩, _] => some (.number value)
  | .ok [⟨_, .reference name⟩, _] => (Formula.reference name).term? registry
  | _ => none

mutual

/-- The term of a sketch, if the registry supports all its names and symbols. -/
def term? (registry : Registry) : Sketch → Option Term
  | .leaf text => leafTerm? registry text
  | .unary symbol operand =>
    match registry.operator? symbol, operand.term? registry with
    | some o, some operand => if o.isUnary then some (.apply o.function [operand]) else none
    | _, _ => none
  | .binary symbol left right =>
    match registry.operator? symbol, left.term? registry, right.term? registry with
    | some o, some left, some right =>
      if o.isUnary then none else some (.apply o.function [left, right])
    | _, _, _ => none
  | .call name operands =>
    match registry.function? name, termsOf? registry operands with
    | some function, some operands =>
      if function.accepts operands.length then some (.apply function operands) else none
    | _, _ => none

/-- The terms of several sketches. -/
def termsOf? (registry : Registry) : List Sketch → Option (List Term)
  | [] => some []
  | s :: rest =>
    match s.term? registry, termsOf? registry rest with
    | some term, some terms => some (term :: terms)
    | _, _ => none

end

end Sketch

end GateFormula
