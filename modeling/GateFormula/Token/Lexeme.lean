import GateFormula.Number.Reader
import GateFormula.Problem
import GateFormula.Registry
import GateFormula.Token

/-!
# Lexemes

The token at the front of a text that does not start with a blank. Each reader
splits the text into the characters that it takes and those that follow, and
`lexeme_split` says that nothing is lost. Operators are read by longest match
against the registry, and every character that starts an operator ends a word.
-/

namespace GateFormula

/-- A token with the characters that it covers and those that follow it. -/
structure Lexeme where
  /-- The characters covered. -/
  text : List Char
  /-- The token. -/
  token : Token
  /-- The characters after it. -/
  rest : List Char

namespace Lexeme

/-- Whether a character starts a number: an ASCII digit or a point. -/
def startsNumber (c : Char) : Bool :=
  c.isDigit || c = '.'

/-- Whether a character ends a bare word. -/
def endsWord (registry : Registry) (c : Char) : Bool :=
  Text.isBlank c || ['$', '(', ')', ','].contains c || registry.startsOperator c

/-- The rest of a bare word after the character `previous`. In a numeric word the sign
of an exponent belongs to the word. -/
def wordTail (registry : Registry) (numeric : Bool) :
    (previous : Char) → List Char → List Char × List Char
  | _, [] => ([], [])
  | previous, c :: cs =>
    let isExponentSign :=
      numeric && ['+', '-'].contains c && ['e', 'E'].contains previous
    if !isExponentSign && endsWord registry c then ([], c :: cs)
    else
      let (tail, rest) := wordTail registry numeric c cs
      (c :: tail, rest)

/-- Whether the next character that is not blank opens an argument list. -/
def opensCall (rest : List Char) : Bool :=
  (rest.dropWhile Text.isBlank).head? = some '('

/-- The token of a bare word: a number if it starts like one and spells a finite one,
otherwise a name. -/
def wordToken (numeric : Bool) (word rest : List Char) : Token :=
  let named := if opensCall rest then .call (.ofList word) else .constant (.ofList word)
  if numeric then
    match Number.read word with
    | .ok value => if value.isFinite then .literal value else named
    | .error _ => named
  else named

/-- Read a bare word, whose first character is taken whatever it is. -/
def ofWord (registry : Registry) (c : Char) (cs : List Char) : Lexeme :=
  let numeric := c = '-' || startsNumber c
  let (tail, rest) := wordTail registry numeric c cs
  ⟨c :: tail, wordToken numeric (c :: tail) rest, rest⟩

/-- The characters up to the next sigil and those after it. A name may not cross a
parenthesis or a comma. -/
def symbolBody : List Char → Option (List Char × List Char)
  | [] => none
  | c :: cs =>
    if c = '$' then some ([], cs)
    else if ['(', ')', ','].contains c then none
    else (symbolBody cs).map fun (body, rest) => (c :: body, rest)

/-- Read a name between sigils, the first of which has been taken. The name is what is
left when the blanks at its ends are dropped. -/
def ofSymbol (cs : List Char) : Except SyntaxFault Lexeme :=
  match symbolBody cs with
  | none => .error .unterminatedSymbol
  | some (body, rest) =>
    let name := String.ofList (Text.trim body)
    if name = "" then .error .emptySymbol
    else
      let token := if opensCall rest then .call name else .reference name
      .ok ⟨'$' :: body ++ ['$'], token, rest⟩

/-- The longest operator symbol that starts with `seen` and goes on with characters of
the text, and the text after it. -/
def longestOperator (registry : Registry) :
    (seen : List Char) → List Char → Option (List Char × List Char)
  | _, [] => none
  | seen, c :: cs =>
    let seen := seen ++ [c]
    if registry.hasOperatorStarting seen then
      match longestOperator registry seen cs with
      | some found => some found
      | none => if (registry.operator? (.ofList seen)).isSome then some (seen, cs) else none
    else none

/-- Read an operator. -/
def ofOperator (registry : Registry) (cs : List Char) : Except SyntaxFault Lexeme :=
  match longestOperator registry [] cs with
  | none => .error .unknownOperator
  | some (symbol, rest) => .ok ⟨symbol, .operator (.ofList symbol), rest⟩

/-- Read the token whose first character is `c`. A minus that a number follows belongs to
the number where an operand is expected. -/
def read (registry : Registry) (expectOperand : Bool) (c : Char) (cs : List Char) :
    Except SyntaxFault Lexeme :=
  if c = '(' then .ok ⟨[c], .opening, cs⟩
  else if c = ')' then .ok ⟨[c], .closing, cs⟩
  else if c = ',' then .ok ⟨[c], .comma, cs⟩
  else if c = '$' then ofSymbol cs
  else if c = '-' && expectOperand && cs.head?.any startsNumber then .ok (ofWord registry c cs)
  else if registry.startsOperator c then ofOperator registry (c :: cs)
  else .ok (ofWord registry c cs)

/-- Whether a sigil directly follows a word. -/
def hasSigilAttached (lexeme : Lexeme) : Bool :=
  lexeme.token.isWord && lexeme.rest.head? = some '$'

/-! ### Nothing is lost -/

/-- A word and what follows it make up the text. -/
theorem wordTail_append (registry : Registry) (numeric : Bool) (previous : Char)
    (cs : List Char) :
    (wordTail registry numeric previous cs).1 ++ (wordTail registry numeric previous cs).2
      = cs := by
  induction cs generalizing previous with
  | nil => rfl
  | cons c cs ih =>
    simp only [wordTail]
    split
    · rfl
    · simp [ih c]

/-- A name, its closing sigil and what follows it make up the text. -/
theorem symbolBody_append {cs body rest : List Char}
    (h : symbolBody cs = some (body, rest)) : body ++ '$' :: rest = cs := by
  induction cs generalizing body with
  | nil => simp [symbolBody] at h
  | cons c cs ih =>
    simp only [symbolBody] at h
    split at h
    · simp_all
    · split at h
      · simp at h
      · obtain ⟨⟨b, r⟩, hb, heq⟩ := Option.map_eq_some_iff.mp h
        simp only [Prod.mk.injEq] at heq
        obtain ⟨rfl, rfl⟩ := heq
        simp [ih hb]

/-- A symbol found by longest match extends what was seen by characters of the text. -/
theorem longestOperator_append {registry : Registry} {seen cs symbol rest : List Char}
    (h : longestOperator registry seen cs = some (symbol, rest)) :
    symbol ++ rest = seen ++ cs ∧ rest.length < cs.length := by
  induction cs generalizing seen with
  | nil => simp [longestOperator] at h
  | cons c cs ih =>
    simp only [longestOperator] at h
    split at h
    · split at h
      next found hfound =>
        cases h
        have := ih hfound
        simp_all
        omega
      next =>
        split at h
        · cases h
          simp
        · simp at h
    · simp at h

/-- What a lexeme covers and what follows it make up the text, and it covers at least
one character. -/
theorem lexeme_split {registry : Registry} {expectOperand : Bool} {c : Char}
    {cs : List Char} {lexeme : Lexeme} (h : read registry expectOperand c cs = .ok lexeme) :
    lexeme.text ++ lexeme.rest = c :: cs ∧ lexeme.text ≠ [] := by
  simp only [read] at h
  have word : (ofWord registry c cs).text ++ (ofWord registry c cs).rest = c :: cs := by
    simp [ofWord, wordTail_append]
  split at h
  · cases h; simp
  split at h
  · cases h; simp
  split at h
  · cases h; simp
  split at h
  next hsigil =>
    simp only [ofSymbol] at h
    split at h
    · cases h
    next body rest hbody =>
      split at h
      · cases h
      · cases h
        simp [hsigil, symbolBody_append hbody]
  split at h
  · cases h; exact ⟨word, by simp [ofWord]⟩
  split at h
  · simp only [ofOperator] at h
    split at h
    · cases h
    next symbol rest hfound =>
      cases h
      obtain ⟨happend, hlength⟩ := longestOperator_append hfound
      refine ⟨by simpa using happend, ?_⟩
      rintro rfl
      simp_all
  · cases h; exact ⟨word, by simp [ofWord]⟩

end Lexeme

end GateFormula
