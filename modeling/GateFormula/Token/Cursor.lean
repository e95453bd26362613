import GateFormula.Token.Lexeme

/-!
# Scanning a formula

A cursor is a position in a text. A step skips blanks and reads one token; whoever
steps it says whether an operand is expected, which decides what a minus means.
After a failing step the cursor stays in front of the token that failed, and behind
a word to which a sigil is attached. Every token but the end moves the cursor, so
scanning a whole text ends.
-/

namespace GateFormula

/-- A position in a text. -/
structure Cursor where
  /-- Number of characters before the position. -/
  position : Nat
  /-- The characters after it. -/
  rest : List Char
deriving DecidableEq, Repr

namespace Cursor

/-- The start of a text. -/
def start (source : String) : Cursor :=
  ⟨0, source.toList⟩

/-- The position after the blanks that follow. -/
def skipBlanks (cursor : Cursor) : Cursor :=
  ⟨cursor.position + (cursor.rest.takeWhile Text.isBlank).length,
    cursor.rest.dropWhile Text.isBlank⟩

/-- Read one token. The cursor in the answer is where the next step begins. -/
def next (registry : Registry) (expectOperand : Bool) (cursor : Cursor) :
    Except SyntaxError Located × Cursor :=
  let here := cursor.skipBlanks
  match here.rest with
  | [] => (.ok ⟨here.position, .finish⟩, here)
  | c :: cs =>
    match Lexeme.read registry expectOperand c cs with
    | .error fault => (.error ⟨here.position, fault⟩, here)
    | .ok lexeme =>
      let after : Cursor := ⟨here.position + lexeme.text.length, lexeme.rest⟩
      if lexeme.hasSigilAttached then (.error ⟨after.position, .unexpectedSigil⟩, after)
      else (.ok ⟨here.position, lexeme.token⟩, after)

/-- Skipping blanks never lengthens the text that remains. -/
theorem skipBlanks_length (cursor : Cursor) :
    cursor.skipBlanks.rest.length ≤ cursor.rest.length :=
  (List.dropWhile_suffix _).length_le

/-- Every token but the end shortens the text that remains. -/
theorem next_shortens {registry : Registry} {expectOperand : Bool} {cursor after : Cursor}
    {located : Located} (h : cursor.next registry expectOperand = (.ok located, after))
    (unfinished : located.token ≠ .finish) : after.rest.length < cursor.rest.length := by
  have skipped := cursor.skipBlanks_length
  simp only [next] at h
  split at h
  · simp only [Prod.mk.injEq, Except.ok.injEq] at h
    obtain ⟨rfl, rfl⟩ := h
    exact absurd rfl unfinished
  next c cs hrest =>
    split at h
    · simp at h
    next lexeme hread =>
      obtain ⟨hsplit, hnonempty⟩ := Lexeme.lexeme_split hread
      split at h
      · simp at h
      · simp only [Prod.mk.injEq] at h
        obtain ⟨-, rfl⟩ := h
        have hlength := congrArg List.length hsplit
        have := List.length_pos_iff.mpr hnonempty
        simp only [List.length_append, List.length_cons] at hlength
        rw [hrest] at skipped
        simp only [List.length_cons] at skipped
        show lexeme.rest.length < cursor.rest.length
        omega

end Cursor

/-- Scan from a cursor to the end. Whether an operand is expected is read off the token
before. -/
def tokensFrom (registry : Registry) (expectOperand : Bool) (cursor : Cursor) :
    Except SyntaxError (List Located) :=
  match _step : cursor.next registry expectOperand with
  | (.error error, _) => .error error
  | (.ok located, after) =>
    if _last : located.token = .finish then .ok [located]
    else
      (tokensFrom registry located.token.expectsOperandAfter after).map (located :: ·)
termination_by cursor.rest.length
decreasing_by exact Cursor.next_shortens _step _last

/-- The tokens of a text, the last of which is its end. -/
def tokenize (registry : Registry) (source : String) : Except SyntaxError (List Located) :=
  tokensFrom registry true (.start source)

end GateFormula
