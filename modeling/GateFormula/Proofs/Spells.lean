import GateFormula.Proofs.Seams

/-!
# Spelling tokens

`Spells` relates characters to the tokens that they are scanned to and to what follows them. It
is the same wherever the characters stand in a text, so that a text may be scanned piece by
piece, and `Spells.append` puts a piece in front of any seam. The lemmas after it read the pieces
that texts are put together from: parentheses, commas, symbols and names between sigils.
-/

namespace GateFormula

variable {registry : Registry}

/-! ### The tokens of characters -/

/-- Characters spell tokens: scanned from their start, with an operand expected or not, they give
these tokens one by one. Behind the last of them an operand is expected or not, and the rest of
the characters follows. -/
inductive Spells (registry : Registry) :
    Bool → List Char → List Token → Bool → List Char → Prop where
  /-- No token. Blanks do not count. -/
  | nil {expectOperand cs rest} (blank : cs.dropWhile Text.isBlank = rest.dropWhile Text.isBlank) :
      Spells registry expectOperand cs [] expectOperand rest
  /-- One token, and those behind it. -/
  | cons {expectOperand cs c tail text token after tokens expectsAfter rest}
      (front : cs.dropWhile Text.isBlank = c :: tail)
      (read : Lexeme.read registry expectOperand c tail = .ok ⟨text, token, after⟩)
      (apart : (Lexeme.mk text token after).hasSigilAttached = false)
      (further : Spells registry token.expectsOperandAfter after tokens expectsAfter rest) :
      Spells registry expectOperand cs (token :: tokens) expectsAfter rest

/-- Blanks at the start of a text do not count. -/
theorem Spells.of_blanks {expectOperand expectsAfter : Bool} {cs other rest : List Char}
    {tokens : List Token} (h : Spells registry expectOperand cs tokens expectsAfter rest)
    (blank : other.dropWhile Text.isBlank = cs.dropWhile Text.isBlank) :
    Spells registry expectOperand other tokens expectsAfter rest := by
  cases h with
  | nil hcs => exact .nil (blank.trans hcs)
  | cons front read apart further =>
    exact .cons (blank.trans front) read apart further

/-- One piece behind the other. -/
theorem Spells.trans {expectOperand between expectsAfter : Bool} {cs mid rest : List Char}
    {tokens further : List Token} (h : Spells registry expectOperand cs tokens between mid)
    (hf : Spells registry between mid further expectsAfter rest) :
    Spells registry expectOperand cs (tokens ++ further) expectsAfter rest := by
  induction h with
  | nil blank => exact hf.of_blanks blank
  | cons front read apart _ ih => exact .cons front read apart (ih hf)

/-- A piece of text spells the same tokens when more text stands behind it that starts apart and
opens no argument list. -/
theorem Spells.append (reachable : registry.Reachable) {expectOperand expectsAfter : Bool}
    {cs mid : List Char} {tokens : List Token}
    (h : Spells registry expectOperand cs tokens expectsAfter mid) {rest : List Char}
    (seam : Seam rest) :
    Spells registry expectOperand (cs ++ rest) tokens expectsAfter (mid ++ rest) := by
  induction h with
  | nil blank =>
    refine .nil ?_
    rw [List.dropWhile_append, List.dropWhile_append, blank]
  | @cons _ cs c tail text token after _ _ _ front read apart _ ih =>
    have hfront : (cs ++ rest).dropWhile Text.isBlank = c :: (tail ++ rest) := by
      rw [List.dropWhile_append, front]
      rfl
    have hread := Lexeme.read_append reachable seam read
    have hreplaces := Lexeme.replaces_of_seam seam after
    exact .cons hfront hread (apart_of_replaces hreplaces apart) ih

/-! ### Whole texts -/

/-- Characters that spell tokens to their end are scanned to these tokens. -/
theorem Spells.tokensFrom {expectOperand expectsAfter : Bool} {cs rest : List Char}
    {tokens : List Token} (h : Spells registry expectOperand cs tokens expectsAfter rest)
    (hrest : rest.dropWhile Text.isBlank = []) (position : Nat) :
    ∃ row, GateFormula.tokensFrom registry expectOperand ⟨position, cs⟩ = .ok row ∧
      row.map Located.token = tokens ++ [.finish] := by
  induction h generalizing position with
  | @nil expectOperand cs _ blank =>
    have hstep : (Cursor.mk position cs).Steps registry expectOperand _ :=
      .finish (blank.trans hrest)
    rw [tokensFrom_next, Cursor.steps_iff.mp hstep]
    exact ⟨_, rfl, rfl⟩
  | @cons expectOperand cs _ _ text token _ _ _ _ front read apart _ ih =>
    have hstep : (Cursor.mk position cs).Steps registry expectOperand _ :=
      .token front read apart
    let here := (Cursor.mk position cs).skipBlanks.position
    obtain ⟨row, hrow, htokens⟩ := ih hrest (here + text.length)
    refine ⟨⟨here, token⟩ :: row, ?_, congrArg (token :: ·) htokens⟩
    have hne : token ≠ .finish := Lexeme.read_ne_finish read
    rw [tokensFrom_next, Cursor.steps_iff.mp hstep]
    simp only [hne, if_false]
    rw [hrow]
    rfl

/-- What is scanned to its end spells the tokens found. -/
theorem spells_of_tokensFrom {expectOperand : Bool} {cursor : Cursor} {row : List Located}
    (h : GateFormula.tokensFrom registry expectOperand cursor = .ok row) :
    ∃ tokens expectsAfter, row.map Located.token = tokens ++ [.finish] ∧
      Spells registry expectOperand cursor.rest tokens expectsAfter [] := by
  induction expectOperand, cursor using scan_induction registry generalizing row with
  | error expectOperand cursor e after hs =>
    rw [tokensFrom_next, hs] at h
    cases h
  | finish expectOperand cursor located after hs ht =>
    rw [tokensFrom_next, hs] at h
    simp only [ht, if_true] at h
    cases h
    cases Cursor.steps_iff.mpr hs with
    | finish blank => exact ⟨[], expectOperand, rfl, .nil blank⟩
    | token front read apart => exact absurd ht (Lexeme.read_ne_finish read)
  | token expectOperand cursor located after hs ht ih =>
    rw [tokensFrom_next, hs] at h
    simp only [ht, if_false] at h
    cases hfurther : GateFormula.tokensFrom registry located.token.expectsOperandAfter after with
    | error e =>
      rw [hfurther] at h
      cases h
    | ok further =>
      rw [hfurther] at h
      cases h
      obtain ⟨tokens, expectsAfter, htokens, hspells⟩ := ih hfurther
      cases Cursor.steps_iff.mpr hs with
      | finish blank => exact absurd rfl ht
      | @token c tail lexeme front read apart =>
        exact ⟨lexeme.token :: tokens, expectsAfter, congrArg (lexeme.token :: ·) htokens,
          .cons front read apart hspells⟩

/-- A text has tokens if its characters spell them. -/
theorem tokenize_iff_spells {source : String} {tokens : List Token} :
    (∃ row, tokenize registry source = .ok row ∧ row.map Located.token = tokens ++ [.finish]) ↔
      ∃ expectsAfter, Spells registry true source.toList tokens expectsAfter [] := by
  constructor
  · rintro ⟨row, hrow, htokens⟩
    obtain ⟨others, expectsAfter, hothers, hspells⟩ := spells_of_tokensFrom hrow
    have heq : others = tokens := List.append_cancel_right (hothers.symm.trans htokens)
    exact ⟨expectsAfter, heq ▸ hspells⟩
  · rintro ⟨expectsAfter, hspells⟩
    exact hspells.tokensFrom rfl 0

/-! ### Single pieces -/

/-- A text that starts with a token spells that token first. -/
theorem Spells.token {expectOperand : Bool} {c : Char} {cs text after : List Char}
    {token : Token} (hc : Text.isBlank c = false)
    (read : Lexeme.read registry expectOperand c cs = .ok ⟨text, token, after⟩)
    (apart : (Lexeme.mk text token after).hasSigilAttached = false) :
    Spells registry expectOperand (c :: cs) [token] token.expectsOperandAfter after :=
  .cons (List.dropWhile_cons_of_neg (by simp [hc])) read apart (.nil rfl)

/-- An opening parenthesis. -/
theorem spells_opening (expectOperand : Bool) (rest : List Char) :
    Spells registry expectOperand ('(' :: rest) [.opening] true rest :=
  .token (by decide) rfl rfl

/-- A closing parenthesis. -/
theorem spells_closing (expectOperand : Bool) (rest : List Char) :
    Spells registry expectOperand (')' :: rest) [.closing] false rest :=
  .token (by decide) rfl rfl

/-- A comma. -/
theorem spells_comma (expectOperand : Bool) (rest : List Char) :
    Spells registry expectOperand (',' :: rest) [.comma] true rest :=
  .token (by decide) rfl rfl

/-- The symbol of an operator, before text that starts apart. -/
theorem spells_operator (reachable : registry.Reachable) {symbol : String} {o : Operator}
    (ho : registry.operator? symbol = some o) (expectOperand : Bool) {rest : List Char}
    (apart : startsApart rest = true) :
    Spells registry expectOperand (symbol.toList ++ rest) [.operator symbol] true rest := by
  obtain ⟨hne, hchars⟩ := reachable.symbol_chars ho
  cases hsymbol : symbol.toList with
  | nil => exact absurd hsymbol hne
  | cons c cs =>
    have hc : Registry.isSymbolChar c = true := by
      rw [hsymbol] at hchars
      exact hchars c List.mem_cons_self
    have hread := Lexeme.read_symbol reachable ho hsymbol expectOperand apart
    exact .token (isBlank_of_isSymbolChar hc) hread rfl

/-- Whether a name can be written between sigils as it is: it is not empty, has no blank at its
ends and none of the characters that end it. -/
def isPlainName (name : String) : Bool :=
  name ≠ "" && Text.trim name.toList = name.toList
    && name.toList.all fun c => !(['$', '(', ')', ','].contains c)

/-- A plain name between sigils is read as it is. -/
theorem Lexeme.read_plainName {name : String} (plain : isPlainName name = true)
    (expectOperand : Bool) (rest : List Char) :
    Lexeme.read registry expectOperand '$' (name.toList ++ '$' :: rest) =
      .ok ⟨'$' :: name.toList ++ ['$'],
        if Lexeme.opensCall rest then .call name else .reference name, rest⟩ := by
  simp only [isPlainName, Bool.and_eq_true, decide_eq_true_eq, List.all_eq_true,
    Bool.not_eq_true', List.contains_eq_mem, decide_eq_false_iff_not] at plain
  obtain ⟨⟨hne, htrim⟩, hchars⟩ := plain
  have hbody : Lexeme.symbolBody (name.toList ++ '$' :: rest) = some (name.toList, rest) :=
    symbolBody_eq_some_iff.mpr ⟨rfl, hchars⟩
  simp [Lexeme.read, Lexeme.ofSymbol, hbody, htrim, hne]

/-- A plain name between sigils, before an argument list, is that of a function. -/
theorem spells_call {name : String} (plain : isPlainName name = true) (expectOperand : Bool)
    {rest : List Char} (opens : Lexeme.opensCall rest = true) :
    Spells registry expectOperand ('$' :: name.toList ++ '$' :: rest) [.call name] true rest := by
  have hread : Lexeme.read registry expectOperand '$' (name.toList ++ '$' :: rest) =
      .ok ⟨'$' :: name.toList ++ ['$'], .call name, rest⟩ := by
    rw [Lexeme.read_plainName plain, if_pos opens]
  have hapart : rest.head? ≠ some '$' := by
    intro hsigil
    cases rest with
    | nil => cases hsigil
    | cons d rest =>
      cases hsigil
      cases opens
  exact .token (by decide) hread (decide_eq_false hapart)

/-- A plain name between sigils, at the end of a text, is that of a variable. -/
theorem spells_reference {name : String} (plain : isPlainName name = true)
    (expectOperand : Bool) :
    Spells registry expectOperand ('$' :: name.toList ++ ['$']) [.reference name] false [] :=
  .token (by decide) (Lexeme.read_plainName plain expectOperand []) rfl

end GateFormula
