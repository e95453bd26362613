import GateFormula.Proofs.Spells

/-!
# Phrases

A phrase is a text with the formula that its characters spell and the term of that formula. Every
text that compiles is a phrase, and every phrase compiles to the code of its term. Phrases are put
together with parentheses, operators and calls, and each way of doing so yields a phrase again.
-/

namespace GateFormula

/-! ### Blanks and seams -/

/-- Blanks before a text are skipped with those in it. -/
theorem dropWhile_padding {padding : List Char} (blank : padding.all Text.isBlank = true)
    (rest : List Char) :
    (padding ++ rest).dropWhile Text.isBlank = rest.dropWhile Text.isBlank :=
  List.dropWhile_append_of_pos (List.all_eq_true.mp blank)

/-- A space is blank. -/
theorem all_isBlank_space : [' '].all Text.isBlank = true := rfl

/-- A closing parenthesis changes no token before it. -/
theorem seam_closing (rest : List Char) : Seam (')' :: rest) :=
  ⟨rfl, rfl⟩

/-- A comma changes no token before it. -/
theorem seam_comma (rest : List Char) : Seam (',' :: rest) :=
  ⟨rfl, rfl⟩

/-- Blanks before a seam change no token either. -/
theorem Seam.padded {padding rest : List Char} (blank : padding.all Text.isBlank = true)
    (h : Seam rest) : Seam (padding ++ rest) := by
  have hclosed : Lexeme.opensCall (padding ++ rest) = false := by
    rw [Lexeme.opensCall, dropWhile_padding blank]
    exact h.closed
  cases padding with
  | nil => exact h
  | cons c padding =>
    have hc : Text.isBlank c = true := List.all_eq_true.mp blank c List.mem_cons_self
    have hapart : startsApart (c :: padding ++ rest) = true := by
      change isDelimiter c = true
      rw [isDelimiter, hc, Bool.true_or]
    exact ⟨hapart, hclosed⟩

/-- A list between separators is its first entry and a separator before each further one. -/
theorem intercalate_cons {α : Type} (separator entry : List α) (entries : List (List α)) :
    separator.intercalate (entry :: entries) =
      entry ++ entries.flatMap fun other => separator ++ other := by
  induction entries generalizing entry with
  | nil => rw [List.intercalate_singleton]; simp
  | cons other entries ih =>
    rw [List.intercalate_cons_cons, ih other, List.flatMap_cons]
    simp

variable {registry : Registry}

/-- A blank and a symbol change no token before them. -/
theorem seam_operator (reachable : registry.Reachable) {symbol : String} {o : Operator}
    (ho : registry.operator? symbol = some o) (rest : List Char) :
    Seam (' ' :: (symbol.toList ++ rest)) := by
  obtain ⟨hne, hchars⟩ := reachable.symbol_chars ho
  cases hsymbol : symbol.toList with
  | nil => exact absurd hsymbol hne
  | cons c cs =>
    rw [hsymbol] at hchars
    have hc : Registry.isSymbolChar c = true := hchars c List.mem_cons_self
    have hblank : Text.isBlank c = false := isBlank_of_isSymbolChar hc
    have hopening : c ≠ '(' := ne_of_charClass hc (by decide)
    have hspace : Text.isBlank ' ' = true := by decide
    have hclosed : Lexeme.opensCall (' ' :: (c :: cs ++ rest)) = false := by
      simp [Lexeme.opensCall, hspace, hblank, hopening]
    exact ⟨rfl, hclosed⟩

/-- Blanks at the start of a text do not count. -/
theorem Spells.padded {padding : List Char} (blank : padding.all Text.isBlank = true)
    {expectOperand expectsAfter : Bool} {cs rest : List Char} {tokens : List Token}
    (h : Spells registry expectOperand cs tokens expectsAfter rest) :
    Spells registry expectOperand (padding ++ cs) tokens expectsAfter rest :=
  h.of_blanks (dropWhile_padding blank cs)

/-! ### Phrases -/

/-- A text with its formula and its term. -/
structure Phrase (registry : Registry) where
  /-- The characters of the text. -/
  chars : List Char
  /-- The formula that they spell. -/
  formula : Formula
  /-- The term of the formula. -/
  term : Term
  /-- Every operator of the formula stands where its rank lets it. -/
  ordered : formula.isOrdered registry = true
  /-- The characters spell the tokens of the formula. -/
  spells : ∃ expectsAfter, Spells registry true chars formula.tokens expectsAfter []
  /-- The term is what the formula means. -/
  meaning : formula.term? registry = some term

/-- A text compiles to instructions, whatever the store. -/
def CompilesTo (registry : Registry) (source : String) (code : List Instruction) : Prop :=
  ∀ store, (compileIn registry store source).1 = .ok ⟨source, code⟩

/-- A text that compiles is a phrase. -/
theorem CompilesTo.phrase {source : String} {code : List Instruction}
    (h : CompilesTo registry source code) :
    ∃ p : Phrase registry, p.chars = source.toList ∧ p.term.code = code := by
  obtain ⟨row, f, t, hrow, hf, hterm, hcode⟩ := formula_of_compile (h .empty)
  have hspells := tokenize_iff_spells.mp ⟨row, hrow, hf.tokens_eq⟩
  exact ⟨⟨source.toList, f, t, hf.ordered, hspells, hterm⟩, rfl,
    (congrArg Program.code hcode).symm⟩

namespace Phrase

/-- A phrase compiles to the code of its term, and blanks before it do not count. -/
theorem compilesTo (p : Phrase registry) {source : String}
    (h : source.toList.dropWhile Text.isBlank = p.chars.dropWhile Text.isBlank) :
    CompilesTo registry source p.term.code := by
  intro store
  obtain ⟨expectsAfter, hspells⟩ := p.spells
  obtain ⟨row, hrow, htokens⟩ := tokenize_iff_spells.mpr ⟨expectsAfter, hspells.of_blanks h⟩
  exact compile_of_formula hrow ⟨p.ordered, htokens⟩ p.meaning

/-- A phrase behind a blank. -/
def indent (p : Phrase registry) : Phrase registry where
  chars := ' ' :: p.chars
  formula := p.formula
  term := p.term
  ordered := p.ordered
  spells := p.spells.imp fun _ h => h.padded all_isBlank_space
  meaning := p.meaning

variable (reachable : registry.Reachable)

/-- A phrase in parentheses. -/
def group (p : Phrase registry) (padding : List Char) (blank : padding.all Text.isBlank = true) :
    Phrase registry where
  chars := '(' :: (p.chars ++ (padding ++ [')']))
  formula := .group p.formula
  term := p.term
  ordered := p.ordered
  spells := by
    obtain ⟨expectsAfter, hinner⟩ := p.spells
    have hopening : Spells registry true ('(' :: (p.chars ++ (padding ++ [')']))) [.opening] true
        (p.chars ++ (padding ++ [')'])) :=
      spells_opening true _
    have hmiddle := hinner.append reachable ((seam_closing []).padded blank)
    have hclosing : Spells registry expectsAfter (padding ++ [')']) [.closing] false [] :=
      (spells_closing expectsAfter []).padded blank
    exact ⟨false, hopening.trans (hmiddle.trans hclosing)⟩
  meaning := p.meaning

/-- An operator before a phrase. -/
def unary {symbol : String} {o : Operator} (ho : registry.operator? symbol = some o)
    (hunary : o.isUnary = true) (p : Phrase registry) (apart : startsApart p.chars = true)
    (loose : p.formula.topmost? = none) : Phrase registry where
  chars := symbol.toList ++ p.chars
  formula := .unary symbol p.formula
  term := .apply o.function [p.term]
  ordered := by
    simp [Formula.isOrdered, Formula.isUnary, ho, hunary, loose, p.ordered]
  spells := by
    obtain ⟨expectsAfter, hoperand⟩ := p.spells
    exact ⟨expectsAfter, (spells_operator reachable ho true apart).trans hoperand⟩
  meaning := by
    simp only [Formula.term?, ho, p.meaning]

/-- An operator between phrases. -/
def binary {symbol : String} {o : Operator} (ho : registry.operator? symbol = some o)
    (hbinary : o.isUnary = false) (p q : Phrase registry) (apart : startsApart q.chars = true)
    (hleft : p.formula.fitsLeft registry o.rank = true)
    (hright : q.formula.fitsRight registry o.rank = true) : Phrase registry where
  chars := p.chars ++ ' ' :: (symbol.toList ++ q.chars)
  formula := .binary symbol p.formula q.formula
  term := .apply o.function [p.term, q.term]
  ordered := by
    have hrank : Formula.rankOf registry symbol = o.rank := rankOf_of_operator ho
    simp [Formula.isOrdered, Formula.isBinary, ho, hbinary, hrank, hleft, hright, p.ordered,
      q.ordered]
  spells := by
    obtain ⟨betweenLeft, hp⟩ := p.spells
    obtain ⟨expectsAfter, hq⟩ := q.spells
    have hfirst := hp.append reachable (seam_operator reachable ho q.chars)
    have hsymbol : Spells registry betweenLeft (' ' :: (symbol.toList ++ q.chars))
        [.operator symbol] true q.chars :=
      (spells_operator reachable ho betweenLeft apart).padded all_isBlank_space
    exact ⟨expectsAfter, hfirst.trans (hsymbol.trans hq)⟩
  meaning := by
    simp only [Formula.term?, ho, p.meaning, q.meaning]

/-- Ordered formulas of phrases. -/
theorem areOrdered_map (ps : List (Phrase registry)) :
    Formula.areOrdered registry (ps.map formula) = true :=
  areOrdered_iff.mpr (List.forall_mem_map.mpr fun p _ => p.ordered)

/-- Terms of the formulas of phrases. -/
theorem termsOf?_map (ps : List (Phrase registry)) :
    Formula.termsOf? registry (ps.map formula) = some (ps.map term) := by
  induction ps with
  | nil => rfl
  | cons p ps ih =>
    rw [List.map_cons, Formula.termsOf?, p.meaning, ih]
    rfl

/-- Further operands of a call, with what stands between them, up to its closing parenthesis. -/
def furtherChars (padding separator : List Char) (ps : List (Phrase registry)) : List Char :=
  ps.flatMap (fun p => padding ++ ',' :: (separator ++ p.chars)) ++ (padding ++ [')'])

/-- Further operands change no token before them. -/
theorem seam_furtherChars {padding : List Char} (blank : padding.all Text.isBlank = true)
    (separator : List Char) (ps : List (Phrase registry)) :
    Seam (furtherChars padding separator ps) := by
  cases ps with
  | nil =>
    change Seam (padding ++ [')'])
    exact (seam_closing []).padded blank
  | cons p ps =>
    simp only [furtherChars, List.flatMap_cons, List.append_assoc]
    exact (seam_comma _).padded blank

include reachable in
/-- Further operands of a call spell a comma before each, and the closing parenthesis. -/
theorem spells_furtherChars {padding separator : List Char}
    (blank : padding.all Text.isBlank = true) (blank' : separator.all Text.isBlank = true)
    (ps : List (Phrase registry)) (expectOperand : Bool) :
    Spells registry expectOperand (furtherChars padding separator ps)
      (Formula.furtherTokens (ps.map formula) ++ [.closing]) false [] := by
  induction ps generalizing expectOperand with
  | nil => exact (spells_closing expectOperand []).padded blank
  | cons p ps ih =>
    obtain ⟨expectsAfter, hp⟩ := p.spells
    have hcomma : Spells registry expectOperand
        (padding ++ ',' :: (separator ++ (p.chars ++ furtherChars padding separator ps)))
        [.comma] true (separator ++ (p.chars ++ furtherChars padding separator ps)) :=
      (spells_comma expectOperand _).padded blank
    have hoperand : Spells registry true
        (separator ++ (p.chars ++ furtherChars padding separator ps)) p.formula.tokens
        expectsAfter (furtherChars padding separator ps) :=
      (hp.append reachable (seam_furtherChars blank separator ps)).padded blank'
    have hchars : furtherChars padding separator (p :: ps) =
        padding ++ ',' :: (separator ++ (p.chars ++ furtherChars padding separator ps)) := by
      simp [furtherChars]
    have htokens : Formula.furtherTokens ((p :: ps).map formula) ++ [Token.closing] =
        [.comma] ++ (p.formula.tokens ++
          (Formula.furtherTokens (ps.map formula) ++ [.closing])) := by
      simp [Formula.furtherTokens]
    rw [hchars, htokens]
    exact hcomma.trans (hoperand.trans (ih expectsAfter))

/-- A call of a function with phrases for its operands. -/
def call {name : String} (plain : isPlainName name = true) {function : Signature}
    (hf : registry.function? name = some function) (ps : List (Phrase registry))
    (accepts : function.accepts ps.length = true) (padding separator : List Char)
    (blank : padding.all Text.isBlank = true) (blank' : separator.all Text.isBlank = true) :
    Phrase registry where
  chars := '$' :: name.toList ++ '$' :: (padding ++ '(' ::
    ((padding ++ ',' :: separator).intercalate (ps.map chars) ++ (padding ++ [')'])))
  formula := .call name (ps.map formula)
  term := .apply function (ps.map term)
  ordered := areOrdered_map ps
  spells := by
    have hopens : ∀ rest, Lexeme.opensCall (padding ++ '(' :: rest) = true := by
      intro rest
      rw [Lexeme.opensCall, dropWhile_padding blank]
      rfl
    have hopening : ∀ rest, Spells registry true (padding ++ '(' :: rest) [.opening] true rest :=
      fun rest => (spells_opening true rest).padded blank
    have hinside : Spells registry true
        ((padding ++ ',' :: separator).intercalate (ps.map chars) ++ (padding ++ [')']))
        (Formula.tokensOf (ps.map formula) ++ [.closing]) false [] := by
      cases ps with
      | nil => exact (spells_closing true []).padded blank
      | cons p ps =>
        obtain ⟨expectsAfter, hp⟩ := p.spells
        have hfirst := hp.append reachable (seam_furtherChars blank separator ps)
        have hfurther := spells_furtherChars reachable blank blank' ps expectsAfter
        have hchars : (padding ++ ',' :: separator).intercalate ((p :: ps).map chars) ++
            (padding ++ [')']) = p.chars ++ furtherChars padding separator ps := by
          simp [intercalate_cons, furtherChars, List.flatMap_map]
        have htokens : Formula.tokensOf ((p :: ps).map formula) ++ [Token.closing] =
            p.formula.tokens ++ (Formula.furtherTokens (ps.map formula) ++ [.closing]) := by
          simp [Formula.tokensOf]
        rw [hchars, htokens]
        exact hfirst.trans hfurther
    exact ⟨false, (spells_call plain true (hopens _)).trans ((hopening _).trans hinside)⟩
  meaning := by
    simp only [Formula.term?, hf, termsOf?_map ps, List.length_map, accepts, if_true]

end Phrase

end GateFormula
