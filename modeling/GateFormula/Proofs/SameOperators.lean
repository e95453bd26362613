import GateFormula.Proofs.Compilation
import GateFormula.Proofs.Registering

/-!
# Registries with the same operators

Two registries that have operators of the same symbols, ranks and numbers of operands may
differ in everything else. They scan a text alike, since only the symbols of operators
matter to the scanner, and they take its tokens into drafts alike. For a single text less is
enough: `SameSymbolsIn` compares the symbols that are spelled with its characters only.
-/

namespace GateFormula

open Formula

/-- Operators of the same symbols, ranks and numbers of operands. -/
def Registry.SameOperators (r s : Registry) : Prop :=
  ∀ symbol, (r.operator? symbol).map (fun o => (o.rank, o.function.arity)) =
    (s.operator? symbol).map fun o => (o.rank, o.function.arity)

variable {r s : Registry}

/-- An operator of one registry is one of the other. -/
theorem isSome_congr (h : r.SameOperators s) (symbol : String) :
    (r.operator? symbol).isSome = (s.operator? symbol).isSome := by
  simpa only [Option.isSome_map] using congrArg Option.isSome (h symbol)

/-- A symbol has the same rank. -/
theorem rankOf_congr (h : r.SameOperators s) (symbol : String) :
    rankOf r symbol = rankOf s symbol := by
  have hs := h symbol
  unfold rankOf
  cases hr : r.operator? symbol <;> cases hq : s.operator? symbol <;>
    simp only [hr, hq, Option.map_some, Option.map_none, Option.some.injEq, Prod.mk.injEq,
      reduceCtorEq] at hs
  · rfl
  · exact hs.1

/-- A symbol stands before its operand in both or in neither. -/
theorem isUnary_congr (h : r.SameOperators s) (symbol : String) :
    isUnary r symbol = isUnary s symbol := by
  have hs := h symbol
  unfold isUnary
  cases hr : r.operator? symbol <;> cases hq : s.operator? symbol <;>
    simp only [hr, hq, Option.map_some, Option.map_none, Option.some.injEq, Prod.mk.injEq,
      reduceCtorEq] at hs
  · rfl
  · simp only [Option.any_some, Operator.isUnary, hs.2]

/-! ### Scanning -/

/-- Of what is spelled with the characters of a text, the same is a symbol of an operator in two
registries, and the same starts one. -/
structure Registry.SameSymbolsIn (text : List Char) (r s : Registry) : Prop where
  /-- The same characters start the symbol of an operator. -/
  starting : ∀ start, start ≠ [] → start ⊆ text →
    r.hasOperatorStarting start = s.hasOperatorStarting start
  /-- The same characters are the symbol of an operator. -/
  symbols : ∀ symbol, symbol ≠ [] → symbol ⊆ text →
    (r.operator? (.ofList symbol)).isSome = (s.operator? (.ofList symbol)).isSome

/-- Registries with the same operators have the same symbols in any text. -/
theorem Registry.SameOperators.sameSymbolsIn (h : r.SameOperators s) (text : List Char) :
    r.SameSymbolsIn text s := by
  refine ⟨fun start _ _ => ?_, fun symbol _ _ => isSome_congr h _⟩
  rw [Bool.eq_iff_iff, Registry.hasOperatorStarting_iff, Registry.hasOperatorStarting_iff]
  simp only [isSome_congr h]

variable {text other : List Char}

/-- A text with fewer characters has fewer symbols. -/
theorem Registry.SameSymbolsIn.mono (h : r.SameSymbolsIn text s) (hsub : other ⊆ text) :
    r.SameSymbolsIn other s :=
  ⟨fun start hne hin => h.starting start hne (List.Subset.trans hin hsub),
    fun symbol hne hin => h.symbols symbol hne (List.Subset.trans hin hsub)⟩

/-- The same characters start a symbol. -/
theorem startsOperator_congr {c : Char} (h : r.SameSymbolsIn text s) (hc : c ∈ text) :
    r.startsOperator c = s.startsOperator c :=
  h.starting [c] (List.cons_ne_nil c []) (List.cons_subset.mpr ⟨hc, List.nil_subset _⟩)

/-- A word has the same rest. -/
theorem wordTail_congr {cs : List Char} (h : r.SameSymbolsIn cs s) (numeric : Bool)
    (previous : Char) : Lexeme.wordTail r numeric previous cs =
      Lexeme.wordTail s numeric previous cs := by
  induction cs generalizing previous with
  | nil => rfl
  | cons c cs ih =>
    have hends : Lexeme.endsWord r c = Lexeme.endsWord s c := by
      rw [Lexeme.endsWord, Lexeme.endsWord, startsOperator_congr h List.mem_cons_self]
    simp only [Lexeme.wordTail]
    rw [hends, ih (h.mono (List.subset_cons_self c cs))]

/-- The same symbol is the longest. -/
theorem longestOperator_congr {seen cs : List Char} (h : r.SameSymbolsIn (seen ++ cs) s) :
    Lexeme.longestOperator r seen cs = Lexeme.longestOperator s seen cs := by
  induction cs generalizing seen with
  | nil => rfl
  | cons c cs ih =>
    rw [List.append_cons] at h
    have hne : seen ++ [c] ≠ [] := List.append_ne_nil_of_right_ne_nil _ (List.cons_ne_nil c [])
    have hin : seen ++ [c] ⊆ seen ++ [c] ++ cs := List.subset_append_left _ _
    simp only [Lexeme.longestOperator]
    rw [h.starting _ hne hin, h.symbols _ hne hin, ih h]

/-- The same token stands at the front of a text. -/
theorem read_congr {c : Char} {cs : List Char} (h : r.SameSymbolsIn (c :: cs) s)
    (expectOperand : Bool) :
    Lexeme.read r expectOperand c cs = Lexeme.read s expectOperand c cs := by
  have hword : Lexeme.ofWord r c cs = Lexeme.ofWord s c cs := by
    rw [Lexeme.ofWord, Lexeme.ofWord, wordTail_congr (h.mono (List.subset_cons_self c cs))]
  have hoperator : Lexeme.ofOperator r (c :: cs) = Lexeme.ofOperator s (c :: cs) := by
    rw [Lexeme.ofOperator, Lexeme.ofOperator, longestOperator_congr h]
  simp only [Lexeme.read, startsOperator_congr h List.mem_cons_self, hword, hoperator]

/-- A step of the scanner is the same. -/
theorem next_congr {cursor : Cursor} (h : r.SameSymbolsIn cursor.rest s) (expectOperand : Bool) :
    cursor.next r expectOperand = cursor.next s expectOperand := by
  have hskip : cursor.skipBlanks.rest ⊆ cursor.rest := (List.dropWhile_suffix _).subset
  cases hrest : cursor.skipBlanks.rest with
  | nil => simp only [Cursor.next, hrest]
  | cons c cs =>
    rw [hrest] at hskip
    simp only [Cursor.next, hrest, read_congr (h.mono hskip)]

/-- A scan is the same. -/
theorem scan_of_sameSymbols {cursor : Cursor} (h : r.SameSymbolsIn cursor.rest s)
    (expectOperand : Bool) : scan r expectOperand cursor = scan s expectOperand cursor := by
  induction expectOperand, cursor using scan_induction r with
  | error expectOperand cursor e after hs =>
    rw [scan_error hs, scan_error (next_congr h expectOperand ▸ hs)]
  | finish expectOperand cursor located after hs ht =>
    rw [scan_finish hs ht, scan_finish (next_congr h expectOperand ▸ hs) ht]
  | token expectOperand cursor located after hs ht ih =>
    have hsame : cursor.next s expectOperand = (.ok located, after) :=
      next_congr h expectOperand ▸ hs
    rw [scan_token hs ht, scan_token hsame ht,
      ih (h.mono (Cursor.rest_suffix_of_next hs).subset)]

/-- A text is scanned alike. -/
theorem scanOf_congr {source : String} (h : r.SameSymbolsIn source.toList s) :
    scanOf r source = scanOf s source := by
  change scan r true (.start source) = scan s true (.start source)
  exact scan_of_sameSymbols h true

/-! ### Drafts -/

/-- The same operators are ready before a symbol. -/
theorem bindsBefore_congr (h : r.SameOperators s) (symbol : String) :
    Layer.bindsBefore r symbol = Layer.bindsBefore s symbol := by
  funext left
  rw [Layer.bindsBefore, Layer.bindsBefore, rankOf_congr h, rankOf_congr h]

/-- A draft takes a token alike. -/
theorem take_congr (h : r.SameOperators s) (d : Draft) (located : Located) :
    d.take r located = d.take s located := by
  obtain ⟨l, focus, ls⟩ := d
  obtain ⟨index, token⟩ := located
  have hnone : ∀ symbol, (r.operator? symbol).isNone = (s.operator? symbol).isNone := by
    intro symbol
    rw [← Option.not_isSome, ← Option.not_isSome, isSome_congr h]
  cases focus with
  | callee us name => rfl
  | awaiting us =>
    cases token with
    | operator symbol => simp only [Draft.take, Draft.takeAwaiting, hnone, isUnary_congr h]
    | literal | reference | constant | call | opening | comma | closing | finish => rfl
  | filled f =>
    cases token with
    | operator symbol =>
      simp only [Draft.take, Draft.takeFilled, hnone, isUnary_congr h, Layer.extend,
        bindsBefore_congr h]
    | literal | reference | constant | call | opening | comma | closing | finish => rfl

end GateFormula
