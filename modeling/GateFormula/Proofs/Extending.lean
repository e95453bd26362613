import GateFormula.Proofs.Tiling

/-!
# Registering what a text does not use

A host adds functions, constants and operators to a registry, and a text that uses none of them
should not notice. A name matters to the tokens of that name alone. An operator matters to the
scanner as well, since its first character ends words and starts symbols wherever it stands; if
that character does not occur in the text, the scanner finds the same tokens (`scanOf_congr`),
and none of them is the operator. Tokens that mean the same are then taken alike, so that the two
registries yield the same program or the same diagnostics.
-/

namespace GateFormula

/-- The same is found in two registries under the name or the symbol of a token. -/
def Token.MeansSame (r s : Registry) : Token → Prop
  | .reference name | .constant name => r.constant? name = s.constant? name
  | .call name => r.function? name = s.function? name
  | .operator symbol => r.operator? symbol = s.operator? symbol
  | .literal _ | .opening | .closing | .comma | .finish => True

/-- Something is added to a registry, in place of an earlier entry or not, that a text does not
use. -/
inductive Registry.AddsUnused (source : String) (r : Registry) : Registry → Prop where
  /-- A function of a name that no token of the text calls. -/
  | function (f : Signature)
      (uncalled : ∀ located ∈ (scanOf r source).tokens, located.token ≠ .call f.name) :
      AddsUnused source r (r.addFunction f)
  /-- A constant of a name that no token of the text has, between sigils or without. -/
  | constant (name : String) (value : Float)
      (unread : ∀ located ∈ (scanOf r source).tokens,
        located.token ≠ .reference name ∧ located.token ≠ .constant name) :
      AddsUnused source r (r.addConstant name value)
  /-- An operator of a symbol whose first character does not occur in the text. -/
  | operator {o : Operator} {extended : Registry} (added : r.addOperator o = .ok extended)
      (unspelled : ∀ c, o.symbol.toList.head? = some c → c ∉ source.toList) :
      AddsUnused source r extended

variable {r s registry extended : Registry} {source : String} {o : Operator}

/-! ### Tokens that mean the same -/

/-- A token that means the same in two registries is taken alike. -/
theorem take_of_meansSame {located : Located} (h : located.token.MeansSame r s) (a : Assembly) :
    a.take r located = a.take s located := by
  obtain ⟨index, token⟩ := located
  cases token with
  | literal | opening | closing | comma | finish => rfl
  | reference name =>
    have hconstant : r.constant? name = s.constant? name := h
    simp only [Assembly.take, Assembly.takeReference, hconstant]
  | constant name =>
    have hconstant : r.constant? name = s.constant? name := h
    simp only [Assembly.take, Assembly.takeConstant, hconstant]
  | call name =>
    have hfunction : r.function? name = s.function? name := h
    simp only [Assembly.take, Assembly.takeCall, hfunction]
  | operator symbol =>
    have hoperator : r.operator? symbol = s.operator? symbol := h
    simp only [Assembly.take, Assembly.takeOperator, hoperator]

/-- If a text has the same tokens in two registries and they mean the same, it compiles alike. -/
theorem compile_of_meansSame (hscan : scanOf r source = scanOf s source)
    (h : ∀ located ∈ (scanOf s source).tokens, located.token.MeansSame r s) :
    compile r source = compile s source := by
  have htake : ∀ (a : Assembly) (located : Located),
      located ∈ (scanOf s source).tokens ∨ located.token = .finish →
        a.take r located = (a.take s located).map id := by
    intro a located hl
    have hsame : located.token.MeansSame r s := by
      rcases hl with hl | ht
      · exact h located hl
      · rw [ht]
        trivial
    rw [take_of_meansSame hsame a]
    cases a.take s located <;> rfl
  have hread : (scanOf s source).read (Assembly.take r) .initial =
      (scanOf s source).read (Assembly.take s) .initial :=
    Scan.read_map id htake .initial
  simp only [compile, run_source, hscan, hread]

/-! ### Operators whose first character does not occur -/

/-- Nothing that is spelled with the characters of the text starts the symbol. -/
theorem not_prefix_of_unspelled
    (unspelled : ∀ c, o.symbol.toList.head? = some c → c ∉ source.toList) {start : List Char}
    (hne : start ≠ []) (hin : start ⊆ source.toList) : ¬start <+: o.symbol.toList := by
  rintro ⟨rest, hsymbol⟩
  cases start with
  | nil => exact hne rfl
  | cons c cs =>
    have hhead : o.symbol.toList.head? = some c := by
      rw [← hsymbol]
      rfl
    exact unspelled c hhead (hin List.mem_cons_self)

/-- What starts with characters of the text finds what it found before. -/
theorem operator?_of_unspelled
    (unspelled : ∀ c, o.symbol.toList.head? = some c → c ∉ source.toList) {start : List Char}
    (hne : start ≠ []) (hin : start ⊆ source.toList) {symbol : String}
    (hstart : start <+: symbol.toList) :
    (registry.putOperator o).operator? symbol = registry.operator? symbol := by
  have hother : o.symbol ≠ symbol := by
    rintro rfl
    exact not_prefix_of_unspelled unspelled hne hin hstart
  simp [hother]

/-- With the operator the text spells the same symbols. -/
theorem sameSymbolsIn_putOperator
    (unspelled : ∀ c, o.symbol.toList.head? = some c → c ∉ source.toList) :
    (registry.putOperator o).SameSymbolsIn source.toList registry := by
  refine ⟨fun start hne hin => ?_, fun symbol hne hin => ?_⟩
  · rw [Bool.eq_iff_iff, Registry.hasOperatorStarting_iff, Registry.hasOperatorStarting_iff]
    refine exists_congr fun symbol => and_congr_left fun hstart => ?_
    rw [operator?_of_unspelled unspelled hne hin hstart]
  · have hstart : symbol <+: (String.ofList symbol).toList := by
      simp only [String.toList_ofList, List.prefix_rfl]
    rw [operator?_of_unspelled unspelled hne hin hstart]

/-! ### Whole texts -/

/-- What a text does not use changes neither its symbols nor the meaning of its tokens. -/
theorem Registry.AddsUnused.unchanged (h : registry.AddsUnused source extended) :
    extended.SameSymbolsIn source.toList registry ∧
      ∀ located ∈ (scanOf registry source).tokens, located.token.MeansSame extended registry := by
  cases h with
  | function f uncalled =>
    have hsame : (registry.addFunction f).SameOperators registry := fun _ => rfl
    refine ⟨hsame.sameSymbolsIn _, fun located hl => ?_⟩
    have hcall := uncalled located hl
    cases ht : located.token with
    | call name =>
      have hne : f.name ≠ name := by
        rintro rfl
        exact hcall ht
      change (registry.addFunction f).function? name = registry.function? name
      simp [hne]
    | reference | constant | operator => rfl
    | literal | opening | closing | comma | finish => trivial
  | constant name value unread =>
    have hsame : (registry.addConstant name value).SameOperators registry := fun _ => rfl
    refine ⟨hsame.sameSymbolsIn _, fun located hl => ?_⟩
    obtain ⟨hreference, hconstant⟩ := unread located hl
    have hlookup : ∀ other, name ≠ other →
        (registry.addConstant name value).constant? other = registry.constant? other :=
      fun _ hne => registry.constant?_addConstant_of_ne value hne
    cases ht : located.token with
    | reference other => exact hlookup other fun heq => hreference (heq ▸ ht)
    | constant other => exact hlookup other fun heq => hconstant (heq ▸ ht)
    | call | operator => rfl
    | literal | opening | closing | comma | finish => trivial
  | operator added unspelled =>
    obtain ⟨rfl, -⟩ := Registry.allowed_of_addOperator added
    refine ⟨sameSymbolsIn_putOperator unspelled, fun located hl => ?_⟩
    cases ht : located.token with
    | operator symbol =>
      have hstands : located.StandsIn source :=
        scanOf_standsIn registry source located (Scan.mem_all hl)
      obtain ⟨hne, hwritten⟩ := hstands.operator_prefix ht
      have hin : symbol.toList ⊆ source.toList :=
        List.Subset.trans hwritten.subset (List.drop_subset _ _)
      exact operator?_of_unspelled unspelled hne hin List.prefix_rfl
    | reference | constant | call => rfl
    | literal | opening | closing | comma | finish => trivial

/-- What a host adds to a registry, in place of an earlier entry or not, does not disturb a text
that does not use it: a function that no token of the text calls, a constant whose name no token
has, or an operator whose first character does not occur in the text. The text then compiles to
the same program or fails with the same diagnostics, it declares the same variables, and scanning
it yields the same tokens or the same error. -/
theorem compileIn_extended (h : registry.AddsUnused source extended) (store : Store) :
    compileIn extended store source = compileIn registry store source ∧
      tokenize extended source = tokenize registry source := by
  obtain ⟨hsymbols, hmeans⟩ := h.unchanged
  have hcompile : compile extended source = compile registry source :=
    compile_of_meansSame (scanOf_congr hsymbols) hmeans
  have hscan : scan extended true (.start source) = scan registry true (.start source) :=
    scanOf_congr hsymbols
  refine ⟨by simp only [compileIn, hcompile], ?_⟩
  rw [tokenize, tokenize, tokensFrom_eq, tokensFrom_eq, hscan]

/-- An operator in which a symbol of the text occurs, but not at its front. -/
theorem compileIn_extended_arrow :
    ∃ extended, Registry.builtin.addOperator (Builtin.arithmetic "<-" 3 fun x _ => x) =
        .ok extended ∧
      Registry.builtin.AddsUnused "max($x$, -2 - 1" extended ∧
      compileIn extended .empty "max($x$, -2 - 1" =
        compileIn .builtin .empty "max($x$, -2 - 1" ∧
      tokenize extended "max($x$, -2 - 1" = tokenize .builtin "max($x$, -2 - 1" := by
  have hadded : Registry.builtin.addOperator (Builtin.arithmetic "<-" 3 fun x _ => x) =
      .ok (Registry.builtin.putOperator (Builtin.arithmetic "<-" 3 fun x _ => x)) := by
    rw [Registry.addOperator, if_neg (by decide), if_neg (by decide), if_pos (by decide)]
  have hunused : Registry.builtin.AddsUnused "max($x$, -2 - 1"
      (Registry.builtin.putOperator (Builtin.arithmetic "<-" 3 fun x _ => x)) := by
    refine .operator hadded fun c hc => ?_
    have hless : c = '<' := (Option.some.inj hc).symm
    rw [hless]
    decide
  exact ⟨_, hadded, hunused, compileIn_extended hunused .empty⟩

end GateFormula
