import GateFormula.Proofs.Assembling

/-!
# One token on both sides

An assembly that holds a draft takes the next token as the draft does. Taking a token
either keeps the two together or fails on both sides with the same error, except at the
closing parenthesis of a hollow group: a group whose only operand writes no code is
refused as if it were empty. `take_answers` and `take_hollow` are the two cases, and each
is proved for the tokens that may stand where an operand is expected, behind an operand
and behind the name of a function.
-/

namespace GateFormula

open Formula

variable {registry : Registry} {place : Nat → Nat}

/-! ### Hollow groups -/

/-- Whether the innermost layer is a group whose only operand writes no code. -/
def Draft.isHollow (registry : Registry) (d : Draft) : Bool :=
  match d.current.kind, d.focus with
  | .group, .filled f => d.current.lefts.isEmpty && (f.written registry).isEmpty
  | _, _ => false

/-- What a hollow group is. -/
theorem isHollow_iff {d : Draft} :
    d.isHollow registry = true ↔ d.current.kind = .group ∧
      ∃ f, d.focus = .filled f ∧ d.current.lefts = [] ∧ f.written registry = [] := by
  obtain ⟨⟨kind, start, lefts⟩, focus, ls⟩ := d
  cases kind <;> cases focus <;> simp [Draft.isHollow]

/-! ### Operators -/

/-- The operator of a symbol decides how the symbol is taken. -/
theorem isUnary_of_operator {symbol : String} {o : Operator}
    (h : registry.operator? symbol = some o) : isUnary registry symbol = o.isUnary := by
  simp only [isUnary, h, Option.any_some]

/-- The operator of a symbol has its rank. -/
theorem rankOf_of_operator {symbol : String} {o : Operator}
    (h : registry.operator? symbol = some o) : rankOf registry symbol = o.rank := by
  simp only [rankOf, h, Option.elim_some]

/-- Taking an operator where an operand is expected. -/
theorem awaiting_operator {a : Assembly} {l : Layer} {us : List String}
    {ls : List (Layer × List String)} (h : a.Holds registry place ⟨l, .awaiting us, ls⟩)
    (index : Nat) (symbol : String) :
    Answers registry place (a.takeOperator registry index symbol)
      (Draft.takeAwaiting registry ⟨l, .awaiting us, ls⟩ us index (.operator symbol)) := by
  have he : a.current.expectsOperand = true := h.current.expects
  unfold Assembly.takeOperator Draft.takeAwaiting
  cases ho : registry.operator? symbol with
  | none =>
    simp only [ho, Option.isNone_none, if_true]
    rfl
  | some o =>
    simp only [ho, he, isUnary_of_operator ho, Option.isNone_some, Bool.false_eq_true, if_false,
      if_true]
    by_cases hu : o.isUnary = true
    · simp only [hu, if_true]
      exact ⟨⟨h.current.kind, h.current.index, h.current.start, h.current.binaries,
        .cons ho h.current.unaries, rfl⟩, h.enclosing, h.pending, h.code, h.problems⟩
    · simp only [hu]
      rfl

/-- The operators that are ready on both sides are the same, and so are those that still wait. -/
theorem named_ready {lefts : List (Formula × String)} {os : List Operator} {symbol : String}
    {o : Operator} (ho : registry.operator? symbol = some o)
    (h : Named registry (lefts.map Prod.snd) os) :
    Named registry ((lefts.takeWhile (Layer.bindsBefore registry symbol)).map Prod.snd)
        (os.takeWhile (·.rank ≤ o.rank)) ∧
      Named registry ((lefts.dropWhile (Layer.bindsBefore registry symbol)).map Prod.snd)
        (os.dropWhile (·.rank ≤ o.rank)) := by
  induction lefts generalizing os with
  | nil =>
    cases h
    exact ⟨.nil, .nil⟩
  | cons left lefts ih =>
    cases h with
    | @cons _ p _ os hp ht =>
      have hb : Layer.bindsBefore registry symbol left = decide (p.rank ≤ o.rank) := by
        rw [Layer.bindsBefore, rankOf_of_operator hp, rankOf_of_operator ho]
      obtain ⟨hready, hwaiting⟩ := ih ht
      by_cases hr : p.rank ≤ o.rank
      · simp only [List.takeWhile_cons, List.dropWhile_cons, hb, hr, decide_true, if_true,
          List.map_cons]
        exact ⟨.cons hp hready, hwaiting⟩
      · simp only [List.takeWhile_cons, List.dropWhile_cons, hb, hr, decide_false,
          Bool.false_eq_true, if_false, List.map_cons]
        exact ⟨.nil, .cons hp ht⟩

/-- The left operands of a layer, apart by whether a symbol makes their operators ready. -/
theorem leftOperands_ready (registry : Registry) (lefts : List (Formula × String))
    (symbol : String) :
    leftOperands lefts =
      leftOperands (lefts.dropWhile (Layer.bindsBefore registry symbol)) ++
        leftOperands (lefts.takeWhile (Layer.bindsBefore registry symbol)) := by
  rw [← leftOperands_append, List.takeWhile_append_dropWhile]

/-- The formulas of a layer in which one more operator waits. -/
theorem extend_pieces (l : Layer) (symbol : String) (f : Formula) :
    (l.extend registry symbol f).pieces =
      l.operands ++ (leftOperands (l.lefts.dropWhile (Layer.bindsBefore registry symbol)) ++
        [f.join (l.lefts.takeWhile (Layer.bindsBefore registry symbol))]) := by
  change l.operands ++ leftOperands (_ :: _) = _
  rw [leftOperands_cons]

/-- Ready operators are written behind the operand before the next one. -/
theorem extend_written {l : Layer} {symbol : String} {f : Formula} {os : List Operator}
    (h : Named registry
      ((l.lefts.takeWhile (Layer.bindsBefore registry symbol)).map Prod.snd) os) :
    (l.extend registry symbol f).written registry =
      l.written registry ++ f.written registry ++ Assembly.callsOf os 2 := by
  rw [Layer.written, extend_pieces, Layer.written, Layer.pieces,
    leftOperands_ready registry l.lefts symbol]
  simp only [writtenOf_append, writtenOf_singleton, join_written h, List.append_assoc]

/-- Nothing is noted when an operator comes after an operand. -/
theorem extend_noted (l : Layer) (symbol : String) (f : Formula) (start : Nat) :
    (l.extend registry symbol f).noted registry place start =
      l.noted registry place start ++ f.noted registry place (start + l.tokens.length) := by
  have ht : (leftTokens l.lefts).length =
      (leftTokens (l.lefts.dropWhile (Layer.bindsBefore registry symbol))).length +
        (leftTokens (l.lefts.takeWhile (Layer.bindsBefore registry symbol))).length := by
    rw [← List.length_append, ← leftTokens_append, List.takeWhile_append_dropWhile]
  rw [Layer.noted, extend_pieces, Layer.noted, Layer.pieces,
    leftOperands_ready registry l.lefts symbol, Layer.tokens_length, ht]
  change l.kind.noted registry place start ++
    notedOf registry place (start + l.kind.opening.length) _ = _
  simp only [notedOf_append, notedOf_singleton, join_noted, List.append_assoc,
    operandTokens_leftOperands, Nat.add_assoc]

/-- Taking an operator behind an operand. -/
theorem filled_operator {a : Assembly} {l : Layer} {f : Formula}
    {ls : List (Layer × List String)} (h : a.Holds registry place ⟨l, .filled f, ls⟩)
    (index : Nat) (symbol : String) :
    Answers registry place (a.takeOperator registry index symbol)
      (Draft.takeFilled registry ⟨l, .filled f, ls⟩ f index (.operator symbol)) := by
  have he : a.current.expectsOperand = false := h.current.expects
  unfold Assembly.takeOperator Draft.takeFilled
  cases ho : registry.operator? symbol with
  | none =>
    simp only [ho, Option.isNone_none, if_true]
    rfl
  | some o =>
    simp only [ho, he, isUnary_of_operator ho, Option.isNone_some, Bool.false_eq_true, if_false]
    by_cases hu : o.isUnary = true
    · simp only [hu, if_true]
      rfl
    · simp only [hu]
      obtain ⟨hready, hwaiting⟩ := named_ready ho h.current.binaries
      refine ⟨⟨h.current.kind, h.current.index, h.current.start, .cons ho hwaiting,
        h.current.unaries, rfl⟩, h.enclosing, h.pending, ?_, ?_⟩
      · have hc : a.code.toList = layersWritten registry ls ++ l.written registry ++
            f.written registry := h.code
        change (a.code ++ Assembly.callsOf _ 2).toList = layersWritten registry ls ++
          (l.extend registry symbol f).written registry ++ []
        rw [Array.toList_appendList, hc, extend_written hready]
        simp only [List.append_assoc, List.append_nil]
      · have hp : a.problems.toList = layersNoted registry place ls ++
            l.noted registry place (layerTokens ls).length ++
              f.noted registry place ((layerTokens ls).length + l.tokens.length) := h.problems
        change a.problems.toList = layersNoted registry place ls ++
          (l.extend registry symbol f).noted registry place (layerTokens ls).length ++ []
        rw [hp, extend_noted]
        simp only [List.append_assoc, List.append_nil]

/-! ### Opened layers -/

/-- Opening a layer behind operators of one operand. -/
theorem open_holds {a : Assembly} {l : Layer} {us : List String} {ls : List (Layer × List String)}
    {kind : LayerKind} {grouping : GroupingKind} (index : Nat)
    (hc : a.current.Holds registry place ls l us true)
    (he : Enclose registry place ls a.enclosing)
    (hk : grouping = kind.grouping registry (place (layerTokens ((l, us) :: ls)).length))
    (ho : Layer.operands ⟨kind, index, []⟩ = [])
    (hcode : a.code.toList = layersWritten registry ls ++ l.written registry)
    (hproblems : a.problems.toList = layersNoted registry place ((l, us) :: ls) ++
      kind.noted registry place (layerTokens ((l, us) :: ls)).length) :
    (a.openGrouping grouping index).Holds registry place
      ⟨⟨kind, index, []⟩, .awaiting [], (l, us) :: ls⟩ := by
  have hpieces : Layer.pieces ⟨kind, index, []⟩ = [] := (Layer.pieces_nil kind index).trans ho
  have hwritten : Layer.written registry ⟨kind, index, []⟩ = [] := by
    rw [Layer.written, hpieces, writtenOf]
  have hnoted : Layer.noted registry place (layerTokens ((l, us) :: ls)).length
      ⟨kind, index, []⟩ = kind.noted registry place (layerTokens ((l, us) :: ls)).length := by
    rw [Layer.noted, hpieces, notedOf, List.append_nil]
  refine ⟨⟨hk, rfl, ?_, .nil, .nil, rfl⟩, .cons hc he, rfl, ?_, ?_⟩
  · change a.code.size = _
    rw [← Array.length_toList, hcode, layersWritten]
  · change a.code.toList = _
    simp only [Draft.written, Focus.written, hwritten, layersWritten, List.append_nil, hcode]
  · change a.problems.toList = _
    simp only [Draft.noted, Focus.noted, hnoted, List.append_nil, hproblems]

/-! ### Taking a token where an operand is expected -/

/-- There are as many groupings around the innermost one as layers. -/
theorem enclosing_isEmpty {ls : List (Layer × List String)} {gs : List Grouping}
    (h : Enclose registry place ls gs) : gs.isEmpty = ls.isEmpty := by
  cases h <;> rfl

/-- Taking the name of a function. -/
theorem callee_holds {a b : Assembly} {l : Layer} {us : List String} {name : String}
    {ls : List (Layer × List String)} (h : a.Holds registry place ⟨l, .awaiting us, ls⟩)
    (hc : b.current = a.current) (he : b.enclosing = a.enclosing)
    (hp : b.pending = some ⟨name, place ((layerTokens ls).length + l.tokens.length + us.length),
      registry.function? name⟩)
    (hcode : b.code = a.code)
    (hproblems : b.problems.toList = a.problems.toList ++ calleeNoted registry place
      ((layerTokens ls).length + l.tokens.length + us.length) name) :
    b.Holds registry place ⟨l, .callee us name, ls⟩ := by
  refine ⟨?_, ?_, hp, ?_, ?_⟩
  · rw [hc]
    exact h.current
  · rw [he]
    exact h.enclosing
  · rw [hcode]
    exact h.code
  · rw [hproblems, h.problems, Draft.noted, Focus.noted, List.append_nil]
    rfl

/-- Leaving the empty argument list of a call. -/
theorem bare_answers {a : Assembly} {name : String} {operands : List Formula} {start : Nat}
    {lefts : List (Formula × String)} {us : List String} {ls : List (Layer × List String)}
    (index : Nat)
    (h : a.Holds registry place ⟨⟨.call name operands, start, lefts⟩, .awaiting us, ls⟩)
    (hb : Draft.isBare ⟨⟨.call name operands, start, lefts⟩, .awaiting us, ls⟩ us = true) :
    Answers registry place (a.release.leave index true)
      (Draft.leave ⟨⟨.call name operands, start, lefts⟩, .awaiting us, ls⟩ index
        (.call name [])) := by
  simp only [Draft.isBare, Layer.operands, Bool.and_eq_true, List.isEmpty_iff] at hb
  obtain ⟨⟨rfl, rfl⟩, rfl⟩ := hb
  have hbinaries : a.current.binaries = [] := List.forall₂_nil_left_iff.mp h.current.binaries
  have hcode : a.release.code.toList = a.code.toList := by
    change (a.code ++ Assembly.callsOf a.current.binaries 2).toList = _
    rw [hbinaries, Array.toList_appendList]
    exact List.append_nil _
  refine leave_call index true h.current.kind rfl h.enclosing h.pending ?_ ?_
  · rw [hcode, h.code]
    simp only [Draft.written, Focus.written, Layer.written, Layer.pieces_nil, Layer.operands,
      List.append_nil]
  · change a.problems.toList = _
    rw [h.problems]
    simp only [Draft.noted, Focus.noted, Layer.noted, LayerKind.noted, Layer.pieces_nil,
      Layer.operands, notedOf, List.append_nil]

/-- Taking a closing parenthesis where an operand is expected. -/
theorem awaiting_closing {a : Assembly} {l : Layer} {us : List String}
    {ls : List (Layer × List String)} (index : Nat)
    (h : a.Holds registry place ⟨l, .awaiting us, ls⟩) :
    Answers registry place (a.takeClosing index)
      (Draft.takeAwaiting registry ⟨l, .awaiting us, ls⟩ us index .closing) := by
  have he : a.current.expectsOperand = true := h.current.expects
  simp only [Assembly.takeClosing, isEmpty_awaiting h, h.current.kind, he, Draft.takeAwaiting]
  obtain ⟨kind, start, lefts⟩ := l
  cases kind with
  | root => rfl
  | group =>
    by_cases hb : Draft.isBare ⟨⟨.group, start, lefts⟩, .awaiting us, ls⟩ us = true
    · simp only [LayerKind.grouping, hb, if_true]
      exact congrArg (SyntaxError.mk · .emptyGroup) h.current.index
    · simp only [LayerKind.grouping, hb]
      rfl
  | call name operands =>
    by_cases hb : Draft.isBare ⟨⟨.call name operands, start, lefts⟩, .awaiting us, ls⟩ us = true
    · simp only [LayerKind.grouping, hb, if_true]
      exact bare_answers index h hb
    · simp only [LayerKind.grouping, hb]
      rfl

/-- Taking the end of a text where an operand is expected. -/
theorem awaiting_finish {a : Assembly} {l : Layer} {us : List String}
    {ls : List (Layer × List String)} (index : Nat)
    (h : a.Holds registry place ⟨l, .awaiting us, ls⟩) :
    Answers registry place (a.takeFinish index)
      (Draft.takeAwaiting registry ⟨l, .awaiting us, ls⟩ us index .finish) := by
  have he : a.current.expectsOperand = true := h.current.expects
  simp only [Assembly.takeFinish, isEmpty_awaiting h, he, if_true, Draft.takeAwaiting,
    enclosing_isEmpty h.enclosing]
  by_cases hl : (!ls.isEmpty) = true
  · simp only [hl, if_true]
    exact congrArg (SyntaxError.mk · .unmatchedOpen) h.current.index
  · simp only [hl]
    rfl

/-- Taking a token where an operand is expected. -/
theorem awaiting_answers {a : Assembly} {l : Layer} {us : List String}
    {ls : List (Layer × List String)} {index : Nat} (token : Token)
    (h : a.Holds registry place ⟨l, .awaiting us, ls⟩)
    (hi : index = place ((layerTokens ls).length + l.tokens.length + us.length)) :
    Answers registry place (a.take registry ⟨index, token⟩)
      (Draft.takeAwaiting registry ⟨l, .awaiting us, ls⟩ us index token) := by
  have hp : a.pending = none := h.pending
  have he : a.current.expectsOperand = true := h.current.expects
  have hr : a.requireOperand index = .ok () := by rw [Assembly.requireOperand, he, if_pos rfl]
  simp only [Assembly.take, hp, Option.isSome_none, Bool.false_and, Bool.false_eq_true, if_false]
  cases token with
  | literal value =>
    simp only [Assembly.takeLiteral, hr]
    exact leaf_holds h rfl rfl rfl (by simp [Assembly.emit, written])
      (by simp [Assembly.emit, noted])
  | reference name =>
    simp only [Assembly.takeReference, hr]
    cases hc : registry.constant? name with
    | none =>
      exact leaf_holds h rfl rfl rfl (by simp [Assembly.emit, written, hc])
        (by simp [Assembly.emit, noted])
    | some value =>
      exact leaf_holds h rfl rfl rfl (by simp [Assembly.emit, written, hc])
        (by simp [Assembly.emit, noted])
  | constant name =>
    simp only [Assembly.takeConstant, hr]
    cases hc : registry.constant? name with
    | none =>
      exact leaf_holds h rfl rfl rfl (by simp [Assembly.emit, Assembly.report, written, hc])
        (by simp [Assembly.emit, Assembly.report, noted, hc, hi])
    | some value =>
      exact leaf_holds h rfl rfl rfl (by simp [Assembly.emit, written, hc])
        (by simp [Assembly.emit, noted, hc])
  | call name =>
    simp only [Assembly.takeCall, hr]
    cases hf : registry.function? name with
    | none =>
      exact callee_holds h rfl rfl (by simp [hf, hi]) rfl
        (by simp [Assembly.report, calleeNoted, hf, hi])
    | some function =>
      exact callee_holds h rfl rfl (by simp [hf, hi]) rfl (by simp [calleeNoted, hf])
  | operator symbol => exact awaiting_operator h index symbol
  | opening =>
    simp only [Assembly.takeOpening, hp, hr]
    refine open_holds index h.current h.enclosing rfl rfl ?_ ?_
    · rw [h.code, Draft.written, Focus.written, List.append_nil]
    · rw [h.problems, Draft.noted, Focus.noted, LayerKind.noted, List.append_nil, layersNoted,
        List.append_nil]
  | comma =>
    simp only [Assembly.takeComma, h.current.kind, Draft.takeAwaiting]
    cases l.kind with
    | root => rfl
    | group => rfl
    | call name operands => simp only [LayerKind.grouping, he, if_true]; rfl
  | closing => exact awaiting_closing index h
  | finish => exact awaiting_finish index h

/-! ### Taking a token behind an operand -/

/-- The number of arguments that a closing parenthesis sees. -/
theorem seenOperands_join {a : Assembly} {name : String} {operands : List Formula} {start : Nat}
    {lefts : List (Formula × String)} {f : Formula} {ls : List (Layer × List String)}
    (h : a.Holds registry place ⟨⟨.call name operands, start, lefts⟩, .filled f, ls⟩) :
    (if a.current.isEmpty a.code.size then 0 else operands.length + 1) =
      seenOperands (writtenOf registry (operands ++ [f.join lefts]))
        (operands ++ [f.join lefts]).length := by
  have hcode := join_written h.current.binaries f
  have hjoin : (f.join lefts).written registry = [] ↔ f.written registry = [] ∧ lefts = [] := by
    have hlength := h.current.binaries.length_eq
    rw [hcode]
    cases lefts with
    | nil =>
      rw [List.map_nil, List.length_nil] at hlength
      rw [List.length_eq_zero_iff.mp hlength.symm]
      simp [leftOperands, writtenOf, Assembly.callsOf]
    | cons left lefts =>
      have hne : a.current.binaries ≠ [] := by
        rintro hnil
        rw [hnil] at hlength
        cases hlength
      simp [Assembly.callsOf, hne]
  have hempty : a.current.isEmpty a.code.size = true ↔
      writtenOf registry (operands ++ [f.join lefts]) = [] ∧ operands = [] := by
    rw [isEmpty_iff h, writtenOf_append, writtenOf_singleton, List.append_eq_nil_iff, hjoin]
    simp only [Focus.written, Focus.unaries, Layer.operands, true_and]
    constructor
    · rintro ⟨hf, hl, ho⟩
      exact ⟨⟨by rw [ho, writtenOf], hf, hl⟩, ho⟩
    · rintro ⟨⟨_, hf, hl⟩, ho⟩
      exact ⟨hf, hl, ho⟩
  rw [seenOperands, List.length_append, List.length_singleton]
  by_cases he : a.current.isEmpty a.code.size = true
  · obtain ⟨hw, ho⟩ := hempty.mp he
    rw [he, hw, ho]
    rfl
  · rw [if_neg he, if_neg]
    intro hs
    simp only [Bool.and_eq_true, List.isEmpty_iff, decide_eq_true_eq] at hs
    exact he (hempty.mpr ⟨hs.1, List.length_eq_zero_iff.mp (by omega)⟩)

/-- Closing a layer behind an operand, unless the layer is hollow. -/
theorem filled_closing {a : Assembly} {l : Layer} {f : Formula} {ls : List (Layer × List String)}
    (index : Nat) (h : a.Holds registry place ⟨l, .filled f, ls⟩)
    (hn : ¬Draft.isHollow registry ⟨l, .filled f, ls⟩ = true) :
    Answers registry place (a.takeClosing index)
      (Draft.takeFilled registry ⟨l, .filled f, ls⟩ f index .closing) := by
  have he : a.current.expectsOperand = false := h.current.expects
  obtain ⟨kind, start, lefts⟩ := l
  simp only [Assembly.takeClosing, h.current.kind, he, Draft.takeFilled, Bool.false_and,
    Bool.false_eq_true, if_false]
  cases kind with
  | root => rfl
  | group =>
    have hempty : a.current.isEmpty a.code.size = false := by
      refine eq_false_of_ne_true fun hs => hn ?_
      obtain ⟨hf, _, hl, _⟩ := (isEmpty_iff h).mp hs
      exact isHollow_iff.mpr ⟨rfl, f, rfl, hl, hf⟩
    simp only [LayerKind.grouping, hempty]
    refine leave_group index false h.current.kind h.enclosing h.pending ?_ ?_
    · rw [release_code h, written]
      simp only [Layer.operands, List.nil_append, writtenOf_singleton]
    · rw [release_problems h, noted]
      simp only [Layer.operands, List.nil_append, notedOf_singleton, LayerKind.noted,
        LayerKind.opening, List.length_singleton]
  | call name operands =>
    simp only [LayerKind.grouping]
    refine leave_call index _ h.current.kind ?_ h.enclosing h.pending (release_code h)
      (release_problems h)
    exact seenOperands_join h

/-- Taking a comma behind an operand. -/
theorem filled_comma {a : Assembly} {l : Layer} {f : Formula} {ls : List (Layer × List String)}
    (index : Nat) (h : a.Holds registry place ⟨l, .filled f, ls⟩) :
    Answers registry place (a.takeComma index)
      (Draft.takeFilled registry ⟨l, .filled f, ls⟩ f index .comma) := by
  have he : a.current.expectsOperand = false := h.current.expects
  obtain ⟨kind, start, lefts⟩ := l
  simp only [Assembly.takeComma, h.current.kind, he, Draft.takeFilled]
  cases kind with
  | root => rfl
  | group => rfl
  | call name operands =>
    refine ⟨⟨?_, h.current.index, h.current.start, .nil, h.current.unaries, rfl⟩, h.enclosing,
      h.pending, ?_, ?_⟩
    · simp only [LayerKind.grouping, List.length_append, List.length_singleton]
    · refine (release_code h).trans ?_
      simp only [Draft.written, Focus.written, Layer.written, Layer.pieces_nil, Layer.operands,
        List.append_nil]
    · refine (release_problems h).trans ?_
      simp only [Draft.noted, Focus.noted, Layer.noted, LayerKind.noted, LayerKind.opening,
        Layer.pieces_nil, Layer.operands, List.append_nil]

/-- Taking the end of a text behind an operand. -/
theorem filled_finish {a : Assembly} {l : Layer} {f : Formula} {ls : List (Layer × List String)}
    (index : Nat) (h : a.Holds registry place ⟨l, .filled f, ls⟩) :
    Answers registry place (a.takeFinish index)
      (Draft.takeFilled registry ⟨l, .filled f, ls⟩ f index .finish) := by
  have he : a.current.expectsOperand = false := h.current.expects
  simp only [Assembly.takeFinish, he, Draft.takeFilled, enclosing_isEmpty h.enclosing]
  cases ls with
  | cons outer ls => exact congrArg (SyntaxError.mk · .unmatchedOpen) h.current.index
  | nil =>
    have hwhole : Draft.written registry ⟨{ l with lefts := [] }, .filled (f.join l.lefts), []⟩ ++
        Assembly.callsOf [] 2 =
          layersWritten registry [] ++ writtenOf registry (l.operands ++ [f.join l.lefts]) :=
      filled_written .nil
    refine ⟨⟨h.current.kind, h.current.index, h.current.start, .nil, h.current.unaries, he⟩,
      h.enclosing, h.pending, ?_, ?_⟩
    · exact (release_code h).trans (hwhole.symm.trans (List.append_nil _))
    · exact (release_problems h).trans
        (filled_noted { l with lefts := [] } (f.join l.lefts) []).symm

/-- Taking a token behind an operand, unless it closes a hollow group. -/
theorem filled_answers {a : Assembly} {l : Layer} {f : Formula} {ls : List (Layer × List String)}
    (index : Nat) (token : Token) (h : a.Holds registry place ⟨l, .filled f, ls⟩)
    (hn : ¬(token = .closing ∧ Draft.isHollow registry ⟨l, .filled f, ls⟩ = true)) :
    Answers registry place (a.take registry ⟨index, token⟩)
      (Draft.takeFilled registry ⟨l, .filled f, ls⟩ f index token) := by
  have hp : a.pending = none := h.pending
  have he : a.current.expectsOperand = false := h.current.expects
  have hr : a.requireOperand index = .error ⟨index, .unexpectedOperand⟩ := by
    rw [Assembly.requireOperand, he, if_neg Bool.false_ne_true]
  simp only [Assembly.take, hp, Option.isSome_none, Bool.false_and, Bool.false_eq_true, if_false]
  cases token with
  | literal value => simp only [Assembly.takeLiteral, hr]; rfl
  | reference name => simp only [Assembly.takeReference, hr]; rfl
  | constant name => simp only [Assembly.takeConstant, hr]; rfl
  | call name => simp only [Assembly.takeCall, hr]; rfl
  | opening => simp only [Assembly.takeOpening, hp, hr]; rfl
  | operator symbol => exact filled_operator h index symbol
  | comma => exact filled_comma index h
  | closing => exact filled_closing index h fun hs => hn ⟨rfl, hs⟩
  | finish => exact filled_finish index h

/-- Taking a token right behind the name of a function. -/
theorem callee_answers {a : Assembly} {l : Layer} {us : List String} {name : String}
    {ls : List (Layer × List String)} (located : Located)
    (h : a.Holds registry place ⟨l, .callee us name, ls⟩) :
    Answers registry place (a.take registry located)
      (Draft.take registry ⟨l, .callee us name, ls⟩ located) := by
  have hp : a.pending = some ⟨name, place ((layerTokens ls).length + l.tokens.length + us.length),
    registry.function? name⟩ := h.pending
  obtain ⟨index, token⟩ := located
  by_cases ht : token = .opening
  · subst ht
    simp only [Assembly.take, Draft.take, hp, Assembly.takeOpening, ne_eq, not_true_eq_false,
      decide_false, Bool.and_false, Bool.false_eq_true, if_false, if_true]
    refine open_holds index h.current h.enclosing ?_ rfl ?_ ?_
    · rw [layerTokens_length]
      rfl
    · rw [h.code, Draft.written, Focus.written, List.append_nil]
    · rw [h.problems, Draft.noted, Focus.noted, layersNoted, layerTokens_length]
      rfl
  · simp only [Assembly.take, Draft.take, hp, ht, Option.isSome_some, ne_eq, not_false_eq_true,
      decide_true, Bool.and_true, if_true, if_false]
    rfl

/-! ### Taking any token -/

/-- The closing parenthesis of a hollow group is refused, as if the group were empty. -/
theorem take_hollow {a : Assembly} {d : Draft} {located : Located}
    (h : a.Holds registry place d) (ht : located.token = .closing)
    (hh : d.isHollow registry = true) :
    a.take registry located = .error ⟨d.current.index, .emptyGroup⟩ := by
  obtain ⟨l, focus, ls⟩ := d
  obtain ⟨index, token⟩ := located
  subst ht
  obtain ⟨hk, f, rfl, hl, hf⟩ := isHollow_iff.mp hh
  change l.kind = .group at hk
  have hp : a.pending = none := h.pending
  have hkind : a.current.kind = .group := by rw [h.current.kind, hk, LayerKind.grouping]
  have hoperands : l.operands = [] := by rw [Layer.operands, hk]
  have hempty : a.current.isEmpty a.code.size = true :=
    (isEmpty_iff h).mpr ⟨hf, rfl, hl, hoperands⟩
  simp only [Assembly.take, hp, Assembly.takeClosing, hkind, hempty, Option.isSome_none,
    Bool.false_and, Bool.false_eq_true, if_false]
  exact congrArg (fun n => Except.error (SyntaxError.mk n .emptyGroup)) h.current.index

/-- Taking a token that does not close a hollow group keeps an assembly at its draft, or fails
on both sides with one error. -/
theorem take_answers {a : Assembly} {d : Draft} {located : Located}
    (h : a.Holds registry place d) (hi : located.index = place d.tokens.length)
    (hn : ¬(located.token = .closing ∧ d.isHollow registry = true)) :
    Answers registry place (a.take registry located) (d.take registry located) := by
  obtain ⟨l, focus, ls⟩ := d
  obtain ⟨index, token⟩ := located
  cases focus with
  | awaiting us =>
    refine awaiting_answers token h (hi.trans ?_)
    simp only [Draft.tokens, Focus.tokens, unaryTokens, List.length_append, List.length_map,
      List.length_reverse]
  | callee us name => exact callee_answers ⟨index, token⟩ h
  | filled f => exact filled_answers index token h hn

end GateFormula
