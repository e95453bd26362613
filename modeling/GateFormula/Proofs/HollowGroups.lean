import GateFormula.Proofs.SyntaxVerdict

/-!
# Hollow groups of a formula

A group around a formula for which nothing is written is refused as if it were empty. A draft
comes to a hollow group exactly when it completes one as a tree, so that the text of a formula
is refused for one exactly if there is one in the formula: `hollowGroup?_eq_none_iff`.
-/

namespace GateFormula

namespace Formula

mutual

/-- Whether something is written in every group of a formula. -/
def hasFullGroups (registry : Registry) : Formula → Bool
  | .literal _ | .reference _ | .constant _ => true
  | .group inner => !inner.isHollow registry && inner.hasFullGroups registry
  | .call _ operands => haveFullGroups registry operands
  | .unary _ operand => operand.hasFullGroups registry
  | .binary _ left right => left.hasFullGroups registry && right.hasFullGroups registry

/-- Whether something is written in every group of several formulas. -/
def haveFullGroups (registry : Registry) : List Formula → Bool
  | [] => true
  | f :: fs => f.hasFullGroups registry && haveFullGroups registry fs

end

variable {registry : Registry}

/-! ### Groups of joined formulas -/

/-- Several formulas have full groups if each of them has. -/
theorem haveFullGroups_iff {fs : List Formula} :
    haveFullGroups registry fs = true ↔ ∀ f ∈ fs, f.hasFullGroups registry = true := by
  induction fs with
  | nil => simp [haveFullGroups]
  | cons f fs ih => rw [haveFullGroups, Bool.and_eq_true, ih, List.forall_mem_cons]

/-- Operators of one operand add no group. -/
@[simp] theorem wrap_hasFullGroups (us : List String) (f : Formula) :
    (f.wrap us).hasFullGroups registry = f.hasFullGroups registry := by
  induction us generalizing f with
  | nil => rfl
  | cons symbol us ih =>
    change (Formula.wrap (.unary symbol f) us).hasFullGroups registry = _
    rw [ih, hasFullGroups]

/-- Operators of two operands add no group but those of their left operands. -/
theorem join_hasFullGroups (lefts : List (Formula × String)) (f : Formula) :
    (f.join lefts).hasFullGroups registry = true ↔
      (∀ left ∈ lefts, left.1.hasFullGroups registry = true) ∧
        f.hasFullGroups registry = true := by
  induction lefts generalizing f with
  | nil => simp [join]
  | cons left lefts ih =>
    change (Formula.join (.binary left.2 left.1 f) lefts).hasFullGroups registry = true ↔ _
    rw [ih, hasFullGroups, Bool.and_eq_true, List.forall_mem_cons, ← and_assoc,
      and_comm (b := left.1.hasFullGroups registry = true)]

/-- An operator of two operands is always written. -/
theorem join_isHollow (lefts : List (Formula × String)) (f : Formula) :
    (f.join lefts).isHollow registry = true ↔ lefts = [] ∧ f.isHollow registry = true := by
  have hbinary : ∀ (lefts : List (Formula × String)) symbol left right,
      (Formula.join (.binary symbol left right) lefts).isHollow registry = false := by
    intro lefts
    induction lefts with
    | nil =>
      intro symbol left right
      change (Formula.binary symbol left right).isHollow registry = false
      rw [isHollow]
    | cons next lefts ih => exact fun symbol left right => ih _ _ _
  cases lefts with
  | nil => simp [join]
  | cons left lefts =>
    change (Formula.join (.binary left.2 left.1 f) lefts).isHollow registry = true ↔ _
    simp [hbinary]

end Formula

open Formula

variable {registry : Registry}

/-! ### Groups of drafts -/

/-- Every complete formula of a layer has full groups. -/
structure Layer.HasFullGroups (registry : Registry) (l : Layer) : Prop where
  /-- The complete arguments have. -/
  operands : ∀ f ∈ l.operands, f.hasFullGroups registry = true
  /-- The left operands have. -/
  lefts : ∀ left ∈ l.lefts, left.1.hasFullGroups registry = true

/-- A complete operand at the end of a layer has full groups. -/
def Focus.HasFullGroups (registry : Registry) : Focus → Prop
  | .awaiting _ | .callee _ _ => True
  | .filled f => f.hasFullGroups registry = true

/-- Every complete formula of a draft has full groups. -/
structure Draft.HasFullGroups (registry : Registry) (d : Draft) : Prop where
  /-- Those of the layers around the innermost one have. -/
  enclosing : ∀ outer ∈ d.enclosing, outer.1.HasFullGroups registry
  /-- Those of the innermost layer have. -/
  current : d.current.HasFullGroups registry
  /-- The one at its end has. -/
  focus : d.focus.HasFullGroups registry

/-- What full groups of a layer are. -/
theorem layer_hasFullGroups {l : Layer} :
    l.HasFullGroups registry ↔ (∀ f ∈ l.operands, f.hasFullGroups registry = true) ∧
      ∀ left ∈ l.lefts, left.1.hasFullGroups registry = true :=
  ⟨fun h => ⟨h.operands, h.lefts⟩, fun h => ⟨h.1, h.2⟩⟩

/-- What full groups of a draft are. -/
theorem draft_hasFullGroups {l : Layer} {focus : Focus} {ls : List (Layer × List String)} :
    Draft.HasFullGroups registry ⟨l, focus, ls⟩ ↔
      (∀ outer ∈ ls, outer.1.HasFullGroups registry) ∧ l.HasFullGroups registry ∧
        focus.HasFullGroups registry :=
  ⟨fun h => ⟨h.enclosing, h.current, h.focus⟩, fun h => ⟨h.1, h.2.1, h.2.2⟩⟩

/-- In a layer that ends with an operand, the operand and those to the left of it count as the
formula that they make. -/
theorem filled_hasFullGroups {l : Layer} {f : Formula} {ls : List (Layer × List String)} :
    Draft.HasFullGroups registry ⟨l, .filled f, ls⟩ ↔
      (∀ outer ∈ ls, outer.1.HasFullGroups registry) ∧
        (∀ g ∈ l.operands, g.hasFullGroups registry = true) ∧
          (f.join l.lefts).hasFullGroups registry = true := by
  rw [draft_hasFullGroups, layer_hasFullGroups, Focus.HasFullGroups, join_hasFullGroups, and_assoc]

/-- A layer that opens has no formula, so that those around it are all. -/
theorem opened_hasFullGroups {l : Layer} {focus : Focus} {ls : List (Layer × List String)}
    {us : List String} {kind : LayerKind} {index : Nat}
    (hk : Layer.operands ⟨kind, index, []⟩ = []) (hf : focus.HasFullGroups registry) :
    Draft.HasFullGroups registry ⟨⟨kind, index, []⟩, .awaiting [], (l, us) :: ls⟩ ↔
      Draft.HasFullGroups registry ⟨l, focus, ls⟩ := by
  have hopened : Layer.HasFullGroups registry ⟨kind, index, []⟩ :=
    ⟨by simp [hk], fun left hleft => absurd hleft List.not_mem_nil⟩
  have hnothing : Focus.HasFullGroups registry (.awaiting []) := trivial
  simp only [draft_hasFullGroups, List.forall_mem_cons, hopened, hnothing, hf, and_true]
  exact and_comm

/-- A layer that takes an operator has the groups that it had and those of its operand. -/
theorem extend_hasFullGroups (l : Layer) (symbol : String) (f : Formula) :
    (l.extend registry symbol f).HasFullGroups registry ↔
      l.HasFullGroups registry ∧ f.hasFullGroups registry = true := by
  have hlefts : (∀ left ∈ l.lefts, left.1.hasFullGroups registry = true) ↔
      (∀ left ∈ l.lefts.takeWhile (Layer.bindsBefore registry symbol),
        left.1.hasFullGroups registry = true) ∧
      ∀ left ∈ l.lefts.dropWhile (Layer.bindsBefore registry symbol),
        left.1.hasFullGroups registry = true := by
    rw [← List.forall_mem_append, List.takeWhile_append_dropWhile]
  have hoperands : (l.extend registry symbol f).operands = l.operands := rfl
  rw [layer_hasFullGroups, layer_hasFullGroups, hoperands, hlefts, Layer.extend,
    List.forall_mem_cons, join_hasFullGroups]
  tauto

/-- A hollow group is one whose whole formula is hollow. -/
theorem isHollow_filled {start : Nat} {lefts : List (Formula × String)} {f : Formula}
    {ls : List (Layer × List String)} (hf : f.isOrdered registry = true) :
    Draft.isHollow registry ⟨⟨.group, start, lefts⟩, .filled f, ls⟩ = true ↔
      (f.join lefts).isHollow registry = true := by
  rw [join_isHollow, ← written_eq_nil_iff f hf]
  simp [Draft.isHollow]

/-- A group that closes is one more, which has to be full. -/
theorem closedGroup_hasFullGroups {start : Nat} {lefts : List (Formula × String)} {f : Formula}
    {outer : Layer} {us : List String} {ls : List (Layer × List String)}
    (hf : f.isOrdered registry = true) :
    Draft.HasFullGroups registry ⟨outer, .filled ((Formula.group (f.join lefts)).wrap us), ls⟩ ↔
      Draft.HasFullGroups registry ⟨⟨.group, start, lefts⟩, .filled f, (outer, us) :: ls⟩ ∧
        ¬Draft.isHollow registry ⟨⟨.group, start, lefts⟩, .filled f, (outer, us) :: ls⟩ = true := by
  rw [draft_hasFullGroups, filled_hasFullGroups, isHollow_filled hf, Focus.HasFullGroups,
    wrap_hasFullGroups, Formula.hasFullGroups, Bool.and_eq_true, Bool.not_eq_true',
    List.forall_mem_cons, Bool.not_eq_true]
  simp only [Layer.operands, List.not_mem_nil, false_implies, implies_true, true_and]
  tauto

/-- The end of an argument list adds no group: the arguments count as they did in the list. -/
theorem closedCall_hasFullGroups {name : String} {operands : List Formula} {start : Nat}
    {lefts : List (Formula × String)} {f : Formula} {outer : Layer} {us : List String}
    {ls : List (Layer × List String)} :
    Draft.HasFullGroups registry
        ⟨outer, .filled ((Formula.call name (operands ++ [f.join lefts])).wrap us), ls⟩ ↔
      Draft.HasFullGroups registry
        ⟨⟨.call name operands, start, lefts⟩, .filled f, (outer, us) :: ls⟩ := by
  rw [draft_hasFullGroups, filled_hasFullGroups, Focus.HasFullGroups, wrap_hasFullGroups,
    Formula.hasFullGroups, haveFullGroups_iff, List.forall_mem_append, List.forall_mem_singleton,
    List.forall_mem_cons]
  simp only [Layer.operands]
  tauto

/-- A token adds a group that is not full exactly if it closes a hollow group. -/
theorem Draft.Move.hasFullGroups {d b : Draft} {located : Located}
    (h : Draft.Move registry d located b) (hd : d.Ordered registry) :
    b.HasFullGroups registry ↔
      d.HasFullGroups registry ∧ ¬(located.token = .closing ∧ d.isHollow registry = true) := by
  cases h with
  | @leaf l us ls index token f leaf =>
    have hf : f.hasFullGroups registry = true ∧ token ≠ .closing := by
      cases token <;> simp only [Token.leaf?, Option.some.injEq, reduceCtorEq] at leaf <;>
        rw [← leaf] <;> exact ⟨by rw [Formula.hasFullGroups], by simp⟩
    simp [draft_hasFullGroups, Focus.HasFullGroups, hf]
  | callee | unary => simp [draft_hasFullGroups, Focus.HasFullGroups]
  | @binary l f ls index symbol known =>
    simp [draft_hasFullGroups, Focus.HasFullGroups, extend_hasFullGroups]
  | openCall | openGroup =>
    simp only [reduceCtorEq, false_and, not_false_eq_true, and_true]
    exact opened_hasFullGroups rfl trivial
  | @comma name operands start lefts f ls index =>
    rw [filled_hasFullGroups, draft_hasFullGroups, layer_hasFullGroups]
    simp only [Layer.operands, Focus.HasFullGroups, List.forall_mem_append,
      List.forall_mem_singleton, List.not_mem_nil, false_implies, implies_true, reduceCtorEq,
      false_and, not_false_eq_true, and_true]
  | @closeGroup start lefts f outer us ls index =>
    simp only [true_and]
    exact closedGroup_hasFullGroups hd.focus.1
  | @closeCall name operands start lefts f outer us ls index =>
    simp only [Draft.isHollow, Bool.false_eq_true, and_false, not_false_eq_true, and_true]
    exact closedCall_hasFullGroups
  | @closeBare name start outer us ls index =>
    have hbare : Focus.HasFullGroups registry (.filled ((Formula.call name []).wrap us)) := by
      rw [Focus.HasFullGroups, wrap_hasFullGroups, Formula.hasFullGroups, haveFullGroups]
    simp only [Draft.isHollow, Bool.false_eq_true, and_false, not_false_eq_true, and_true]
    exact (opened_hasFullGroups rfl hbare).symm
  | @finish l f index =>
    simp only [reduceCtorEq, false_and, not_false_eq_true, and_true]
    rw [filled_hasFullGroups, filled_hasFullGroups]
    rfl

/-- A row of tokens leads from full groups to full groups exactly if it closes no hollow one. -/
theorem Draft.Moves.hasFullGroups {d b : Draft} {row : List Located}
    (h : Draft.Moves registry d row b) (hu : ∀ located ∈ row, located.token ≠ .finish)
    (hd : d.Ordered registry) :
    b.HasFullGroups registry ↔
      d.HasFullGroups registry ∧ d.hollowGroup? registry row = none := by
  induction h with
  | nil => simp [Draft.hollowGroup?]
  | @cons d c b located row first rest ih =>
    obtain ⟨hfirst, hrest⟩ := List.forall_mem_cons.mp hu
    rw [ih hrest (first.ordered hfirst hd), first.hasFullGroups hd, Draft.hollowGroup?,
      Draft.take_eq_ok_iff.mpr first, and_assoc]
    by_cases hh : located.token = .closing ∧ d.isHollow registry = true
    · simp [hh]
    · simp only [hh, not_false_eq_true, true_and, if_false]

/-- The tokens of a formula are those of the scan of its text. -/
theorem Formula.Yields.scan_tokens {source : String} {tokens : List Located} {f : Formula}
    (hf : f.Yields registry tokens) (ht : tokenize registry source = .ok tokens) :
    (scanOf registry source).tokens.map Located.token = f.tokens := by
  obtain ⟨n, -, rfl⟩ := tokenize_eq_ok_iff.mp ht
  have he := hf.tokens_eq
  rw [List.map_append] at he
  exact List.append_cancel_right he

/-- The text of a formula has no hollow group exactly if the formula has none. -/
theorem hollowGroup?_eq_none_iff {source : String} {tokens : List Located} {f : Formula}
    (ht : tokenize registry source = .ok tokens) (hf : f.Yields registry tokens) :
    hollowGroup? registry source = none ↔ f.hasFullGroups registry = true := by
  obtain ⟨d, hm, hlast⟩ := f.moves hf.ordered (hf.scan_tokens ht) 0
  have hu := scan_unfinished registry true (.start source)
  have hinitial : Draft.initial.HasFullGroups registry :=
    ⟨by simp [Draft.initial], ⟨by simp [Draft.initial, Layer.operands], by simp [Draft.initial]⟩,
      trivial⟩
  have hrun := hm.hasFullGroups hu (Draft.initial_ordered registry)
  have hfinal := hlast.hasFullGroups (hm.ordered hu (Draft.initial_ordered registry))
  simp only [hinitial, true_and] at hrun
  simp only [reduceCtorEq, false_and, not_false_eq_true, and_true] at hfinal
  rw [hollowGroup?, ← hrun, ← hfinal]
  constructor
  · exact fun h => h.focus
  · exact fun h => ⟨by simp, ⟨by simp [Layer.operands], by simp⟩, h⟩

end GateFormula
