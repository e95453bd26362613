import GateFormula.Proofs.Assembling.Row
import Mathlib.Logic.Function.Iterate

/-!
# What a hollow group holds

A group is refused as if it were empty if nothing is written for the formula in it. Such a
formula is a call that the registry does not support, of operands for which nothing is written,
perhaps in further parentheses. `isHollow` tells these formulas from the tree alone, and
`written_eq_nil_iff` says that there are no others. A draft knows where its open groups start,
so that the first hollow group of a text is found in the text with such a call in it and nothing
else: `holdsUnsupported_of_hollowGroup?`.
-/

namespace GateFormula

namespace Formula

mutual

/-- Whether nothing is written for a formula: it is a call that is not supported, of operands
for which nothing is written, or such a call in parentheses. A single operand for which nothing
is written is not counted. -/
def isHollow (registry : Registry) : Formula → Bool
  | .literal _ | .reference _ | .constant _ | .unary _ _ | .binary _ _ _ => false
  | .group inner => inner.isHollow registry
  | .call name operands =>
    areHollow registry operands && (registry.function? name).all fun function =>
      !function.accepts (if operands.length ≤ 1 then 0 else operands.length)

/-- Whether nothing is written for several formulas. -/
def areHollow (registry : Registry) : List Formula → Bool
  | [] => true
  | f :: fs => f.isHollow registry && areHollow registry fs

end

variable {registry : Registry}

/-! ### Formulas for which nothing is written -/

/-- The call of an operator of the registry is code. -/
theorem operatorCode_ne_nil {symbol : String} {count : Nat}
    (h : (registry.operator? symbol).isNone = false) :
    operatorCode registry symbol count ≠ [] := by
  unfold operatorCode
  cases ho : registry.operator? symbol with
  | none =>
    rw [ho] at h
    cases h
  | some o => exact List.cons_ne_nil _ _

/-- The call of a function is written if the function is there and accepts the number of its
operands. -/
theorem callCode_eq_nil_iff {name : String} {count : Nat} :
    callCode registry name count = [] ↔
      (registry.function? name).all (fun function => !function.accepts count) = true := by
  unfold callCode
  cases registry.function? name with
  | none => simp
  | some function => cases function.accepts count <;> simp

mutual

/-- Nothing is written for an ordered formula exactly if it is hollow. -/
theorem written_eq_nil_iff (f : Formula) (hf : f.isOrdered registry = true) :
    f.written registry = [] ↔ f.isHollow registry = true := by
  match f with
  | .literal value => simp [written, isHollow]
  | .reference name | .constant name =>
    rw [written, isHollow]
    split <;> simp
  | .group inner =>
    rw [isOrdered] at hf
    rw [written, isHollow]
    exact written_eq_nil_iff inner hf
  | .call name operands =>
    rw [isOrdered] at hf
    have hinside := writtenOf_eq_nil_iff operands hf
    rw [written, isHollow, List.append_eq_nil_iff, callCode_eq_nil_iff, Bool.and_eq_true, hinside]
    refine and_congr_right fun hh => ?_
    rw [hinside.mpr hh]
    simp [seenOperands]
  | .unary symbol operand =>
    simp only [isOrdered, Bool.and_eq_true] at hf
    have hcode : operatorCode registry symbol 1 ≠ [] :=
      operatorCode_ne_nil (Draft.isNone_of_isUnary hf.1.1)
    simp [written, isHollow, hcode]
  | .binary symbol left right =>
    simp only [isOrdered, Bool.and_eq_true] at hf
    have hcode : operatorCode registry symbol 2 ≠ [] :=
      operatorCode_ne_nil (Draft.isBinary_iff.mp hf.1.1.1.1).1
    simp [written, isHollow, hcode]

/-- Nothing is written for several ordered formulas exactly if they are hollow. -/
theorem writtenOf_eq_nil_iff (fs : List Formula) (hf : areOrdered registry fs = true) :
    writtenOf registry fs = [] ↔ areHollow registry fs = true := by
  match fs with
  | [] => simp [writtenOf, areHollow]
  | f :: fs =>
    rw [areOrdered, Bool.and_eq_true] at hf
    rw [writtenOf, areHollow, List.append_eq_nil_iff, Bool.and_eq_true,
      written_eq_nil_iff f hf.1, writtenOf_eq_nil_iff fs hf.2]

end

/-- A hollow formula is a hollow call, or one in parentheses. -/
theorem exists_call_of_isHollow {f : Formula} (h : f.isHollow registry = true) :
    ∃ depth name operands, f = Formula.group^[depth] (.call name operands) ∧
      (Formula.call name operands).isHollow registry = true := by
  match f with
  | .literal _ | .reference _ | .constant _ | .unary _ _ | .binary _ _ _ => cases h
  | .group inner =>
    rw [isHollow] at h
    obtain ⟨depth, name, operands, rfl, hcall⟩ := exists_call_of_isHollow h
    exact ⟨depth + 1, name, operands, (Function.iterate_succ_apply' _ _ _).symm, hcall⟩
  | .call name operands => exact ⟨0, name, operands, rfl, h⟩

end Formula

open Formula

variable {registry : Registry}

/-! ### Where open groups start -/

/-- Every group among these layers starts with the parenthesis of its index, which stands in the
row behind the tokens of the layers around it. -/
def OpensIn (row : List Located) : List (Layer × List String) → Prop
  | [] => True
  | (l, _) :: ls =>
    (l.kind = .group → ∃ before, before ++ [⟨l.index, .opening⟩] <+: row ∧
      before.map Located.token = layerTokens ls) ∧ OpensIn row ls

/-- Groups start where they do, whatever comes later. -/
theorem OpensIn.mono {row longer : List Located} {ls : List (Layer × List String)}
    (h : OpensIn row ls) (hp : row <+: longer) : OpensIn longer ls := by
  induction ls with
  | nil => trivial
  | cons outer ls ih =>
    refine ⟨fun hk => ?_, ih h.2⟩
    obtain ⟨before, hbefore, htokens⟩ := h.1 hk
    exact ⟨before, hbefore.trans hp, htokens⟩

/-- A token leaves the open groups where they are, and a new one starts with its token. -/
theorem Draft.Move.opensIn {d b : Draft} {located : Located} {row : List Located}
    (h : Draft.Move registry d located b) (ht : row.map Located.token = d.tokens)
    (hd : OpensIn row ((d.current, []) :: d.enclosing)) :
    OpensIn (row ++ [located]) ((b.current, []) :: b.enclosing) := by
  have hlater := hd.mono (List.prefix_append row [located])
  -- The row so far holds the tokens of all layers, so that a new group stands right behind it.
  cases h with
  | leaf | callee | unary | binary | finish => exact hlater
  | openCall => exact ⟨nofun, hlater⟩
  | openGroup => exact ⟨fun _ => ⟨row, List.prefix_rfl, ht⟩, hlater⟩
  | comma => exact ⟨nofun, hlater.2⟩
  | closeGroup | closeCall | closeBare => exact hlater.2

/-- Behind a row of tokens every open group starts where its index says. -/
theorem Draft.Moves.opensIn {d b : Draft} {row taken : List Located}
    (h : Draft.Moves registry d row b) (hu : ∀ located ∈ row, located.token ≠ .finish)
    (ht : taken.map Located.token = d.tokens)
    (hd : OpensIn taken ((d.current, []) :: d.enclosing)) :
    OpensIn (taken ++ row) ((b.current, []) :: b.enclosing) := by
  induction h generalizing taken with
  | nil => rwa [List.append_nil]
  | @cons d c b located row first rest ih =>
    obtain ⟨hfirst, hrest⟩ := List.forall_mem_cons.mp hu
    have htaken : (taken ++ [located]).map Located.token = c.tokens := by
      rw [List.map_append, ht, first.tokens hfirst, List.map_singleton]
    rw [← List.singleton_append, ← List.append_assoc]
    exact ih hrest htaken (first.opensIn ht hd)

/-! ### The first hollow group of a row -/

/-- In a row of tokens, the group that opens at an index holds nothing but a call that is not
supported, perhaps in further parentheses. -/
def HoldsUnsupported (registry : Registry) (row : List Located) (index : Nat) : Prop :=
  ∃ (before inside after : List Located) (closing depth : Nat) (name : String)
    (operands : List Formula),
    row = before ++ ⟨index, .opening⟩ :: (inside ++ ⟨closing, .closing⟩ :: after) ∧
      inside.map Located.token = (Formula.group^[depth] (.call name operands)).tokens ∧
      (Formula.call name operands).isHollow registry = true

/-- The first hollow group of a row is the innermost layer in front of the token that closes
it. -/
theorem moves_of_hollowGroup? {d : Draft} {row : List Located} {index : Nat}
    (h : d.hollowGroup? registry row = some index) :
    ∃ taken closing after b, row = taken ++ ⟨closing, .closing⟩ :: after ∧
      Draft.Moves registry d taken b ∧ b.isHollow registry = true ∧
      b.current.index = index := by
  induction row generalizing d with
  | nil => cases h
  | cons located row ih =>
    obtain ⟨place, token⟩ := located
    rw [Draft.hollowGroup?] at h
    split at h
    next hh =>
      obtain ⟨rfl, hhollow⟩ := hh
      exact ⟨[], place, row, d, rfl, .nil, hhollow, Option.some.inj h⟩
    · cases hb : d.take registry ⟨place, token⟩ with
      | error e => rw [hb] at h; cases h
      | ok b =>
        rw [hb] at h
        obtain ⟨taken, closing, after, c, rfl, hm, hc⟩ := ih h
        exact ⟨_ :: taken, closing, after, c, rfl, .cons (Draft.take_eq_ok_iff.mp hb) hm, hc⟩

/-- The first hollow group of a text holds a call that is not supported, and nothing else. -/
theorem holdsUnsupported_of_hollowGroup? {row : List Located} {index : Nat}
    (hrow : ∀ located ∈ row, located.token ≠ .finish)
    (h : Draft.initial.hollowGroup? registry row = some index) :
    HoldsUnsupported registry row index := by
  obtain ⟨taken, closing, after, d, rfl, hm, hh, rfl⟩ := moves_of_hollowGroup? h
  have hu : ∀ located ∈ taken, located.token ≠ .finish :=
    fun located hl => hrow located (List.mem_append_left _ hl)
  have htokens := hm.tokens hu
  have hordered := hm.ordered hu (Draft.initial_ordered registry)
  have hinitial : ([] : List Located).map Located.token = Draft.initial.tokens := rfl
  have hopens : OpensIn taken ((d.current, []) :: d.enclosing) :=
    hm.opensIn hu hinitial ⟨nofun, trivial⟩
  obtain ⟨⟨kind, start, lefts⟩, focus, ls⟩ := d
  obtain ⟨hk, f, rfl, hl, hf⟩ := isHollow_iff.mp hh
  cases hk
  cases hl
  obtain ⟨before, ⟨inside, rfl⟩, hbefore⟩ := hopens.1 rfl
  have hinside : inside.map Located.token = f.tokens := by
    rw [List.map_append, List.map_append, hbefore] at htokens
    simpa [Draft.tokens, Draft.initial, layerTokens, Layer.tokens, LayerKind.opening,
      Layer.operands, operandTokens, Focus.tokens, unaryTokens, leftTokens] using htokens.symm
  obtain ⟨depth, name, operands, rfl, hcall⟩ :=
    exists_call_of_isHollow ((written_eq_nil_iff f hordered.focus.1).mp hf)
  refine ⟨before, inside, after, closing, depth, name, operands, ?_, hinside, hcall⟩
  simp only [List.append_assoc, List.cons_append, List.nil_append]

end GateFormula
