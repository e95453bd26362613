import GateFormula.Formula

/-!
# Drafts

What has been read of a formula, kept as trees. A draft has a layer for the whole
formula and one for every parenthesis that is open; a layer holds complete operands and
the operators that wait for another one. Taking a token needs the operators of a
registry and nothing else of it. `take_eq_ok_iff` lists every successful step, and
`Move.tokens` says that a draft holds exactly the tokens that it has taken, in order.
-/

namespace GateFormula

/-! ### Building trees -/

/-- The operand that a token is by itself. -/
def Token.leaf? : Token → Option Formula
  | .literal value => some (.literal value)
  | .reference name => some (.reference name)
  | .constant name => some (.constant name)
  | .call _ | .operator _ | .opening | .closing | .comma | .finish => none

/-- Apply waiting operators of one operand, the latest first. -/
def Formula.wrap (f : Formula) (unaries : List String) : Formula :=
  unaries.foldl (fun operand symbol => .unary symbol operand) f

/-- Apply waiting operators of two operands to their left operands and a right one, the
latest first. -/
def Formula.join (f : Formula) (lefts : List (Formula × String)) : Formula :=
  lefts.foldl (fun right left => .binary left.2 left.1 right) f

/-- Joining in two rounds, the later operators first. -/
theorem Formula.join_append (f : Formula) (xs ys : List (Formula × String)) :
    f.join (xs ++ ys) = (f.join xs).join ys := by
  simp only [join, List.foldl_append]

/-- What an open layer is. -/
inductive LayerKind where
  /-- The whole formula. -/
  | root
  /-- A formula in parentheses. -/
  | group
  /-- The arguments of a call, with those that a comma has completed. -/
  | call (name : String) (operands : List Formula)

/-- A layer that is not complete. -/
structure Layer where
  /-- What it is. -/
  kind : LayerKind
  /-- Index of its opening parenthesis. -/
  index : Nat
  /-- Operators that wait for their right operand, each with its left one, the latest first. -/
  lefts : List (Formula × String)

/-- The arguments that a comma has completed. -/
def Layer.operands (l : Layer) : List Formula :=
  match l.kind with
  | .call _ operands => operands
  | .root | .group => []

/-- Whether a waiting operator binds at least as tightly as a symbol. -/
def Layer.bindsBefore (registry : Registry) (symbol : String) (left : Formula × String) : Bool :=
  Formula.rankOf registry left.2 ≤ Formula.rankOf registry symbol

/-- Let an operator wait, whose left operand ends with `f`. -/
def Layer.extend (registry : Registry) (l : Layer) (symbol : String) (f : Formula) : Layer :=
  { l with
    lefts := (f.join (l.lefts.takeWhile (bindsBefore registry symbol)), symbol)
      :: l.lefts.dropWhile (bindsBefore registry symbol) }

/-- What stands at the end of the innermost layer. -/
inductive Focus where
  /-- Nothing but operators of one operand, the latest first. -/
  | awaiting (unaries : List String)
  /-- After such operators the name of a function, whose argument list comes next. -/
  | callee (unaries : List String) (name : String)
  /-- A complete operand. -/
  | filled (operand : Formula)

/-- What has been read of a formula. -/
structure Draft where
  /-- The innermost layer. -/
  current : Layer
  /-- Its end. -/
  focus : Focus
  /-- The layers around it, innermost first, with their waiting operators of one operand. -/
  enclosing : List (Layer × List String)

namespace Draft

/-- The draft before the first token. -/
def initial : Draft where
  current := ⟨.root, 0, []⟩
  focus := .awaiting []
  enclosing := []

/-- Whether an operand comes next. -/
def expectsOperand (d : Draft) : Bool :=
  match d.focus with
  | .awaiting _ | .callee _ _ => true
  | .filled _ => false

/-- Whether nothing has been taken in the innermost layer, if it ends with these operators
of one operand. -/
def isBare (d : Draft) (unaries : List String) : Bool :=
  unaries.isEmpty && d.current.lefts.isEmpty && d.current.operands.isEmpty

/-- Put an operand after operators of one operand. -/
def fill (d : Draft) (unaries : List String) (f : Formula) : Draft :=
  { d with focus := .filled (f.wrap unaries) }

/-- Open a layer. -/
def openLayer (d : Draft) (unaries : List String) (kind : LayerKind) (index : Nat) : Draft where
  current := ⟨kind, index, []⟩
  focus := .awaiting []
  enclosing := (d.current, unaries) :: d.enclosing

/-- Leave the innermost layer for the one around it, where it is the operand `f`. -/
def leave (d : Draft) (index : Nat) (f : Formula) : Except SyntaxError Draft :=
  match d.enclosing with
  | [] => .error ⟨index, .unmatchedClose⟩
  | (outer, unaries) :: enclosing => .ok ⟨outer, .filled (f.wrap unaries), enclosing⟩

/-- Take a token where an operand is expected. -/
def takeAwaiting (registry : Registry) (d : Draft) (unaries : List String) (index : Nat) :
    Token → Except SyntaxError Draft
  | .literal value => .ok (d.fill unaries (.literal value))
  | .reference name => .ok (d.fill unaries (.reference name))
  | .constant name => .ok (d.fill unaries (.constant name))
  | .call name => .ok { d with focus := .callee unaries name }
  | .operator symbol =>
    if (registry.operator? symbol).isNone then .error ⟨index, .unknownOperator⟩
    else if Formula.isUnary registry symbol then
      .ok { d with focus := .awaiting (symbol :: unaries) }
    else .error ⟨index, .missingOperand⟩
  | .opening => .ok (d.openLayer unaries .group index)
  | .comma =>
    match d.current.kind with
    | .root | .group => .error ⟨index, .misplacedComma⟩
    | .call _ _ => .error ⟨index, .missingOperand⟩
  | .closing =>
    match d.current.kind with
    | .root => .error ⟨index, .unmatchedClose⟩
    | .group =>
      if d.isBare unaries then .error ⟨d.current.index, .emptyGroup⟩
      else .error ⟨index, .missingOperand⟩
    | .call name _ =>
      if d.isBare unaries then d.leave index (.call name [])
      else .error ⟨index, .missingOperand⟩
  | .finish =>
    if !d.enclosing.isEmpty then .error ⟨d.current.index, .unmatchedOpen⟩
    else .error ⟨index, if d.isBare unaries then .emptyExpression else .missingOperand⟩

/-- Take a token after the operand `f`. -/
def takeFilled (registry : Registry) (d : Draft) (f : Formula) (index : Nat) :
    Token → Except SyntaxError Draft
  | .literal _ | .reference _ | .constant _ | .call _ | .opening =>
    .error ⟨index, .unexpectedOperand⟩
  | .operator symbol =>
    if (registry.operator? symbol).isNone then .error ⟨index, .unknownOperator⟩
    else if Formula.isUnary registry symbol then .error ⟨index, .misplacedOperator⟩
    else .ok { d with current := d.current.extend registry symbol f, focus := .awaiting [] }
  | .comma =>
    match d.current.kind with
    | .root | .group => .error ⟨index, .misplacedComma⟩
    | .call name operands =>
      .ok
        { d with
          current := ⟨.call name (operands ++ [f.join d.current.lefts]), d.current.index, []⟩
          focus := .awaiting [] }
  | .closing =>
    match d.current.kind with
    | .root => .error ⟨index, .unmatchedClose⟩
    | .group => d.leave index (.group (f.join d.current.lefts))
    | .call name operands => d.leave index (.call name (operands ++ [f.join d.current.lefts]))
  | .finish =>
    if !d.enclosing.isEmpty then .error ⟨d.current.index, .unmatchedOpen⟩
    else
      .ok
        { d with
          current := { d.current with lefts := [] }
          focus := .filled (f.join d.current.lefts) }

/-- Take a token. After the name of a function only its argument list may follow. -/
def take (registry : Registry) (d : Draft) (located : Located) : Except SyntaxError Draft :=
  match d.focus with
  | .callee unaries name =>
    if located.token = .opening then .ok (d.openLayer unaries (.call name []) located.index)
    else .error ⟨located.index, .unexpectedOperand⟩
  | .awaiting unaries => d.takeAwaiting registry unaries located.index located.token
  | .filled f => d.takeFilled registry f located.index located.token

/-! ### Successful steps -/

/-- What a successful step does, for each way in which a token can be taken. -/
inductive Move (registry : Registry) : Draft → Located → Draft → Prop where
  /-- A number or a name that is no function. -/
  | leaf {l us ls index token f} (leaf : Token.leaf? token = some f) :
      Move registry ⟨l, .awaiting us, ls⟩ ⟨index, token⟩ ⟨l, .filled (f.wrap us), ls⟩
  /-- The name of a function. -/
  | callee {l us ls index name} :
      Move registry ⟨l, .awaiting us, ls⟩ ⟨index, .call name⟩ ⟨l, .callee us name, ls⟩
  /-- An operator before its operand. -/
  | unary {l us ls index symbol} (known : Formula.isUnary registry symbol = true) :
      Move registry ⟨l, .awaiting us, ls⟩ ⟨index, .operator symbol⟩
        ⟨l, .awaiting (symbol :: us), ls⟩
  /-- An operator between its operands. -/
  | binary {l f ls index symbol} (known : Formula.isBinary registry symbol = true) :
      Move registry ⟨l, .filled f, ls⟩ ⟨index, .operator symbol⟩
        ⟨l.extend registry symbol f, .awaiting [], ls⟩
  /-- The start of an argument list. -/
  | openCall {l us name ls index} :
      Move registry ⟨l, .callee us name, ls⟩ ⟨index, .opening⟩
        ⟨⟨.call name [], index, []⟩, .awaiting [], (l, us) :: ls⟩
  /-- The start of a formula in parentheses. -/
  | openGroup {l us ls index} :
      Move registry ⟨l, .awaiting us, ls⟩ ⟨index, .opening⟩
        ⟨⟨.group, index, []⟩, .awaiting [], (l, us) :: ls⟩
  /-- The end of an argument that another one follows. -/
  | comma {name operands start lefts f ls index} :
      Move registry ⟨⟨.call name operands, start, lefts⟩, .filled f, ls⟩ ⟨index, .comma⟩
        ⟨⟨.call name (operands ++ [f.join lefts]), start, []⟩, .awaiting [], ls⟩
  /-- The end of a formula in parentheses. -/
  | closeGroup {start lefts f outer us ls index} :
      Move registry ⟨⟨.group, start, lefts⟩, .filled f, (outer, us) :: ls⟩ ⟨index, .closing⟩
        ⟨outer, .filled ((Formula.group (f.join lefts)).wrap us), ls⟩
  /-- The end of an argument list. -/
  | closeCall {name operands start lefts f outer us ls index} :
      Move registry ⟨⟨.call name operands, start, lefts⟩, .filled f, (outer, us) :: ls⟩
        ⟨index, .closing⟩
        ⟨outer, .filled ((Formula.call name (operands ++ [f.join lefts])).wrap us), ls⟩
  /-- The end of an argument list in which nothing stands. -/
  | closeBare {name start outer us ls index} :
      Move registry ⟨⟨.call name [], start, []⟩, .awaiting [], (outer, us) :: ls⟩
        ⟨index, .closing⟩ ⟨outer, .filled ((Formula.call name []).wrap us), ls⟩
  /-- The end of the text. -/
  | finish {l f index} :
      Move registry ⟨l, .filled f, []⟩ ⟨index, .finish⟩
        ⟨{ l with lefts := [] }, .filled (f.join l.lefts), []⟩

/-- An operator of the registry that does not stand before its operand stands between two. -/
theorem isBinary_iff {registry : Registry} {symbol : String} :
    Formula.isBinary registry symbol = true ↔
      (registry.operator? symbol).isNone = false ∧ Formula.isUnary registry symbol = false := by
  unfold Formula.isBinary Formula.isUnary
  cases registry.operator? symbol <;> simp

/-- An operator that stands before its operand is in the registry. -/
theorem isNone_of_isUnary {registry : Registry} {symbol : String}
    (h : Formula.isUnary registry symbol = true) : (registry.operator? symbol).isNone = false := by
  unfold Formula.isUnary at h
  cases ho : registry.operator? symbol with
  | none => simp [ho] at h
  | some o => rfl

/-- Where an operand is expected, every successful step is one of the moves. -/
theorem Move.of_takeAwaiting {registry : Registry} {l : Layer} {us : List String}
    {ls : List (Layer × List String)} {b : Draft} {index : Nat} {token : Token}
    (h : takeAwaiting registry ⟨l, .awaiting us, ls⟩ us index token = .ok b) :
    Move registry ⟨l, .awaiting us, ls⟩ ⟨index, token⟩ b := by
  cases token with
  | literal value => cases h; exact .leaf rfl
  | reference name => cases h; exact .leaf rfl
  | constant name => cases h; exact .leaf rfl
  | call name => cases h; exact .callee
  | operator symbol =>
    simp only [takeAwaiting] at h
    split at h
    · cases h
    split at h <;> cases h
    exact .unary (by assumption)
  | opening => cases h; exact .openGroup
  | comma =>
    simp only [takeAwaiting] at h
    split at h <;> cases h
  | closing =>
    obtain ⟨kind, start, lefts⟩ := l
    cases kind with
    | root => cases h
    | group =>
      simp only [takeAwaiting] at h
      split at h <;> cases h
    | call name operands =>
      simp only [takeAwaiting] at h
      split at h
      next hb =>
        simp only [isBare, Layer.operands, Bool.and_eq_true, List.isEmpty_iff] at hb
        obtain ⟨⟨rfl, rfl⟩, rfl⟩ := hb
        cases ls with
        | nil => cases h
        | cons outer ls => cases h; exact .closeBare
      · cases h
  | finish =>
    simp only [takeAwaiting] at h
    split at h <;> cases h

/-- After an operand, every successful step is one of the moves. -/
theorem Move.of_takeFilled {registry : Registry} {l : Layer} {f : Formula}
    {ls : List (Layer × List String)} {b : Draft} {index : Nat} {token : Token}
    (h : takeFilled registry ⟨l, .filled f, ls⟩ f index token = .ok b) :
    Move registry ⟨l, .filled f, ls⟩ ⟨index, token⟩ b := by
  obtain ⟨kind, start, lefts⟩ := l
  cases token with
  | literal | reference | constant | call | opening => cases h
  | operator symbol =>
    simp only [takeFilled] at h
    split at h
    · cases h
    rename_i hn
    split at h <;> cases h
    rename_i hu
    exact .binary (isBinary_iff.mpr
      ⟨eq_false_of_ne_true hn, eq_false_of_ne_true hu⟩)
  | comma =>
    cases kind with
    | root | group => cases h
    | call name operands => cases h; exact .comma
  | closing =>
    cases kind with
    | root => cases h
    | group =>
      cases ls with
      | nil => cases h
      | cons outer ls => cases h; exact .closeGroup
    | call name operands =>
      cases ls with
      | nil => cases h
      | cons outer ls => cases h; exact .closeCall
  | finish =>
    cases ls with
    | nil => cases h; exact .finish
    | cons outer ls => cases h

/-- The successful steps are the moves. -/
theorem take_eq_ok_iff {registry : Registry} {d b : Draft} {located : Located} :
    d.take registry located = .ok b ↔ Move registry d located b := by
  constructor
  · intro h
    obtain ⟨l, focus, ls⟩ := d
    obtain ⟨index, token⟩ := located
    cases focus with
    | awaiting us => exact .of_takeAwaiting h
    | filled f => exact .of_takeFilled h
    | callee us name =>
      simp only [take] at h
      split at h
      next ht => cases h; cases ht; exact .openCall
      · cases h
  · intro h
    cases h with
    | @leaf l us ls index token f leaf =>
      cases token <;> simp only [Token.leaf?, Option.some.injEq, reduceCtorEq] at leaf <;>
        rw [← leaf] <;> rfl
    | callee | openCall | openGroup | comma | closeGroup | closeCall | closeBare | finish => rfl
    | unary known => simp only [take, takeAwaiting, isNone_of_isUnary known, known, if_true,
        Bool.false_eq_true, if_false]
    | binary known =>
      obtain ⟨hn, hu⟩ := isBinary_iff.mp known
      simp only [take, takeFilled, hn, hu, Bool.false_eq_true, if_false]

end Draft

/-! ### Tokens -/

/-- The tokens with which a layer opens. -/
def LayerKind.opening : LayerKind → List Token
  | .root => []
  | .group => [.opening]
  | .call name _ => [.call name, .opening]

/-- The tokens of operators of one operand, the latest last. -/
def unaryTokens (unaries : List String) : List Token :=
  unaries.reverse.map .operator

/-- The tokens of operators and their left operands, the latest last. -/
def leftTokens (lefts : List (Formula × String)) : List Token :=
  lefts.reverse.flatMap fun left => left.1.tokens ++ [.operator left.2]

/-- The tokens of arguments, each with the comma after it. -/
def operandTokens (operands : List Formula) : List Token :=
  operands.flatMap fun f => f.tokens ++ [.comma]

/-- The tokens of a layer up to its end. -/
def Layer.tokens (l : Layer) : List Token :=
  l.kind.opening ++ operandTokens l.operands ++ leftTokens l.lefts

/-- The tokens at the end of the innermost layer. -/
def Focus.tokens : Focus → List Token
  | .awaiting unaries => unaryTokens unaries
  | .callee unaries name => unaryTokens unaries ++ [.call name]
  | .filled f => f.tokens

/-- The tokens of layers, the innermost of which comes first. -/
def layerTokens : List (Layer × List String) → List Token
  | [] => []
  | (l, unaries) :: ls => layerTokens ls ++ l.tokens ++ unaryTokens unaries

/-- The tokens that a draft holds. -/
def Draft.tokens (d : Draft) : List Token :=
  layerTokens d.enclosing ++ d.current.tokens ++ d.focus.tokens

/-- A leaf has one token. -/
theorem leaf_tokens {token : Token} {f : Formula} (h : token.leaf? = some f) :
    f.tokens = [token] := by
  cases token <;> simp only [Token.leaf?, Option.some.injEq, reduceCtorEq] at h <;>
    rw [← h, Formula.tokens]

/-- A later operator of one operand stands behind the others. -/
theorem unaryTokens_cons (symbol : String) (unaries : List String) :
    unaryTokens (symbol :: unaries) = unaryTokens unaries ++ [.operator symbol] := by
  simp only [unaryTokens, List.reverse_cons, List.map_append, List.map_cons, List.map_nil]

/-- Operators that come later stand behind the others. -/
theorem leftTokens_append (xs ys : List (Formula × String)) :
    leftTokens (xs ++ ys) = leftTokens ys ++ leftTokens xs := by
  simp only [leftTokens, List.reverse_append, List.flatMap_append]

/-- One waiting operator with its left operand. -/
theorem leftTokens_singleton (left : Formula × String) :
    leftTokens [left] = left.1.tokens ++ [.operator left.2] := by
  simp only [leftTokens, List.reverse_singleton, List.flatMap_singleton]

/-- One more argument, with its comma. -/
@[simp] theorem operandTokens_concat (operands : List Formula) (f : Formula) :
    operandTokens (operands ++ [f]) = operandTokens operands ++ (f.tokens ++ [.comma]) := by
  simp only [operandTokens, List.flatMap_append, List.flatMap_singleton]

/-- Operators of one operand come before it. -/
@[simp] theorem wrap_tokens (f : Formula) (unaries : List String) :
    (f.wrap unaries).tokens = unaryTokens unaries ++ f.tokens := by
  induction unaries generalizing f with
  | nil => rfl
  | cons symbol unaries ih =>
    change (Formula.wrap (.unary symbol f) unaries).tokens = _
    rw [ih, Formula.tokens, unaryTokens_cons, List.append_assoc, List.singleton_append]

/-- Operators of two operands come between them. -/
@[simp] theorem join_tokens (f : Formula) (lefts : List (Formula × String)) :
    (f.join lefts).tokens = leftTokens lefts ++ f.tokens := by
  induction lefts generalizing f with
  | nil => rfl
  | cons left lefts ih =>
    change (Formula.join (.binary left.2 left.1 f) lefts).tokens = _
    rw [ih, Formula.tokens, ← List.singleton_append (l := lefts), leftTokens_append,
      leftTokens_singleton]
    simp only [List.append_assoc, List.singleton_append]

/-- The last of several arguments has no comma after it. -/
@[simp] theorem tokensOf_concat (operands : List Formula) (f : Formula) :
    Formula.tokensOf (operands ++ [f]) = operandTokens operands ++ f.tokens := by
  have further : ∀ operands : List Formula, Formula.furtherTokens (operands ++ [f]) =
      .comma :: (operandTokens operands ++ f.tokens) := by
    intro operands
    induction operands with
    | nil => simp only [List.nil_append, Formula.furtherTokens, operandTokens,
        List.flatMap_nil, List.append_nil]
    | cons g operands ih =>
      rw [List.cons_append, Formula.furtherTokens, ih, operandTokens, operandTokens,
        List.flatMap_cons]
      simp only [List.append_assoc, List.cons_append, List.nil_append]
  cases operands with
  | nil => simp only [List.nil_append, Formula.tokensOf, Formula.furtherTokens, operandTokens,
      List.flatMap_nil, List.append_nil]
  | cons g operands =>
    rw [List.cons_append, Formula.tokensOf, further, operandTokens, operandTokens,
      List.flatMap_cons]
    simp only [List.append_assoc, List.cons_append, List.nil_append]

/-- An operator of two operands comes after the operand before it. -/
theorem extend_tokens (registry : Registry) (l : Layer) (symbol : String) (f : Formula) :
    (l.extend registry symbol f).tokens = l.tokens ++ (f.tokens ++ [.operator symbol]) := by
  have hl : leftTokens l.lefts =
      leftTokens (l.lefts.dropWhile (Layer.bindsBefore registry symbol)) ++
        leftTokens (l.lefts.takeWhile (Layer.bindsBefore registry symbol)) := by
    rw [← leftTokens_append, List.takeWhile_append_dropWhile]
  change l.kind.opening ++ operandTokens l.operands ++ leftTokens ([_] ++ _) = _
  rw [leftTokens_append, leftTokens_singleton, join_tokens, Layer.tokens, hl]
  simp only [List.append_assoc]

/-- A draft takes every token but the end into its trees. -/
theorem Draft.Move.tokens {registry : Registry} {d b : Draft} {located : Located}
    (h : Draft.Move registry d located b) (unfinished : located.token ≠ .finish) :
    b.tokens = d.tokens ++ [located.token] := by
  cases h with
  | leaf leaf =>
    simp only [Draft.tokens, Focus.tokens, wrap_tokens, leaf_tokens leaf, List.append_assoc]
  | callee => simp only [Draft.tokens, Focus.tokens, List.append_assoc]
  | unary => simp only [Draft.tokens, Focus.tokens, unaryTokens_cons, List.append_assoc]
  | binary =>
    simp only [Draft.tokens, Focus.tokens, extend_tokens, unaryTokens, List.reverse_nil,
      List.map_nil, List.append_nil, List.append_assoc]
  | openCall | openGroup =>
    simp [Draft.tokens, layerTokens, Focus.tokens, Layer.tokens, LayerKind.opening,
      Layer.operands, operandTokens, leftTokens, unaryTokens]
  | comma =>
    simp [Draft.tokens, Focus.tokens, Layer.tokens, LayerKind.opening, Layer.operands,
      leftTokens, unaryTokens]
  | closeGroup =>
    simp [Draft.tokens, layerTokens, Focus.tokens, Layer.tokens, LayerKind.opening,
      Layer.operands, operandTokens, Formula.tokens]
  | closeCall =>
    simp [Draft.tokens, layerTokens, Focus.tokens, Layer.tokens, LayerKind.opening,
      Layer.operands, Formula.tokens]
  | closeBare =>
    simp [Draft.tokens, layerTokens, Focus.tokens, Layer.tokens, LayerKind.opening,
      Layer.operands, operandTokens, leftTokens, unaryTokens, Formula.tokens, Formula.tokensOf]
  | finish => exact absurd rfl unfinished

end GateFormula
