import GateFormula.Proofs.Declaring
import GateFormula.Proofs.LongestMatch

/-!
# Groupings on a stack

An assembly has its innermost grouping at hand and cannot be without one. `Stacked` keeps all
groupings on a stack, where every access to the innermost one may fail, and has the store at hand,
in which it declares each variable that is read. It also does not rely on the scanner: whatever
the scanner should not answer is checked. Each failed access and each failed check is a `Breach`,
which ends the text without an answer.

An assembly has a stack, `Stacked.of`. If its outermost grouping is the whole formula, a closing
parenthesis is taken alike on both; any other token that the scanner may answer always is.
-/

namespace GateFormula

/-- What goes wrong if groupings are lost or the scanner does not keep its word. -/
inductive Breach where
  /-- No grouping is left. -/
  | noGrouping
  /-- There is no grouping for a parenthesis to close. -/
  | noneToClose
  /-- Something else than an argument list follows the name of a function. -/
  | noArguments
  /-- A symbol that is scanned is that of no operator. -/
  | noOperator
deriving DecidableEq, Repr

/-- Why a token is not taken. -/
inductive Stop where
  /-- The text is malformed. -/
  | refused (error : SyntaxError)
  /-- Something goes wrong that has nothing to do with the text. -/
  | broken (breach : Breach)

/-- A breach stops whatever is under way. -/
instance : MonadLift (Except Breach) (Except Stop) where
  monadLift := Except.mapError .broken

/-- The state between two tokens, with all groupings on a stack and with a store. -/
structure Stacked where
  /-- The groupings, the innermost first. -/
  groupings : List Grouping
  /-- A function whose argument list comes next. -/
  pending : Option PendingCall := none
  /-- The code so far. -/
  code : Array Instruction := #[]
  /-- The problems so far. -/
  problems : Array Problem := #[]
  /-- The store that the formula belongs to. -/
  store : Store

namespace Stacked

/-- The state before the first token. -/
def initial (store : Store) : Stacked where
  groupings := [{ kind := .root, index := 0, start := 0 }]
  store

/-- The innermost grouping. -/
def innermost (s : Stacked) : Except Breach Grouping :=
  match s.groupings with
  | [] => .error .noGrouping
  | g :: _ => .ok g

/-- Change the innermost grouping. -/
def change (s : Stacked) (f : Grouping → Grouping) : Except Breach Stacked :=
  match s.groupings with
  | [] => .error .noGrouping
  | g :: enclosing => .ok { s with groupings := f g :: enclosing }

/-- Whether an operand comes next. -/
def expectsOperand (s : Stacked) : Except Breach Bool :=
  if s.pending.isSome then .ok true else s.innermost.map Grouping.expectsOperand

/-- Write instructions. -/
def write (s : Stacked) (instructions : List Instruction) : Stacked :=
  { s with code := s.code ++ instructions }

/-- Note a problem. -/
def report (s : Stacked) (problem : Problem) : Stacked :=
  { s with problems := s.problems.push problem }

/-- The operand of the innermost grouping is complete. -/
def completeOperand (s : Stacked) : Except Breach Stacked := do
  let g ← s.innermost
  let s ← s.change fun g => { g with unaries := [], expectsOperand := false }
  return s.write (Assembly.callsOf g.unaries 1)

/-- Write all waiting operators of two operands of the innermost grouping. -/
def release (s : Stacked) : Except Breach Stacked := do
  let g ← s.innermost
  let s ← s.change fun g => { g with binaries := [] }
  return s.write (Assembly.callsOf g.binaries 2)

/-- Go on only if an operand is expected. -/
def requireOperand (s : Stacked) (index : Nat) : Except Stop Unit := do
  let g ← s.innermost
  if g.expectsOperand then return () else throw (.refused ⟨index, .unexpectedOperand⟩)

/-- Take an operand that is a single instruction. -/
def takeOperand (s : Stacked) (instruction : Instruction) : Except Breach Stacked :=
  (s.write [instruction]).completeOperand

/-- Take a name between sigils. -/
def takeReference (registry : Registry) (s : Stacked) (name : String) : Except Breach Stacked :=
  match registry.constant? name with
  | some value => s.takeOperand (.push value)
  | none => { s with store := s.store.declare name }.takeOperand (.load name)

/-- Take a bare name. -/
def takeConstant (registry : Registry) (s : Stacked) (index : Nat) (name : String) :
    Except Breach Stacked :=
  match registry.constant? name with
  | some value => s.takeOperand (.push value)
  | none => (s.report (.unknownConstant name index)).takeOperand (.push 0)

/-- Take the name of a function. -/
def takeCall (registry : Registry) (s : Stacked) (index : Nat) (name : String) : Stacked :=
  match registry.function? name with
  | some function => { s with pending := some ⟨name, index, some function⟩ }
  | none =>
    { s.report (.unknownFunction name index) with pending := some ⟨name, index, none⟩ }

/-- Take an operator. -/
def takeOperator (registry : Registry) (s : Stacked) (index : Nat) (symbol : String) :
    Except Stop Stacked :=
  match registry.operator? symbol with
  | none => throw (.broken .noOperator)
  | some o => do
    let g ← s.innermost
    if g.expectsOperand then
      if o.isUnary then s.change fun g => { g with unaries := o :: g.unaries }
      else throw (.refused ⟨index, .missingOperand⟩)
    else if o.isUnary then throw (.refused ⟨index, .misplacedOperator⟩)
    else
      let s := s.write (Assembly.callsOf (g.binaries.takeWhile (·.rank ≤ o.rank)) 2)
      s.change fun g =>
        { g with
          binaries := o :: g.binaries.dropWhile (·.rank ≤ o.rank)
          expectsOperand := true }

/-- Open a grouping. -/
def openGrouping (s : Stacked) (kind : GroupingKind) (index : Nat) : Stacked :=
  { s with
    groupings := { kind, index, start := s.code.size } :: s.groupings
    pending := none }

/-- Take an opening parenthesis. -/
def takeOpening (s : Stacked) (index : Nat) : Except Stop Stacked :=
  match s.pending with
  | some callee => return s.openGrouping (.call callee 0) index
  | none => do
    s.requireOperand index
    return s.openGrouping .group index

/-- Take a comma. -/
def takeComma (s : Stacked) (index : Nat) : Except Stop Stacked := do
  let g ← s.innermost
  match g.kind with
  | .root | .group => throw (.refused ⟨index, .misplacedComma⟩)
  | .call callee commas =>
    if g.expectsOperand then throw (.refused ⟨index, .missingOperand⟩)
    else
      let s ← s.release
      s.change fun g => { g with kind := .call callee (commas + 1), expectsOperand := true }

/-- Write a call with `count` arguments. -/
def finishCall (s : Stacked) (callee : PendingCall) (count : Nat) : Stacked :=
  match callee.function with
  | none => s
  | some function =>
    if function.accepts count then s.write [.call function count]
    else s.report (.arityMismatch callee.name callee.index count function)

/-- Take the innermost grouping from the stack. It is an operand of the one below it. -/
def leave (s : Stacked) (isEmpty : Bool) : Except Breach Stacked :=
  match s.groupings with
  | [] => throw .noneToClose
  | inner :: around =>
    let s := { s with groupings := around }
    match inner.kind with
    | .call callee commas =>
      (s.finishCall callee (if isEmpty then 0 else commas + 1)).completeOperand
    | .root | .group => s.completeOperand

/-- Write what waits in the innermost grouping, and take it from the stack. -/
def close (s : Stacked) (isEmpty : Bool) : Except Breach Stacked := do
  let s ← s.release
  s.leave isEmpty

/-- Take a closing parenthesis. -/
def takeClosing (s : Stacked) (index : Nat) : Except Stop Stacked := do
  let g ← s.innermost
  let isEmpty := g.isEmpty s.code.size
  match g.kind, isEmpty with
  | .root, _ => throw (.refused ⟨index, .unmatchedClose⟩)
  | .group, true => throw (.refused ⟨g.index, .emptyGroup⟩)
  | _, _ =>
    if g.expectsOperand && !isEmpty then throw (.refused ⟨index, .missingOperand⟩)
    else s.close isEmpty

/-- Take the end of the text. -/
def takeFinish (s : Stacked) (index : Nat) : Except Stop Stacked := do
  let g ← s.innermost
  if 1 < s.groupings.length then throw (.refused ⟨g.index, .unmatchedOpen⟩)
  else if g.expectsOperand then
    throw (.refused ⟨index,
      if g.isEmpty s.code.size then .emptyExpression else .missingOperand⟩)
  else s.release

/-- Take a token. -/
def take (registry : Registry) (s : Stacked) (located : Located) : Except Stop Stacked :=
  if s.pending.isSome && located.token ≠ .opening then throw (.broken .noArguments)
  else
    match located.token with
    | .literal value => do
      s.requireOperand located.index
      s.takeOperand (.push value)
    | .reference name => do
      s.requireOperand located.index
      s.takeReference registry name
    | .constant name => do
      s.requireOperand located.index
      s.takeConstant registry located.index name
    | .call name => do
      s.requireOperand located.index
      return s.takeCall registry located.index name
    | .operator symbol => s.takeOperator registry located.index symbol
    | .opening => s.takeOpening located.index
    | .comma => s.takeComma located.index
    | .closing => s.takeClosing located.index
    | .finish => s.takeFinish located.index

/-- Scan and take tokens from a cursor to the end or to the first error, which is returned with
the state before it. A breach is all that is returned of a run that comes to it. -/
def run (registry : Registry) (cursor : Cursor) (s : Stacked) :
    Except Breach (Stacked × Option SyntaxError) :=
  match s.expectsOperand with
  | .error breach => .error breach
  | .ok expectOperand =>
    match _step : cursor.next registry expectOperand with
    | (.error error, _) => .ok (s, some error)
    | (.ok located, after) =>
      match s.take registry located with
      | .error (.broken breach) => .error breach
      | .error (.refused error) => .ok (s, some error)
      | .ok t =>
        if _last : located.token = .finish then .ok (t, none) else run registry after t
termination_by cursor.rest.length
decreasing_by exact Cursor.next_shortens _step _last

/-- Compile a text for a store: the result and the store behind the last token that is taken. -/
def compile (registry : Registry) (store : Store) (source : String) :
    Except Breach (Except Diagnostics Program × Store) := do
  let (final, error?) ← run registry (.start source) (.initial store)
  let result := match error? with
    | some error => .error ⟨source, .malformed error⟩
    | none =>
      if final.problems.isEmpty then .ok ⟨source, final.code.toList⟩
      else .error ⟨source, .unsupported final.problems.toList⟩
  return (result, final.store)

/-! ### The stack of an assembly -/

/-- An assembly with its groupings on a stack, and with a store in which its variables are
declared. -/
def of (a : Assembly) (store : Store) : Stacked where
  groupings := a.current :: a.enclosing
  pending := a.pending
  code := a.code
  problems := a.problems
  store := store.declareAll a.mentioned.toList

/-- What an assembly answers to a token, with the groupings on a stack. -/
def ofAnswer (store : Store) : Except SyntaxError Assembly → Except Stop Stacked
  | .ok b => .ok (of b store)
  | .error error => .error (.refused error)

variable {registry : Registry} (a : Assembly) (store : Store)

/-- Completing an operand does not break. -/
theorem completeOperand_of : (of a store).completeOperand = .ok (of a.completeOperand store) := rfl

/-- Releasing operators does not break. -/
theorem release_of : (of a store).release = .ok (of a.release store) := rfl

/-- An operand is required of the innermost grouping. -/
theorem requireOperand_of (index : Nat) :
    (of a store).requireOperand index =
      (a.requireOperand index).mapError .refused := by
  change (if a.current.expectsOperand then _ else _) = _
  rw [Assembly.requireOperand]
  split <;> rfl

/-- Taking an operand does not break. -/
theorem takeOperand_of (instruction : Instruction) :
    (of a store).takeOperand instruction = .ok (of (a.emit instruction).completeOperand store) :=
  rfl

/-- A variable that is read is declared at once. -/
theorem of_mention (name : String) :
    of { a with mentioned := a.mentioned.push name } store =
      { of a store with store := (of a store).store.declare name } := by
  simp only [of, Array.toList_push, Store.declareAll_append]
  rfl

/-- Finishing a call is the same on a stack. -/
theorem finishCall_of (callee : PendingCall) (count : Nat) :
    (of a store).finishCall callee count = of (a.finishCall callee count) store := by
  unfold finishCall Assembly.finishCall
  cases callee.function with
  | none => rfl
  | some function =>
    simp only
    split <;> rfl

/-- A number is taken alike. -/
theorem take_literal (index : Nat) (value : Float) :
    (do (of a store).requireOperand index; (of a store).takeOperand (.push value)) =
      ofAnswer store (a.takeLiteral index value) := by
  rw [requireOperand_of, takeOperand_of, Assembly.takeLiteral]
  cases a.requireOperand index <;> rfl

/-- A name between sigils is taken alike. -/
theorem take_reference (index : Nat) (name : String) :
    (do (of a store).requireOperand index; (of a store).takeReference registry name) =
      ofAnswer store (a.takeReference registry index name) := by
  rw [requireOperand_of, takeReference, Assembly.takeReference]
  cases a.requireOperand index with
  | error e => rfl
  | ok =>
    cases registry.constant? name with
    | some value => rfl
    | none =>
      simp only
      rw [← of_mention]
      rfl

/-- A bare name is taken alike. -/
theorem take_constant (index : Nat) (name : String) :
    (do (of a store).requireOperand index; (of a store).takeConstant registry index name) =
      ofAnswer store (a.takeConstant registry index name) := by
  rw [requireOperand_of, takeConstant, Assembly.takeConstant]
  cases a.requireOperand index with
  | error e => rfl
  | ok => cases registry.constant? name <;> rfl

/-- The name of a function is taken alike. -/
theorem take_call (index : Nat) (name : String) :
    (do (of a store).requireOperand index; return (of a store).takeCall registry index name) =
      ofAnswer store (a.takeCall registry index name) := by
  rw [requireOperand_of, takeCall, Assembly.takeCall]
  cases a.requireOperand index with
  | error e => rfl
  | ok => cases registry.function? name <;> rfl

/-- An operator of the registry is taken alike. -/
theorem take_operator {symbol : String} (listed : (registry.operator? symbol).isSome = true)
    (index : Nat) :
    (of a store).takeOperator registry index symbol =
      ofAnswer store (a.takeOperator registry index symbol) := by
  obtain ⟨o, ho⟩ := Option.isSome_iff_exists.mp listed
  simp only [takeOperator, Assembly.takeOperator, ho]
  change (if a.current.expectsOperand then _ else _) = _
  by_cases expects : a.current.expectsOperand = true
  · rw [if_pos expects, if_pos expects]
    cases o.isUnary <;> rfl
  · rw [if_neg expects, if_neg expects]
    cases o.isUnary <;> rfl

/-- An opening parenthesis is taken alike. -/
theorem take_opening (index : Nat) :
    (of a store).takeOpening index = ofAnswer store (a.takeOpening index) := by
  unfold takeOpening Assembly.takeOpening
  change (match a.pending with | some callee => _ | none => _) = _
  cases a.pending with
  | some callee => rfl
  | none =>
    simp only
    rw [requireOperand_of]
    cases a.requireOperand index <;> rfl

/-- A comma is taken alike. -/
theorem take_comma (index : Nat) :
    (of a store).takeComma index = ofAnswer store (a.takeComma index) := by
  unfold takeComma Assembly.takeComma
  change (match a.current.kind with | .root | .group => _ | .call callee commas => _) = _
  cases a.current.kind with
  | root | group => rfl
  | call callee commas =>
    change (if a.current.expectsOperand then _ else _) = _
    cases a.current.expectsOperand <;> rfl

/-- The end of the text is taken alike. -/
theorem take_finish (index : Nat) :
    (of a store).takeFinish index = ofAnswer store (a.takeFinish index) := by
  unfold takeFinish Assembly.takeFinish
  change (if 1 < a.enclosing.length + 1 then _ else
    if a.current.expectsOperand then _ else _) = _
  cases a.enclosing with
  | nil =>
    by_cases expects : a.current.expectsOperand = true
    · rw [if_pos expects, if_pos expects]
      rfl
    · rw [if_neg expects, if_neg expects]
      rfl
  | cons outer enclosing => rfl

/-- The innermost grouping is left alike if there is one around it. -/
theorem leave_of {outer : Grouping} {enclosing : List Grouping}
    (around : a.enclosing = outer :: enclosing) (index : Nat) (isEmpty : Bool) :
    ∃ b, a.leave index isEmpty = .ok b ∧ (of a store).leave isEmpty = .ok (of b store) := by
  let outside : Assembly := { a with current := outer, enclosing }
  have hgroupings : (of a store).groupings = a.current :: outer :: enclosing := by
    rw [← around]
    rfl
  have houtside : of outside store = { of a store with groupings := outer :: enclosing } := rfl
  simp only [Assembly.leave, around, leave, hgroupings, ← houtside]
  cases a.current.kind with
  | root | group => exact ⟨outside.completeOperand, rfl, completeOperand_of outside store⟩
  | call callee commas =>
    simp only [finishCall_of]
    exact ⟨_, rfl, completeOperand_of _ store⟩

/-- The innermost grouping is closed alike if it is not the whole formula. -/
theorem close_of (rooted : a.enclosing = [] → a.current.kind = .root)
    (inside : a.current.kind ≠ .root) (index : Nat) (isEmpty : Bool) :
    ∃ b, a.release.leave index isEmpty = .ok b ∧ (of a store).close isEmpty = .ok (of b store) := by
  obtain ⟨outer, enclosing, around⟩ := List.exists_cons_of_ne_nil (mt rooted inside)
  obtain ⟨b, hb, hstack⟩ := leave_of a.release store around index isEmpty
  rw [close, release_of]
  exact ⟨b, hb, hstack⟩

/-- A closing parenthesis is taken alike if only the whole formula has nothing around it. -/
theorem take_closing (rooted : a.enclosing = [] → a.current.kind = .root) (index : Nat) :
    (of a store).takeClosing index = ofAnswer store (a.takeClosing index) := by
  have hclose : a.current.kind ≠ .root → ∀ isEmpty,
      (if a.current.expectsOperand && !isEmpty then throw (.refused ⟨index, .missingOperand⟩)
        else (of a store).close isEmpty : Except Stop Stacked) =
      ofAnswer store
        (if a.current.expectsOperand && !isEmpty then .error ⟨index, .missingOperand⟩
        else a.release.leave index isEmpty) := by
    intro inside isEmpty
    obtain ⟨b, hb, hstack⟩ := close_of a store rooted inside index isEmpty
    rw [hb, hstack, apply_ite (ofAnswer store)]
    rfl
  have hinner : (of a store).innermost = .ok a.current := rfl
  have hsize : (of a store).code.size = a.code.size := rfl
  unfold takeClosing Assembly.takeClosing
  rw [hinner, hsize]
  change (match a.current.kind, a.current.isEmpty a.code.size with
    | GroupingKind.root, _ => _ | .group, true => _ | _, _ => _) = _
  cases hkind : a.current.kind with
  | root => rfl
  | group =>
    have inside : a.current.kind ≠ .root := hkind ▸ GroupingKind.noConfusion
    cases a.current.isEmpty a.code.size with
    | true => rfl
    | false => exact hclose inside false
  | call callee commas =>
    have inside : a.current.kind ≠ .root := hkind ▸ GroupingKind.noConfusion
    exact hclose inside _

end Stacked

end GateFormula
