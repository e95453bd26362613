import GateFormula.Compile

/-!
# Taking a token, case by case

What a token does to an assembly depends on whether the name of a function waits for its
argument list, on whether an operand is expected and on the innermost grouping.
`Assembly.Move` lists the ways in which a token is taken and `Assembly.Refusal` those in which
it is refused, each with what has to hold. A token does one of these things
(`take_eq_ok_iff`, `take_eq_error_iff`), so that a property of all steps is shown by cases on
them, without a look at the code that tells them apart.
-/

namespace GateFormula

namespace Assembly

/-- The number of arguments that a closing parenthesis behind `commas` commas ends. -/
def closedCount (a : Assembly) (commas : Nat) : Nat :=
  if a.current.isEmpty a.code.size then 0 else commas + 1

/-- What a token that is taken does, for each way in which it can be taken. -/
inductive Move (registry : Registry) (a : Assembly) : Located → Assembly → Prop where
  /-- A number. -/
  | literal {index value} (free : a.pending = none) (expects : a.current.expectsOperand = true) :
      Move registry a ⟨index, .literal value⟩ (a.emit (.push value)).completeOperand
  /-- A name between sigils that is a constant. -/
  | inlined {index name value} (free : a.pending = none)
      (expects : a.current.expectsOperand = true)
      (known : registry.constant? name = some value) :
      Move registry a ⟨index, .reference name⟩ (a.emit (.push value)).completeOperand
  /-- A name between sigils that is a variable. -/
  | load {index name} (free : a.pending = none) (expects : a.current.expectsOperand = true)
      (unknown : registry.constant? name = none) :
      Move registry a ⟨index, .reference name⟩
        (emit { a with mentioned := a.mentioned.push name } (.load name)).completeOperand
  /-- The bare name of a constant. -/
  | constant {index name value} (free : a.pending = none)
      (expects : a.current.expectsOperand = true)
      (known : registry.constant? name = some value) :
      Move registry a ⟨index, .constant name⟩ (a.emit (.push value)).completeOperand
  /-- A bare name that is no constant. -/
  | unknownConstant {index name} (free : a.pending = none)
      (expects : a.current.expectsOperand = true) (unknown : registry.constant? name = none) :
      Move registry a ⟨index, .constant name⟩
        ((a.report (.unknownConstant name index)).emit (.push 0)).completeOperand
  /-- The name of a function. -/
  | callee {index name function} (free : a.pending = none)
      (expects : a.current.expectsOperand = true)
      (known : registry.function? name = some function) :
      Move registry a ⟨index, .call name⟩
        { a with pending := some ⟨name, index, some function⟩ }
  /-- A name that is called but is no function. -/
  | unknownCallee {index name} (free : a.pending = none)
      (expects : a.current.expectsOperand = true) (unknown : registry.function? name = none) :
      Move registry a ⟨index, .call name⟩
        { a.report (.unknownFunction name index) with pending := some ⟨name, index, none⟩ }
  /-- An operator before its operand. -/
  | unary {index symbol o} (free : a.pending = none) (expects : a.current.expectsOperand = true)
      (known : registry.operator? symbol = some o) (unary : o.isUnary = true) :
      Move registry a ⟨index, .operator symbol⟩
        { a with current := { a.current with unaries := o :: a.current.unaries } }
  /-- An operator between its operands. -/
  | binary {index symbol o} (free : a.pending = none)
      (complete : a.current.expectsOperand = false)
      (known : registry.operator? symbol = some o) (binary : o.isUnary = false) :
      Move registry a ⟨index, .operator symbol⟩
        { a with
          code := a.code ++ callsOf (a.current.binaries.takeWhile (·.rank ≤ o.rank)) 2
          current :=
            { a.current with
              binaries := o :: a.current.binaries.dropWhile (·.rank ≤ o.rank)
              expectsOperand := true } }
  /-- The start of an argument list. -/
  | openCall {index callee} (pending : a.pending = some callee) :
      Move registry a ⟨index, .opening⟩ (a.openGrouping (.call callee 0) index)
  /-- The start of a formula in parentheses. -/
  | openGroup {index} (free : a.pending = none) (expects : a.current.expectsOperand = true) :
      Move registry a ⟨index, .opening⟩ (a.openGrouping .group index)
  /-- The end of an argument that another one follows. -/
  | comma {index callee commas} (free : a.pending = none)
      (kind : a.current.kind = .call callee commas)
      (complete : a.current.expectsOperand = false) :
      Move registry a ⟨index, .comma⟩
        { a.release with
          current :=
            { a.release.current with
              kind := .call callee (commas + 1)
              expectsOperand := true } }
  /-- The end of a formula in parentheses. -/
  | closeGroup {index outer enclosing} (free : a.pending = none) (kind : a.current.kind = .group)
      (complete : a.current.expectsOperand = false)
      (filled : a.current.isEmpty a.code.size = false)
      (around : a.enclosing = outer :: enclosing) :
      Move registry a ⟨index, .closing⟩
        (completeOperand { a.release with current := outer, enclosing })
  /-- The end of an argument list. -/
  | closeCall {index callee commas outer enclosing} (free : a.pending = none)
      (kind : a.current.kind = .call callee commas)
      (complete : a.current.isEmpty a.code.size = true ∨ a.current.expectsOperand = false)
      (around : a.enclosing = outer :: enclosing) :
      Move registry a ⟨index, .closing⟩
        (finishCall { a.release with current := outer, enclosing } callee
          (a.closedCount commas)).completeOperand
  /-- The end of the text. -/
  | finish {index} (free : a.pending = none) (complete : a.current.expectsOperand = false)
      (around : a.enclosing = []) :
      Move registry a ⟨index, .finish⟩ a.release

/-- Why a token is refused, for each way in which it can be refused. -/
inductive Refusal (registry : Registry) (a : Assembly) : Located → SyntaxError → Prop where
  /-- Something else than an argument list follows the name of a function. -/
  | uncalled {index token} (pending : a.pending.isSome = true) (other : token ≠ .opening) :
      Refusal registry a ⟨index, token⟩ ⟨index, .unexpectedOperand⟩
  /-- An operand follows an operand. -/
  | unexpectedOperand {index token} (free : a.pending = none)
      (complete : a.current.expectsOperand = false)
      (operand : token.isWord = true ∨ token = .opening) :
      Refusal registry a ⟨index, token⟩ ⟨index, .unexpectedOperand⟩
  /-- The registry has no such operator. -/
  | unknownOperator {index symbol} (free : a.pending = none)
      (unknown : registry.operator? symbol = none) :
      Refusal registry a ⟨index, .operator symbol⟩ ⟨index, .unknownOperator⟩
  /-- An operator of two operands has no left one. -/
  | noLeftOperand {index symbol o} (free : a.pending = none)
      (expects : a.current.expectsOperand = true)
      (known : registry.operator? symbol = some o) (binary : o.isUnary = false) :
      Refusal registry a ⟨index, .operator symbol⟩ ⟨index, .missingOperand⟩
  /-- An operator of one operand follows an operand. -/
  | misplacedOperator {index symbol o} (free : a.pending = none)
      (complete : a.current.expectsOperand = false)
      (known : registry.operator? symbol = some o) (unary : o.isUnary = true) :
      Refusal registry a ⟨index, .operator symbol⟩ ⟨index, .misplacedOperator⟩
  /-- A comma stands outside of an argument list. -/
  | misplacedComma {index} (free : a.pending = none)
      (outside : ∀ callee commas, a.current.kind ≠ .call callee commas) :
      Refusal registry a ⟨index, .comma⟩ ⟨index, .misplacedComma⟩
  /-- There is no argument before a comma. -/
  | noArgument {index callee commas} (free : a.pending = none)
      (kind : a.current.kind = .call callee commas)
      (expects : a.current.expectsOperand = true) :
      Refusal registry a ⟨index, .comma⟩ ⟨index, .missingOperand⟩
  /-- A parenthesis closes the whole formula. -/
  | unmatchedClose {index} (free : a.pending = none) (kind : a.current.kind = .root) :
      Refusal registry a ⟨index, .closing⟩ ⟨index, .unmatchedClose⟩
  /-- A parenthesis closes a grouping that nothing is around. -/
  | unenclosed {index} (free : a.pending = none) (kind : a.current.kind ≠ .root)
      (nonempty : a.current.kind = .group → a.current.isEmpty a.code.size = false)
      (complete : a.current.isEmpty a.code.size = true ∨ a.current.expectsOperand = false)
      (around : a.enclosing = []) :
      Refusal registry a ⟨index, .closing⟩ ⟨index, .unmatchedClose⟩
  /-- A formula in parentheses is empty. -/
  | emptyGroup {index} (free : a.pending = none) (kind : a.current.kind = .group)
      (empty : a.current.isEmpty a.code.size = true) :
      Refusal registry a ⟨index, .closing⟩ ⟨a.current.index, .emptyGroup⟩
  /-- A formula in parentheses or an argument is not complete. -/
  | incomplete {index} (free : a.pending = none) (kind : a.current.kind ≠ .root)
      (filled : a.current.isEmpty a.code.size = false)
      (expects : a.current.expectsOperand = true) :
      Refusal registry a ⟨index, .closing⟩ ⟨index, .missingOperand⟩
  /-- A parenthesis is open at the end of the text. -/
  | unmatchedOpen {index} (free : a.pending = none) (around : a.enclosing ≠ []) :
      Refusal registry a ⟨index, .finish⟩ ⟨a.current.index, .unmatchedOpen⟩
  /-- There is no formula. -/
  | emptyExpression {index} (free : a.pending = none) (around : a.enclosing = [])
      (expects : a.current.expectsOperand = true)
      (empty : a.current.isEmpty a.code.size = true) :
      Refusal registry a ⟨index, .finish⟩ ⟨index, .emptyExpression⟩
  /-- The formula is not complete. -/
  | unfinished {index} (free : a.pending = none) (around : a.enclosing = [])
      (expects : a.current.expectsOperand = true)
      (filled : a.current.isEmpty a.code.size = false) :
      Refusal registry a ⟨index, .finish⟩ ⟨index, .missingOperand⟩

variable {registry : Registry} {a b : Assembly} {located : Located} {e : SyntaxError}

/-! ### What is done is what is listed -/

/-- Where no name waits for its argument list, a token is looked at by itself. -/
theorem take_of_free (free : a.pending = none) (index : Nat) (token : Token) :
    a.take registry ⟨index, token⟩ =
      match token with
      | .literal value => a.takeLiteral index value
      | .reference name => a.takeReference registry index name
      | .call name => a.takeCall registry index name
      | .constant name => a.takeConstant registry index name
      | .operator symbol => a.takeOperator registry index symbol
      | .opening => a.takeOpening index
      | .comma => a.takeComma index
      | .closing => a.takeClosing index
      | .finish => a.takeFinish index := by
  unfold take
  rw [free]
  rfl

/-- Where an operand is expected one may follow. -/
theorem requireOperand_of_expects (expects : a.current.expectsOperand = true) (index : Nat) :
    a.requireOperand index = .ok () :=
  if_pos expects

/-- Behind an operand none may follow. -/
theorem requireOperand_of_complete (complete : a.current.expectsOperand = false) (index : Nat) :
    a.requireOperand index = .error ⟨index, .unexpectedOperand⟩ :=
  if_neg (by simp [complete])

/-- A token is taken in the ways that are listed. -/
theorem Move.take_eq (h : a.Move registry located b) : a.take registry located = .ok b := by
  cases h with
  | literal free expects =>
    simp only [take_of_free free, takeLiteral, requireOperand_of_expects expects]
    rfl
  | inlined free expects known =>
    simp only [take_of_free free, takeReference, requireOperand_of_expects expects, known]
    rfl
  | load free expects unknown =>
    simp only [take_of_free free, takeReference, requireOperand_of_expects expects, unknown]
    rfl
  | constant free expects known =>
    simp only [take_of_free free, takeConstant, requireOperand_of_expects expects, known]
    rfl
  | unknownConstant free expects unknown =>
    simp only [take_of_free free, takeConstant, requireOperand_of_expects expects, unknown]
    rfl
  | callee free expects known =>
    simp only [take_of_free free, takeCall, requireOperand_of_expects expects, known]
    rfl
  | unknownCallee free expects unknown =>
    simp only [take_of_free free, takeCall, requireOperand_of_expects expects, unknown]
    rfl
  | unary free expects known unary =>
    simp only [take_of_free free, takeOperator, known, expects, unary, if_true]
  | binary free complete known binary =>
    simp only [take_of_free free, takeOperator, known, complete, binary, Bool.false_eq_true,
      if_false]
  | openCall pending =>
    simp only [take, takeOpening, pending]
    rfl
  | openGroup free expects =>
    simp only [take_of_free free, takeOpening, free, requireOperand_of_expects expects]
    rfl
  | comma free kind complete =>
    simp only [take_of_free free, takeComma, kind, complete, Bool.false_eq_true, if_false]
  | closeGroup free kind complete filled around =>
    simp only [take_of_free free, takeClosing, leave, release, kind, complete, filled, around]
    rfl
  | closeCall free kind complete around =>
    have hcomplete : (a.current.expectsOperand && !a.current.isEmpty a.code.size) = false := by
      rcases complete with hempty | hcomplete
      · rw [hempty, Bool.not_true, Bool.and_false]
      · rw [hcomplete, Bool.false_and]
    simp only [take_of_free free, takeClosing, leave, release, kind, hcomplete, around]
    rfl
  | finish free complete around =>
    simp only [take_of_free free, takeFinish, around, complete]
    rfl

/-- A token is refused in the ways that are listed. -/
theorem Refusal.take_eq (h : a.Refusal registry located e) :
    a.take registry located = .error e := by
  cases h with
  | uncalled pending other =>
    simp only [take, pending, other, ne_eq, not_false_eq_true, decide_true, Bool.and_self, if_true]
  | @unexpectedOperand index token free complete operand =>
    rw [take_of_free free]
    cases token with
    | literal value => simp only [takeLiteral, requireOperand_of_complete complete]; rfl
    | reference name => simp only [takeReference, requireOperand_of_complete complete]; rfl
    | call name => simp only [takeCall, requireOperand_of_complete complete]; rfl
    | constant name => simp only [takeConstant, requireOperand_of_complete complete]; rfl
    | opening => simp only [takeOpening, free, requireOperand_of_complete complete]; rfl
    | operator | closing | comma | finish => simp [Token.isWord] at operand
  | unknownOperator free unknown => simp only [take_of_free free, takeOperator, unknown]
  | noLeftOperand free expects known binary =>
    simp only [take_of_free free, takeOperator, known, expects, binary, if_true,
      Bool.false_eq_true, if_false]
  | misplacedOperator free complete known unary =>
    simp only [take_of_free free, takeOperator, known, complete, unary, if_true,
      Bool.false_eq_true, if_false]
  | misplacedComma free outside =>
    simp only [take_of_free free, takeComma]
    cases hk : a.current.kind with
    | root | group => rfl
    | call callee commas => exact absurd hk (outside callee commas)
  | noArgument free kind expects =>
    simp only [take_of_free free, takeComma, kind, expects, if_true]
  | unmatchedClose free kind => simp only [take_of_free free, takeClosing, kind]
  | unenclosed free kind nonempty complete around =>
    have hcomplete : (a.current.expectsOperand && !a.current.isEmpty a.code.size) = false := by
      rcases complete with hempty | hcomplete
      · rw [hempty, Bool.not_true, Bool.and_false]
      · rw [hcomplete, Bool.false_and]
    simp only [take_of_free free, takeClosing, leave, release, around, hcomplete]
    cases hk : a.current.kind with
    | root => exact absurd hk kind
    | group => rw [nonempty hk]; rfl
    | call callee commas => rfl
  | emptyGroup free kind empty => simp only [take_of_free free, takeClosing, kind, empty]
  | incomplete free kind filled expects =>
    simp only [take_of_free free, takeClosing, filled, expects]
    cases hk : a.current.kind with
    | root => exact absurd hk kind
    | group | call => rfl
  | unmatchedOpen free around =>
    have hopen : a.enclosing.isEmpty = false := by simpa using around
    simp only [take_of_free free, takeFinish, hopen, Bool.not_false, if_true]
  | emptyExpression free around expects empty =>
    simp only [take_of_free free, takeFinish, around, expects, empty]
    rfl
  | unfinished free around expects filled =>
    simp only [take_of_free free, takeFinish, around, expects, filled]
    rfl

/-- A closing parenthesis is taken or refused in one of the ways that are listed. -/
theorem move_or_refusal_closing (registry : Registry) (free : a.pending = none) (index : Nat) :
    (∃ b, a.Move registry ⟨index, .closing⟩ b) ∨ ∃ e, a.Refusal registry ⟨index, .closing⟩ e := by
  cases kind : a.current.kind with
  | root => exact .inr ⟨_, .unmatchedClose free kind⟩
  | group =>
    have inside : a.current.kind ≠ .root := by simp [kind]
    cases empty : a.current.isEmpty a.code.size with
    | true => exact .inr ⟨_, .emptyGroup free kind empty⟩
    | false =>
      cases expects : a.current.expectsOperand with
      | true => exact .inr ⟨_, .incomplete free inside empty expects⟩
      | false =>
        cases around : a.enclosing with
        | nil => exact .inr ⟨_, .unenclosed free inside (fun _ => empty) (.inr expects) around⟩
        | cons outer enclosing => exact .inl ⟨_, .closeGroup free kind expects empty around⟩
  | call callee commas =>
    have inside : a.current.kind ≠ .root := by simp [kind]
    by_cases complete : a.current.isEmpty a.code.size = true ∨ a.current.expectsOperand = false
    · cases around : a.enclosing with
      | nil => exact .inr ⟨_, .unenclosed free inside (by simp [kind]) complete around⟩
      | cons outer enclosing => exact .inl ⟨_, .closeCall free kind complete around⟩
    · obtain ⟨filled, expects⟩ := not_or.mp complete
      exact .inr ⟨_, .incomplete free inside (eq_false_of_ne_true filled)
        (eq_true_of_ne_false expects)⟩

/-- Where an operand is expected, a token is taken or refused in one of the ways that are
listed. -/
theorem move_or_refusal_of_expects (registry : Registry) (free : a.pending = none)
    (expects : a.current.expectsOperand = true) (located : Located) :
    (∃ b, a.Move registry located b) ∨ ∃ e, a.Refusal registry located e := by
  obtain ⟨index, token⟩ := located
  cases token with
  | literal value => exact .inl ⟨_, .literal free expects⟩
  | reference name =>
    cases known : registry.constant? name with
    | some value => exact .inl ⟨_, .inlined free expects known⟩
    | none => exact .inl ⟨_, .load free expects known⟩
  | constant name =>
    cases known : registry.constant? name with
    | some value => exact .inl ⟨_, .constant free expects known⟩
    | none => exact .inl ⟨_, .unknownConstant free expects known⟩
  | call name =>
    cases known : registry.function? name with
    | some function => exact .inl ⟨_, .callee free expects known⟩
    | none => exact .inl ⟨_, .unknownCallee free expects known⟩
  | operator symbol =>
    cases known : registry.operator? symbol with
    | none => exact .inr ⟨_, .unknownOperator free known⟩
    | some o =>
      cases unary : o.isUnary with
      | true => exact .inl ⟨_, .unary free expects known unary⟩
      | false => exact .inr ⟨_, .noLeftOperand free expects known unary⟩
  | opening => exact .inl ⟨_, .openGroup free expects⟩
  | comma =>
    cases kind : a.current.kind with
    | root | group => exact .inr ⟨_, .misplacedComma free (by simp [kind])⟩
    | call callee commas => exact .inr ⟨_, .noArgument free kind expects⟩
  | closing => exact move_or_refusal_closing registry free index
  | finish =>
    by_cases around : a.enclosing = []
    · cases empty : a.current.isEmpty a.code.size with
      | true => exact .inr ⟨_, .emptyExpression free around expects empty⟩
      | false => exact .inr ⟨_, .unfinished free around expects empty⟩
    · exact .inr ⟨_, .unmatchedOpen free around⟩

/-- Behind an operand, a token is taken or refused in one of the ways that are listed. -/
theorem move_or_refusal_of_complete (registry : Registry) (free : a.pending = none)
    (complete : a.current.expectsOperand = false) (located : Located) :
    (∃ b, a.Move registry located b) ∨ ∃ e, a.Refusal registry located e := by
  obtain ⟨index, token⟩ := located
  cases token with
  | literal | reference | constant | call =>
    exact .inr ⟨_, .unexpectedOperand free complete (.inl rfl)⟩
  | opening => exact .inr ⟨_, .unexpectedOperand free complete (.inr rfl)⟩
  | operator symbol =>
    cases known : registry.operator? symbol with
    | none => exact .inr ⟨_, .unknownOperator free known⟩
    | some o =>
      cases unary : o.isUnary with
      | true => exact .inr ⟨_, .misplacedOperator free complete known unary⟩
      | false => exact .inl ⟨_, .binary free complete known unary⟩
  | comma =>
    cases kind : a.current.kind with
    | root | group => exact .inr ⟨_, .misplacedComma free (by simp [kind])⟩
    | call callee commas => exact .inl ⟨_, .comma free kind complete⟩
  | closing => exact move_or_refusal_closing registry free index
  | finish =>
    by_cases around : a.enclosing = []
    · exact .inl ⟨_, .finish free complete around⟩
    · exact .inr ⟨_, .unmatchedOpen free around⟩

/-- Every token is taken or refused in one of the ways that are listed. -/
theorem move_or_refusal (registry : Registry) (a : Assembly) (located : Located) :
    (∃ b, a.Move registry located b) ∨ ∃ e, a.Refusal registry located e := by
  cases free : a.pending with
  | none =>
    cases expects : a.current.expectsOperand with
    | true => exact move_or_refusal_of_expects registry free expects located
    | false => exact move_or_refusal_of_complete registry free expects located
  | some callee =>
    obtain ⟨index, token⟩ := located
    by_cases htoken : token = .opening
    · subst htoken
      exact .inl ⟨_, .openCall free⟩
    · exact .inr ⟨_, .uncalled (by rw [free]; rfl) htoken⟩

/-- A token is taken exactly in the ways that are listed. -/
theorem take_eq_ok_iff : a.take registry located = .ok b ↔ a.Move registry located b := by
  refine ⟨fun h => ?_, Move.take_eq⟩
  rcases move_or_refusal registry a located with ⟨c, hc⟩ | ⟨e, he⟩
  · cases hc.take_eq.symm.trans h
    exact hc
  · cases he.take_eq.symm.trans h

/-- A token is refused exactly in the ways that are listed. -/
theorem take_eq_error_iff :
    a.take registry located = .error e ↔ a.Refusal registry located e := by
  refine ⟨fun h => ?_, Refusal.take_eq⟩
  rcases move_or_refusal registry a located with ⟨b, hb⟩ | ⟨f, hf⟩
  · cases hb.take_eq.symm.trans h
  · cases hf.take_eq.symm.trans h
    exact hf

/-- A token leads where an equal state is. -/
theorem Move.of_eq {c : Assembly} (h : a.Move registry located c) (hc : b = c) :
    a.Move registry located b :=
  hc ▸ h

/-- Finishing a call adds code or a problem, and nothing else. -/
theorem finishCall_frame (a : Assembly) (callee : PendingCall) (count : Nat) :
    ∃ code problems, a.finishCall callee count = { a with code, problems } := by
  unfold finishCall
  split
  · exact ⟨_, _, rfl⟩
  · split <;> exact ⟨_, _, rfl⟩

/-- It leaves the function alone whose argument list comes next. -/
theorem pending_finishCall (a : Assembly) (callee : PendingCall) (count : Nat) :
    (a.finishCall callee count).pending = a.pending := by
  obtain ⟨code, problems, hfinish⟩ := finishCall_frame a callee count
  rw [hfinish]

end Assembly

end GateFormula
