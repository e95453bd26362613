import GateFormula.Proofs.GroupingStack

/-!
# Nothing breaks

Two parties rely on each other while a text is compiled. The scanner takes a word for the name of
a function only if a parenthesis opens behind it, however many blanks lie between, and it answers
no symbol but one of the registry. The assembly never leaves the whole formula, which therefore
stays the outermost grouping. `compile_unbroken` puts this together: with all groupings on a stack
and with every promise checked, no text comes to a breach, and the answer is the same.
-/

namespace GateFormula

variable {registry : Registry}

/-! ### What the scanner promises -/

/-- A parenthesis that opens behind blanks is the next token. -/
theorem next_of_opensCall {cursor : Cursor} (opens : Lexeme.opensCall cursor.rest = true)
    (expectOperand : Bool) :
    ∃ index after, cursor.next registry expectOperand = (.ok ⟨index, .opening⟩, after) := by
  have hhead : (cursor.rest.dropWhile Text.isBlank).head? = some '(' := of_decide_eq_true opens
  obtain ⟨cs, hfront⟩ := List.head?_eq_some_iff.mp hhead
  have hread : Lexeme.read registry expectOperand '(' cs = .ok ⟨['('], .opening, cs⟩ := rfl
  exact ⟨_, _, Cursor.steps_iff.mp (.token hfront hread rfl)⟩

/-- Behind a bare word that is the name of a function a parenthesis opens. -/
theorem opensCall_of_ofWord {c : Char} {cs : List Char} {name : String}
    (h : (Lexeme.ofWord registry c cs).token = .call name) :
    Lexeme.opensCall (Lexeme.ofWord registry c cs).rest = true := by
  have hnamed : ∀ word rest : List Char,
      (if Lexeme.opensCall rest then Token.call (.ofList word) else .constant (.ofList word)) =
        .call name → Lexeme.opensCall rest = true := by
    intro word rest hcall
    split at hcall
    next hopens => exact hopens
    · cases hcall
  simp only [Lexeme.ofWord, Lexeme.wordToken] at h ⊢
  split at h
  · split at h
    · split at h
      · cases h
      · exact hnamed _ _ h
    · exact hnamed _ _ h
  · exact hnamed _ _ h

/-- Behind the name of a function a parenthesis opens. -/
theorem opensCall_of_read {expectOperand : Bool} {c : Char} {cs : List Char} {lexeme : Lexeme}
    {name : String} (h : Lexeme.read registry expectOperand c cs = .ok lexeme)
    (ht : lexeme.token = .call name) : Lexeme.opensCall lexeme.rest = true := by
  rcases Lexeme.read_cases registry expectOperand c cs with
    ⟨token, htoken, hr⟩ | ⟨_, hr⟩ | ⟨_, hr⟩ | hr
  · cases hr.symm.trans h
    rcases htoken with rfl | rfl | rfl <;> cases ht
  · have hsymbol : Lexeme.ofSymbol cs = .ok lexeme := hr.symm.trans h
    unfold Lexeme.ofSymbol at hsymbol
    split at hsymbol
    · cases hsymbol
    next body rest hbody =>
      simp only at hsymbol
      split at hsymbol
      · cases hsymbol
      · cases hsymbol
        simp only at ht
        split at ht
        next hopens => exact hopens
        · cases ht
  · obtain ⟨symbol, hsymbol⟩ := Lexeme.ofOperator_token (hr.symm.trans h)
    cases hsymbol.symm.trans ht
  · cases hr.symm.trans h
    exact opensCall_of_ofWord ht

/-- A symbol that is read is one of the registry. -/
theorem registered_of_read {expectOperand : Bool} {c : Char} {cs : List Char} {lexeme : Lexeme}
    {symbol : String} (h : Lexeme.read registry expectOperand c cs = .ok lexeme)
    (ht : lexeme.token = .operator symbol) : (registry.operator? symbol).isSome = true := by
  rcases Lexeme.read_cases registry expectOperand c cs with
    ⟨token, htoken, hr⟩ | ⟨rfl, _⟩ | ⟨_, hr⟩ | hr
  · cases hr.symm.trans h
    rcases htoken with rfl | rfl | rfl <;> cases ht
  · obtain ⟨body, rest, _, htoken⟩ := read_sigil h
    rw [htoken] at ht
    split at ht <;> cases ht
  · have hoperator : Lexeme.ofOperator registry (c :: cs) = .ok lexeme := hr.symm.trans h
    unfold Lexeme.ofOperator at hoperator
    split at hoperator
    · cases hoperator
    next found rest hfound =>
      cases hoperator
      cases ht
      exact (leadsFarthest_of_longestOperator hfound).1.registered
  · cases hr.symm.trans h
    rcases Lexeme.ofWord_cases registry c cs with ⟨_, hw⟩ | ⟨_, hw⟩ | ⟨_, hw⟩ <;>
      cases hw.symm.trans ht

/-- What the scanner promises of a token, and of the text behind it. -/
structure Located.Promised (registry : Registry) (located : Located) (after : Cursor) : Prop where
  /-- A parenthesis opens behind the name of a function. -/
  opens : ∀ name, located.token = .call name → Lexeme.opensCall after.rest = true
  /-- A symbol is one of the registry. -/
  registered : ∀ symbol, located.token = .operator symbol →
    (registry.operator? symbol).isSome = true

/-- The scanner keeps its promises. -/
theorem promised_of_next {expectOperand : Bool} {cursor after : Cursor} {located : Located}
    (h : cursor.next registry expectOperand = (.ok located, after)) :
    located.Promised registry after := by
  cases Cursor.steps_iff.mpr h with
  | finish blank => exact ⟨fun _ => Token.noConfusion, fun _ => Token.noConfusion⟩
  | token front read apart =>
    exact ⟨fun _ => opensCall_of_read read, fun _ => registered_of_read read⟩

/-! ### The outermost grouping -/

/-- There is a grouping, and of all groupings just the outermost one is the whole formula. -/
def RootOutermost : List Grouping → Prop
  | [] => False
  | [g] => g.kind = .root
  | g :: outer :: enclosing => g.kind ≠ .root ∧ RootOutermost (outer :: enclosing)

/-- What is outermost does not depend on what waits in the innermost grouping. -/
theorem rooted_congr {g other : Grouping} {enclosing : List Grouping}
    (h : RootOutermost (g :: enclosing)) (same : other.kind = .root ↔ g.kind = .root) :
    RootOutermost (other :: enclosing) := by
  cases enclosing with
  | nil => exact same.mpr h
  | cons outer enclosing => exact ⟨mt same.mp h.1, h.2⟩

/-- A grouping with nothing around it is the whole formula. -/
theorem root_of_rooted {g : Grouping} {enclosing : List Grouping}
    (h : RootOutermost (g :: enclosing)) (alone : enclosing = []) : g.kind = .root := by
  rw [alone] at h
  exact h

/-- Taking a token keeps the whole formula outermost. -/
theorem Assembly.Move.rooted {a b : Assembly} {located : Located} (h : a.Move registry located b)
    (ha : RootOutermost (a.current :: a.enclosing)) : RootOutermost (b.current :: b.enclosing) := by
  cases h with
  | literal | inlined | load | constant | unknownConstant | unary | binary | finish =>
    exact rooted_congr ha Iff.rfl
  | callee | unknownCallee => exact ha
  | openCall | openGroup => exact ⟨GroupingKind.noConfusion, ha⟩
  | comma free kind complete =>
    refine rooted_congr ha ⟨GroupingKind.noConfusion, fun hroot => ?_⟩
    cases kind.symm.trans hroot
  | closeGroup free kind complete filled around =>
    rw [around] at ha
    exact rooted_congr ha.2 Iff.rfl
  | @closeCall index callee commas outer enclosing free kind complete around =>
    rw [around] at ha
    obtain ⟨code, problems, hfinish⟩ := finishCall_frame
      { a.release with current := outer, enclosing } callee (a.closedCount commas)
    rw [hfinish]
    exact rooted_congr ha.2 Iff.rfl

/-- Only behind the name of a function an argument list comes next. -/
theorem Assembly.Move.free_or_call {a b : Assembly} {located : Located}
    (h : a.Move registry located b) :
    b.pending = none ∨ ∃ name, located.token = .call name := by
  cases h with
  | literal free | inlined free | load free | constant free | unknownConstant free
  | unary free | binary free | comma free | closeGroup free | finish free => exact .inl free
  | callee | unknownCallee => exact .inr ⟨_, rfl⟩
  | openCall | openGroup => exact .inl rfl
  | closeCall free => exact .inl ((pending_finishCall _ _ _).trans free)

/-- What is true between two tokens, of the assembly and of the text that remains. -/
structure Assembly.Ready (cursor : Cursor) (a : Assembly) : Prop where
  /-- The whole formula is the outermost grouping. -/
  rooted : RootOutermost (a.current :: a.enclosing)
  /-- If an argument list comes next, the parenthesis that opens it does. -/
  opens : a.pending.isSome = true → Lexeme.opensCall cursor.rest = true

/-- At the start of a text there is the whole formula only. -/
theorem ready_start (source : String) : Assembly.initial.Ready (.start source) :=
  ⟨rfl, nofun⟩

/-- Where an argument list comes next, the next token is the parenthesis that opens it. -/
theorem Assembly.Ready.awaited {cursor after : Cursor} {a : Assembly} {located : Located}
    {expectOperand : Bool} (ha : a.Ready cursor)
    (h : cursor.next registry expectOperand = (.ok located, after))
    (pending : a.pending.isSome = true) : located.token = .opening := by
  have hnext : ∃ index behind, cursor.next registry expectOperand =
      (.ok ⟨index, .opening⟩, behind) :=
    next_of_opensCall (ha.opens pending) expectOperand
  obtain ⟨index, behind, hopening⟩ := hnext
  cases h.symm.trans hopening
  rfl

/-- The same is true behind a token that is taken. -/
theorem Assembly.Ready.next {cursor after : Cursor} {a b : Assembly} {located : Located}
    {expectOperand : Bool} (ha : a.Ready cursor)
    (h : cursor.next registry expectOperand = (.ok located, after))
    (hb : a.take registry located = .ok b) : b.Ready after := by
  have hmove : a.Move registry located b := take_eq_ok_iff.mp hb
  refine ⟨hmove.rooted ha.rooted, fun pending => ?_⟩
  rcases hmove.free_or_call with free | ⟨name, hname⟩
  · rw [free] at pending
    cases pending
  · exact (promised_of_next h).opens name hname

namespace Stacked

variable (a : Assembly) (store : Store)

/-! ### One token -/

/-- A token that keeps the promises of the scanner is taken alike on a stack. -/
theorem take_of {located : Located} (rooted : RootOutermost (a.current :: a.enclosing))
    (awaited : a.pending.isSome = true → located.token = .opening)
    (registered : ∀ symbol, located.token = .operator symbol →
      (registry.operator? symbol).isSome = true) :
    (of a store).take registry located = ofAnswer store (a.take registry located) := by
  have hawaited : ¬(a.pending.isSome && located.token ≠ .opening) = true := by
    intro h
    obtain ⟨hpending, htoken⟩ := (Bool.and_eq_true _ _).mp h
    exact of_decide_eq_true htoken (awaited hpending)
  rw [take, Assembly.take, if_neg hawaited]
  change (if a.pending.isSome && located.token ≠ .opening then _ else _) = _
  rw [if_neg hawaited]
  cases htoken : located.token with
  | literal value => exact take_literal a store located.index value
  | reference name => exact take_reference a store located.index name
  | constant name => exact take_constant a store located.index name
  | call name => exact take_call a store located.index name
  | operator symbol => exact take_operator a store (registered symbol htoken) located.index
  | opening => exact take_opening a store located.index
  | comma => exact take_comma a store located.index
  | closing => exact take_closing a store (root_of_rooted rooted) located.index
  | finish => exact take_finish a store located.index

/-- The next token of a text is taken alike on a stack. -/
theorem take_next {cursor after : Cursor} {a : Assembly} {located : Located}
    {expectOperand : Bool} (ready : a.Ready cursor)
    (h : cursor.next registry expectOperand = (.ok located, after)) :
    (of a store).take registry located = ofAnswer store (a.take registry located) :=
  take_of a store ready.rooted (ready.awaited h) (promised_of_next h).registered

/-- Whether an operand is expected is the same on a stack. -/
theorem expectsOperand_of : (of a store).expectsOperand = .ok a.expectsOperand := by
  unfold expectsOperand Assembly.expectsOperand
  change (if a.pending.isSome then .ok true else Except.ok a.current.expectsOperand) = _
  cases a.pending <;> rfl

/-! ### All tokens -/

/-- Running on a stack, one step at a time. -/
theorem run_next (cursor : Cursor) (s : Stacked) :
    run registry cursor s =
      match s.expectsOperand with
      | .error breach => .error breach
      | .ok expectOperand =>
        match cursor.next registry expectOperand with
        | (.error error, _) => .ok (s, some error)
        | (.ok located, after) =>
          match s.take registry located with
          | .error (.broken breach) => .error breach
          | .error (.refused error) => .ok (s, some error)
          | .ok t =>
            if located.token = .finish then .ok (t, none) else run registry after t := by
  rw [run]
  cases s.expectsOperand with
  | error breach => rfl
  | ok expectOperand =>
    simp only
    split
    next h => rw [h]
    next located after h =>
      simp only [h]
      rcases s.take registry located with ⟨error | breach⟩ | t
      · rfl
      · rfl
      · exact dite_eq_ite

/-- A run of an assembly is the same on a stack and comes to no breach. -/
theorem run_of {cursor : Cursor} {a : Assembly} (ready : a.Ready cursor) :
    run registry cursor (of a store) =
      .ok (of (Assembly.run registry cursor a).1 store, (Assembly.run registry cursor a).2) := by
  generalize he : a.expectsOperand = expectOperand
  induction expectOperand, cursor using scan_induction registry generalizing a with
  | error expectOperand cursor e after hs =>
    rw [run_next, expectsOperand_of, Assembly.run_next, he]
    simp only [hs]
  | finish expectOperand cursor located after hs ht =>
    rw [run_next, expectsOperand_of, Assembly.run_next, he]
    simp only [hs, take_next store ready hs, ht, if_true]
    cases a.take registry located <;> rfl
  | token expectOperand cursor located after hs ht ih =>
    rw [run_next, expectsOperand_of, Assembly.run_next, he]
    simp only [hs, take_next store ready hs, ht, if_false]
    cases hb : a.take registry located with
    | error e => rfl
    | ok b => exact ih (ready.next hs hb) (Assembly.expectsOperand_of_take hb)

/-- Where a run on a stack comes to between two tokens of a text. -/
inductive Reached (registry : Registry) (store : Store) (source : String) :
    Cursor → Stacked → Prop where
  /-- The start of the text. -/
  | start : Reached registry store source (.start source) (.initial store)
  /-- Behind a token that is taken and is not the end of the text. -/
  | step {cursor s expectOperand located after t} (before : Reached registry store source cursor s)
      (expects : s.expectsOperand = .ok expectOperand)
      (scanned : cursor.next registry expectOperand = (.ok located, after))
      (taken : s.take registry located = .ok t) (unfinished : located.token ≠ .finish) :
      Reached registry store source after t

/-- Wherever a run comes to, the stack is that of an assembly, whose run comes through there. -/
theorem Reached.exists_of {store : Store} {source : String} {cursor : Cursor} {s : Stacked}
    (h : Reached registry store source cursor s) :
    ∃ a, s = of a store ∧ a.Ready cursor ∧
      Assembly.run registry cursor a = Assembly.run registry (.start source) .initial := by
  induction h with
  | start => exact ⟨.initial, rfl, ready_start source, rfl⟩
  | @step cursor s expectOperand located after t before expects scanned taken unfinished ih =>
    obtain ⟨a, rfl, ready, hrun⟩ := ih
    have hexpects : a.expectsOperand = expectOperand :=
      Except.ok.inj ((expectsOperand_of a store).symm.trans expects)
    rw [take_next store ready scanned] at taken
    cases hb : a.take registry located with
    | error e =>
      rw [hb] at taken
      cases taken
    | ok b =>
      rw [hb] at taken
      cases taken
      have hgoesOn : Assembly.run registry cursor a = Assembly.run registry after b := by
        rw [Assembly.run_next, hexpects, scanned]
        simp only [hb, unfinished, if_false]
      exact ⟨b, rfl, ready.next scanned hb, hgoesOn.symm.trans hrun⟩

end Stacked

/-- With all groupings on a stack, which may turn out to be empty, and with every promise of the
scanner checked, compiling a text comes to no breach, and it yields what `compileIn` yields.
Between any two tokens the stack is that of the assembly, and the whole formula is the outermost
grouping. If an argument list comes next, scanning yields the parenthesis that opens it. Whatever
token scanning yields, behind the name of a function it yields such a parenthesis, a symbol is one
of the registry, and the token is taken or the text is malformed. -/
theorem compile_unbroken (registry : Registry) (store : Store) (source : String) :
    Stacked.compile registry store source = .ok (compileIn registry store source) ∧
    ∀ cursor s, Stacked.Reached registry store source cursor s →
      (∃ a, s = .of a store ∧
        Assembly.run registry cursor a = Assembly.run registry (.start source) .initial) ∧
      RootOutermost s.groupings ∧
      (s.pending.isSome = true →
        ∃ index after, cursor.next registry true = (.ok ⟨index, .opening⟩, after)) ∧
      ∃ expectOperand, s.expectsOperand = .ok expectOperand ∧
        ∀ located after, cursor.next registry expectOperand = (.ok located, after) →
          (∀ name, located.token = .call name →
            ∃ index further, after.next registry true = (.ok ⟨index, .opening⟩, further)) ∧
          (∀ symbol, located.token = .operator symbol →
            (registry.operator? symbol).isSome = true) ∧
          ∀ breach, s.take registry located ≠ .error (.broken breach) := by
  constructor
  · have hrun : Stacked.run registry (.start source) (.initial store) = _ :=
      Stacked.run_of store (ready_start source)
    rw [Stacked.compile, hrun]
    rfl
  · intro cursor s h
    obtain ⟨a, rfl, ready, hrun⟩ := h.exists_of
    refine ⟨⟨a, rfl, hrun⟩, ready.rooted,
      fun pending => next_of_opensCall (ready.opens pending) true,
      a.expectsOperand, Stacked.expectsOperand_of a store, fun located after hs => ?_⟩
    have hpromised : located.Promised registry after := promised_of_next hs
    refine ⟨fun name hname => next_of_opensCall (hpromised.opens name hname) true,
      hpromised.registered, fun breach => ?_⟩
    rw [Stacked.take_next store ready hs]
    cases a.take registry located <;> exact nofun

/-- An operator, the name of a function and behind blanks the argument list. -/
theorem compile_unbroken_blanks :
    ∃ s, Stacked.Reached .builtin .empty "!max  ($x$)" ⟨4, "  ($x$)".toList⟩ s ∧
      s.pending.isSome = true ∧ RootOutermost s.groupings ∧
      (∃ index after, (⟨4, "  ($x$)".toList⟩ : Cursor).next .builtin true =
        (.ok ⟨index, .opening⟩, after)) ∧
      (Registry.builtin.operator? "!").isSome = true ∧
      Stacked.compile .builtin .empty "!max  ($x$)" =
        .ok (compileIn .builtin .empty "!max  ($x$)") := by
  obtain ⟨hcompile, hreached⟩ := compile_unbroken .builtin .empty "!max  ($x$)"
  have hoperator : (Cursor.start "!max  ($x$)").next .builtin true =
      (.ok ⟨0, .operator "!"⟩, ⟨1, "max  ($x$)".toList⟩) := by
    decide +kernel
  have hcall : (⟨1, "max  ($x$)".toList⟩ : Cursor).next .builtin true =
      (.ok ⟨1, .call "max"⟩, ⟨4, "  ($x$)".toList⟩) := by
    decide +kernel
  have hunary : (Registry.builtin.operator? "!").any (·.isUnary) = true := by decide +kernel
  obtain ⟨o, ho, hu⟩ := (Option.any_eq_true _ _).mp hunary
  let s : Stacked :=
    { Stacked.initial .empty with
      groupings := [{ kind := .root, index := 0, start := 0, unaries := [o] }] }
  have htakeOperator : (Stacked.initial .empty).take .builtin ⟨0, .operator "!"⟩ = .ok s := by
    change (Stacked.initial .empty).takeOperator .builtin 0 "!" = .ok s
    rw [Stacked.takeOperator, ho]
    change (if o.isUnary then _ else _) = _
    rw [if_pos hu]
    rfl
  have hfirst : Stacked.Reached .builtin .empty "!max  ($x$)" ⟨1, "max  ($x$)".toList⟩ s :=
    .step .start rfl hoperator htakeOperator Token.noConfusion
  have hsecond : Stacked.Reached .builtin .empty "!max  ($x$)" ⟨4, "  ($x$)".toList⟩
      (s.takeCall .builtin 1 "max") :=
    .step hfirst rfl hcall rfl Token.noConfusion
  have hpending : (s.takeCall .builtin 1 "max").pending.isSome = true := by
    unfold Stacked.takeCall
    cases Registry.builtin.function? "max" <;> rfl
  obtain ⟨-, -, -, expects, hexpects, hstart⟩ := hreached _ _ .start
  cases hexpects
  have hregistered := (hstart _ _ hoperator).2.1 "!" rfl
  obtain ⟨-, hrooted, hopening, -⟩ := hreached _ _ hsecond
  exact ⟨_, hsecond, hpending, hrooted, hopening hpending, hregistered, hcompile⟩

end GateFormula
