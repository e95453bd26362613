import GateFormula.Machine
import GateFormula.Proofs.SameOperators
import GateFormula.Proofs.Stores

/-!
# Constants in the place of variables

A name between sigils is a variable unless the registry has a constant of that name. Adding such
a constant puts its value into the code wherever the variable was loaded, and changes nothing
else: `take_inline` says so of a single token, whatever stands around it, and `compile_inline` of
whole texts. A function of the same name is not affected, since its calls are looked up among the
functions only.
-/

namespace GateFormula

/-! ### Code with a value in the place of a variable -/

/-- An instruction with a value in the place of a variable. -/
def Instruction.inline (name : String) (value : Float) : Instruction → Instruction
  | .load other => if other = name then .push value else .load other
  | .push number => .push number
  | .call function count => .call function count

/-- A program with a value in the place of a variable. -/
def Program.inline (name : String) (value : Float) (p : Program) : Program where
  source := p.source
  code := p.code.map (Instruction.inline name value)

variable {name : String} {value : Float}

/-- An instruction does the same with the value that the variable holds. -/
theorem step_inline {store : Store} (h : store.get? name = some value) (stack : List Float)
    (instruction : Instruction) :
    Machine.step store stack (instruction.inline name value) =
      Machine.step store stack instruction := by
  cases instruction with
  | push number => rfl
  | call function count => rfl
  | load other =>
    by_cases heq : other = name
    · rw [heq, Instruction.inline, if_pos rfl, Machine.step, Machine.step, h]
    · rw [Instruction.inline, if_neg heq]

/-- Code runs to the same end with the value that the variable holds. -/
theorem run_inline {store : Store} (h : store.get? name = some value) (stack : List Float)
    (code : List Instruction) :
    Machine.run store stack (code.map (Instruction.inline name value)) =
      Machine.run store stack code := by
  induction code generalizing stack with
  | nil => rfl
  | cons instruction code ih =>
    rw [List.map_cons, Machine.run, Machine.run, step_inline h]
    cases Machine.step store stack instruction with
    | error fault => rfl
    | ok further => exact ih further

/-- A program has the same value or the same fault with the value that the variable holds. -/
theorem evaluate_inline {store : Store} (h : store.get? name = some value) (program : Program) :
    (program.inline name value).evaluate store = program.evaluate store := by
  have hrun : Machine.run store [] (program.inline name value).code =
      Machine.run store [] program.code :=
    run_inline h [] program.code
  rw [Program.evaluate, Program.evaluate, hrun]

/-! ### Assembling -/

/-- An assembly with a value in the place of a variable, which is not mentioned then. -/
def Assembly.inline (name : String) (value : Float) (a : Assembly) : Assembly :=
  { a with
    code := a.code.map (Instruction.inline name value)
    mentioned := a.mentioned.filter (· ≠ name) }

namespace Assembly

variable {registry : Registry} {a b : Assembly} {located : Located} {e : SyntaxError}

/-- What is written is written with the value. -/
theorem emit_inline (a : Assembly) (instruction : Instruction) :
    (a.emit instruction).inline name value =
      (a.inline name value).emit (instruction.inline name value) := by
  simp only [emit, inline, Array.map_push]

/-- Operators that are called stay. -/
theorem append_callsOf_inline (code : Array Instruction) (operators : List Operator)
    (operands : Nat) :
    (code ++ callsOf operators operands).map (Instruction.inline name value) =
      code.map (Instruction.inline name value) ++ callsOf operators operands := by
  apply Array.toList_inj.mp
  simp [callsOf, Instruction.inline]

/-- Completing an operand does not depend on the value. -/
theorem completeOperand_inline (a : Assembly) :
    a.completeOperand.inline name value = (a.inline name value).completeOperand := by
  simp only [completeOperand, inline, append_callsOf_inline]

/-- Releasing operators does not depend on the value. -/
theorem release_inline (a : Assembly) :
    a.release.inline name value = (a.inline name value).release := by
  simp only [release, inline, append_callsOf_inline]

/-- Finishing a call does not depend on the value. -/
theorem finishCall_inline (a : Assembly) (callee : PendingCall) (count : Nat) :
    (a.finishCall callee count).inline name value =
      (a.inline name value).finishCall callee count := by
  unfold finishCall
  cases callee.function with
  | none => rfl
  | some function =>
    dsimp only
    split
    · exact emit_inline a (.call function count)
    · rfl

/-- Whether a grouping is empty does not depend on the value. -/
theorem isEmpty_inline (name : String) (value : Float) (a : Assembly) :
    (a.inline name value).current.isEmpty (a.inline name value).code.size =
      a.current.isEmpty a.code.size := by
  simp only [inline, Array.size_map]

/-- A variable that is loaded is loaded as before, unless it is the constant: then it is not
mentioned, and its value is pushed. -/
theorem Move.inline_load {index : Nat} {other : String} (pending : a.pending = none)
    (expects : a.current.expectsOperand = true) (unknown : registry.constant? other = none) :
    (a.inline name value).Move (registry.addConstant name value) ⟨index, .reference other⟩
      ((emit { a with mentioned := a.mentioned.push other } (.load other)).completeOperand.inline
        name value) := by
  rw [completeOperand_inline, emit_inline]
  by_cases heq : name = other
  · have hknown : (registry.addConstant name value).constant? other = some value := by
      simp [heq]
    refine .of_eq (.inlined pending expects hknown) ?_
    simp [heq, inline, Instruction.inline, emit]
  · have hunknown := (registry.constant?_addConstant_of_ne value heq).trans unknown
    refine .of_eq (.load pending expects hunknown) ?_
    simp [Ne.symm heq, inline, Instruction.inline, emit]

/-- A token that is taken is taken with the constant, unless it is its bare name. -/
theorem Move.inline (free : registry.constant? name = none) (bare : located.token ≠ .constant name)
    (h : a.Move registry located b) :
    (a.inline name value).Move (registry.addConstant name value) located
      (b.inline name value) := by
  have hpush : ∀ number, ((a.emit (.push number)).completeOperand).inline name value =
      ((a.inline name value).emit (.push number)).completeOperand := by
    intro number
    rw [completeOperand_inline, emit_inline]
    rfl
  have hempty := isEmpty_inline name value a
  have hother : ∀ {other}, name ≠ other →
      (registry.addConstant name value).constant? other = registry.constant? other :=
    fun hne => registry.constant?_addConstant_of_ne value hne
  cases h with
  | literal pending expects => exact .of_eq (.literal pending expects) (hpush _)
  | @inlined index other number pending expects known =>
    have hne : name ≠ other := fun heq => by
      rw [← heq, free] at known
      cases known
    exact .of_eq (.inlined pending expects ((hother hne).trans known)) (hpush number)
  | load pending expects unknown => exact .inline_load pending expects unknown
  | @constant index other number pending expects known =>
    have hne : name ≠ other := fun heq => bare (heq ▸ rfl)
    exact .of_eq (.constant pending expects ((hother hne).trans known)) (hpush number)
  | @unknownConstant index other pending expects unknown =>
    have hne : name ≠ other := fun heq => bare (heq ▸ rfl)
    refine .of_eq (.unknownConstant pending expects ((hother hne).trans unknown)) ?_
    rw [completeOperand_inline, emit_inline]
    rfl
  | callee pending expects known => exact .callee pending expects known
  | unknownCallee pending expects unknown => exact .unknownCallee pending expects unknown
  | unary pending expects known unary => exact .unary pending expects known unary
  | binary pending complete known binary =>
    refine .of_eq (.binary pending complete known binary) ?_
    simp only [inline, append_callsOf_inline]
  | openCall pending =>
    refine .of_eq (.openCall pending) ?_
    simp only [openGrouping, inline, Array.size_map]
  | openGroup pending expects =>
    refine .of_eq (.openGroup pending expects) ?_
    simp only [openGrouping, inline, Array.size_map]
  | comma pending kind complete =>
    refine .of_eq (.comma pending kind complete) ?_
    simp only [inline, release, append_callsOf_inline]
  | closeGroup pending kind complete filled around =>
    refine .of_eq (.closeGroup pending kind complete (hempty.trans filled) around) ?_
    simp only [completeOperand, inline, release, append_callsOf_inline]
  | @closeCall index callee commas outer enclosing pending kind complete around =>
    refine .of_eq (.closeCall pending kind (complete.imp_left hempty.trans) around) ?_
    rw [completeOperand_inline, finishCall_inline, closedCount, closedCount, hempty]
    simp only [inline, release, append_callsOf_inline]
  | finish pending complete around =>
    exact .of_eq (.finish pending complete around) (release_inline a)

/-- A token that is refused is refused with the constant, for the same reason. -/
theorem Refusal.inline (h : a.Refusal registry located e) :
    (a.inline name value).Refusal (registry.addConstant name value) located e := by
  have hempty := isEmpty_inline name value a
  cases h with
  | uncalled pending other => exact .uncalled pending other
  | unexpectedOperand pending complete operand => exact .unexpectedOperand pending complete operand
  | unknownOperator pending unknown => exact .unknownOperator pending unknown
  | noLeftOperand pending expects known binary =>
    exact .noLeftOperand pending expects known binary
  | misplacedOperator pending complete known unary =>
    exact .misplacedOperator pending complete known unary
  | misplacedComma pending outside => exact .misplacedComma pending outside
  | noArgument pending kind expects => exact .noArgument pending kind expects
  | unmatchedClose pending kind => exact .unmatchedClose pending kind
  | unenclosed pending kind nonempty complete around =>
    exact .unenclosed pending kind (fun hgroup => hempty.trans (nonempty hgroup))
      (complete.imp_left hempty.trans) around
  | emptyGroup pending kind empty => exact .emptyGroup pending kind (hempty.trans empty)
  | incomplete pending kind filled expects =>
    exact .incomplete pending kind (hempty.trans filled) expects
  | unmatchedOpen pending around => exact .unmatchedOpen pending around
  | emptyExpression pending around expects empty =>
    exact .emptyExpression pending around expects (hempty.trans empty)
  | unfinished pending around expects filled =>
    exact .unfinished pending around expects (hempty.trans filled)

/-- Taking a token with the constant leads to the same assembly with the value in the place of the
variable, or to the same error. -/
theorem take_inline (free : registry.constant? name = none)
    (bare : located.token ≠ .constant name) (a : Assembly) :
    (a.inline name value).take (registry.addConstant name value) located =
      (a.take registry located).map (inline name value) := by
  cases h : a.take registry located with
  | ok b => exact ((take_eq_ok_iff.mp h).inline free bare).take_eq
  | error e => exact (take_eq_error_iff.mp h).inline.take_eq

end Assembly

/-! ### Whole texts -/

/-- A constant more changes no operator. -/
theorem sameOperators_addConstant (registry : Registry) (name : String) (value : Float) :
    (registry.addConstant name value).SameOperators registry :=
  fun _ => rfl

/-- Compiling a text with the constant yields the same code with the value in the place of the
variable, or the same diagnostics, and mentions all variables but this one. -/
theorem compile_inline {registry : Registry} {source : String} (value : Float)
    (free : registry.constant? name = none)
    (bare : ∀ located ∈ (scanOf registry source).tokens, located.token ≠ .constant name) :
    compile (registry.addConstant name value) source =
      ⟨(compile registry source).mentioned.filter (· ≠ name),
        (compile registry source).result.map (Program.inline name value)⟩ := by
  have hscan : scanOf (registry.addConstant name value) source = scanOf registry source :=
    scanOf_congr ((sameOperators_addConstant registry name value).sameSymbolsIn _)
  have hunnamed : ∀ located : Located,
      located ∈ (scanOf registry source).tokens ∨ located.token = .finish →
        located.token ≠ .constant name := by
    rintro located (hl | ht)
    · exact bare located hl
    · rw [ht]
      exact Token.noConfusion
  have hread := Scan.read_map (Assembly.inline name value)
    (fun a located hl => Assembly.take_inline free (hunnamed located hl) a) .initial
  have hinitial : Assembly.initial.inline name value = .initial := by
    simp [Assembly.inline, Assembly.initial]
  rw [hinitial] at hread
  have hcode : ∀ a : Assembly, (a.inline name value).code.toList =
      a.code.toList.map (Instruction.inline name value) := fun _ => Array.toList_map
  have hmentioned : ∀ a : Assembly, (a.inline name value).mentioned.toList =
      a.mentioned.toList.filter (· ≠ name) := fun _ => Array.toList_filter
  have hproblems : ∀ a : Assembly, (a.inline name value).problems = a.problems := fun _ => rfl
  simp only [compile, run_source, hscan, hread, hcode, hmentioned, hproblems]
  rcases (scanOf registry source).read (Assembly.take registry) .initial with ⟨final, e | error⟩
  · simp only
    split <;> rfl
  · rfl

/-- Adding a constant whose name stands in a text between sigils only is the same as giving the
variable of that name its value. The text compiles with the constant exactly if it does without,
with the same diagnostics if it does not, and the two programs differ in that the value is pushed
wherever the variable is loaded. In every store in which the variable holds the value they
evaluate alike. With the constant, compiling the text never declares the variable, and declares
every other one as it does without. -/
theorem compileIn_inlined {registry : Registry} {source name : String} (value : Float)
    (store : Store) (free : registry.constant? name = none)
    (bare : ∀ located ∈ (scanOf registry source).tokens, located.token ≠ .constant name) :
    (compileIn (registry.addConstant name value) store source).1 =
        (compileIn registry store source).1.map (Program.inline name value) ∧
      (∀ program, (compileIn registry store source).1 = .ok program →
        ∀ later : Store, later.get? name = some value →
          (program.inline name value).evaluate later = program.evaluate later) ∧
      (compileIn (registry.addConstant name value) store source).2.get? name = store.get? name ∧
      ∀ other, other ≠ name →
        (compileIn (registry.addConstant name value) store source).2.get? other =
          (compileIn registry store source).2.get? other := by
  have hcompile := compile_inline value free bare
  simp only [compileIn, hcompile]
  refine ⟨trivial, fun program _ later hlater => evaluate_inline hlater program, ?_,
    fun other hne => ?_⟩
  · simp
  · simp [hne]

/-- A variable that has the name of a function, which is called between sigils as well. -/
theorem compileIn_inlined_callee :
    ∃ program, (compileIn .builtin .empty "$max$ + $ max $($x$, $max$)").1 = .ok program ∧
      program.references = ["max", "x"] ∧
      (compileIn (Registry.builtin.addConstant "max" 3) .empty
        "$max$ + $ max $($x$, $max$)").1 = .ok (program.inline "max" 3) ∧
      ((Store.empty.set "max" 3).set "x" 5).get? "max" = some 3 ∧
      (program.inline "max" 3).evaluate ((Store.empty.set "max" 3).set "x" 5) =
        program.evaluate ((Store.empty.set "max" 3).set "x" 5) ∧
      program.evaluate ((Store.empty.set "max" 3).set "x" 5) = .ok 8 ∧
      (compileIn (Registry.builtin.addConstant "max" 3) .empty
        "$max$ + $ max $($x$, $max$)").2.get? "max" = none := by
  have hresult : ((compileIn .builtin .empty "$max$ + $ max $($x$, $max$)").1.toOption.map
      fun program => (program.references,
        program.evaluate ((Store.empty.set "max" 3).set "x" 5))) =
          some (["max", "x"], .ok 8) := by
    decide +kernel
  have hfree : Registry.builtin.constant? "max" = none := by decide +kernel
  have hbare : ∀ located ∈ (scanOf .builtin "$max$ + $ max $($x$, $max$)").tokens,
      located.token ≠ .constant "max" := by
    decide +kernel
  have hholds : ((Store.empty.set "max" 3).set "x" 5).get? "max" = some 3 := by decide +kernel
  obtain ⟨hmap, hvalue, hundeclared, -⟩ := compileIn_inlined 3 .empty hfree hbare
  cases hcompile : (compileIn .builtin .empty "$max$ + $ max $($x$, $max$)").1 with
  | error diagnostics =>
    rw [hcompile] at hresult
    cases hresult
  | ok program =>
    rw [hcompile] at hresult hmap
    obtain ⟨hreads, height⟩ := Prod.mk.inj (Option.some.inj hresult)
    exact ⟨program, rfl, hreads, hmap, hholds, hvalue program hcompile _ hholds, height,
      hundeclared⟩

end GateFormula
