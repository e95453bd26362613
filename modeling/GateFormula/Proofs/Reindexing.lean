import GateFormula.Proofs.Compilation

/-!
# Tokens that stand elsewhere

Assembling never looks at an index; it only hands them on, into errors and problems. So when the
tokens of a text stand at other indices, the code is the same, and errors and problems follow
their tokens. `take_reindex` says so of a single token, for any map of indices whatever, and
`compile_of_scanOf` of whole texts. The whole formula starts at index zero, which is no token's;
`Nested` keeps that index out of the errors about parentheses.
-/

namespace GateFormula

/-! ### Other indices -/

variable (f : Nat → Nat)

/-- A token at another index. -/
def Located.reindex (located : Located) : Located :=
  { located with index := f located.index }

/-- An error at another index. -/
def SyntaxError.reindex (e : SyntaxError) : SyntaxError :=
  { e with index := f e.index }

/-- A problem at another index. -/
def Problem.reindex : Problem → Problem
  | .unknownConstant name index => .unknownConstant name (f index)
  | .unknownFunction name index => .unknownFunction name (f index)
  | .arityMismatch name index got signature => .arityMismatch name (f index) got signature

/-- The same reason with other indices. -/
def Cause.reindex : Cause → Cause
  | .malformed error => .malformed (error.reindex f)
  | .unsupported problems => .unsupported (problems.map (Problem.reindex f))

/-- The same answer with other indices: an error, or a value that follows its tokens. -/
def reindexAnswer {α : Type} (move : α → α) : Except SyntaxError α → Except SyntaxError α
  | .ok value => .ok (move value)
  | .error e => .error (e.reindex f)

/-- The same scan with other indices. -/
def Scan.reindex (s : Scan) : Scan where
  tokens := s.tokens.map (Located.reindex f)
  ending := reindexAnswer f f s.ending

/-- What compiling another text yields, of which the tokens are the same at other indices. -/
def Compilation.moveTo (text : String) (c : Compilation) : Compilation where
  mentioned := c.mentioned
  result := match c.result with
    | .ok program => .ok ⟨text, program.code⟩
    | .error diagnostics => .error ⟨text, diagnostics.cause.reindex f⟩

/-- A call whose name stands at another index. -/
def PendingCall.reindex (callee : PendingCall) : PendingCall :=
  { callee with index := f callee.index }

/-- The same kind of grouping with other indices. -/
def GroupingKind.reindex : GroupingKind → GroupingKind
  | .root => .root
  | .group => .group
  | .call callee commas => .call (callee.reindex f) commas

/-- The same grouping with other indices. The whole formula starts where it did. -/
def Grouping.reindex (g : Grouping) : Grouping :=
  { g with
    kind := g.kind.reindex f
    index := match g.kind with
      | .root => g.index
      | .group | .call _ _ => f g.index }

/-- The same assembly with other indices. -/
def Assembly.reindex (a : Assembly) : Assembly :=
  { a with
    current := a.current.reindex f
    enclosing := a.enclosing.map (Grouping.reindex f)
    pending := a.pending.map (PendingCall.reindex f)
    problems := a.problems.map (Problem.reindex f) }

/-- Nothing but the outermost grouping is the whole formula. -/
def Nested : Grouping → List Grouping → Prop
  | _, [] => True
  | g, outer :: enclosing => g.kind ≠ .root ∧ Nested outer enclosing

/-! ### One token -/

namespace Assembly

variable {registry : Registry} {f} {a : Assembly} {index : Nat}

/-- The innermost grouping stays of its kind. -/
@[simp] theorem kind_reindex : (a.reindex f).current.kind = a.current.kind.reindex f := rfl

/-- The groupings around it move with it. -/
@[simp] theorem enclosing_reindex :
    (a.reindex f).enclosing = a.enclosing.map (Grouping.reindex f) := rfl

/-- So does the function whose argument list comes next. -/
@[simp] theorem pending_reindex :
    (a.reindex f).pending = a.pending.map (PendingCall.reindex f) := rfl

/-- Where no argument list comes next, none does. -/
theorem free_reindex (free : a.pending = none) : (a.reindex f).pending = none := by
  simp [free]

/-- The grouping around the innermost one stays around it. -/
theorem around_reindex {outer : Grouping} {enclosing : List Grouping}
    (around : a.enclosing = outer :: enclosing) :
    (a.reindex f).enclosing = outer.reindex f :: enclosing.map (Grouping.reindex f) := by
  simp [around]

/-- The outermost grouping stays the outermost. -/
theorem outermost_reindex (around : a.enclosing = []) : (a.reindex f).enclosing = [] := by
  simp [around]

/-- The arguments of a call stay those of the call, whose name moves. -/
theorem call_reindex {callee : PendingCall} {commas : Nat}
    (kind : a.current.kind = .call callee commas) :
    (a.reindex f).current.kind = .call (callee.reindex f) commas := by
  rw [kind_reindex, kind, GroupingKind.reindex]

/-- A formula in parentheses stays one. -/
theorem group_reindex (kind : a.current.kind = .group) : (a.reindex f).current.kind = .group := by
  rw [kind_reindex, kind, GroupingKind.reindex]

/-- A grouping inside the formula follows its parenthesis. -/
theorem index_reindex (h : a.current.kind ≠ .root) :
    (a.reindex f).current.index = f a.current.index := by
  simp only [reindex, Grouping.reindex]
  cases hk : a.current.kind with
  | root => exact absurd hk h
  | group => rfl
  | call callee commas => rfl

/-- A grouping inside the formula stays there. -/
theorem inside_reindex (h : a.current.kind ≠ .root) : (a.reindex f).current.kind ≠ .root := by
  rw [kind_reindex]
  cases hk : a.current.kind with
  | root => exact absurd hk h
  | group => exact GroupingKind.noConfusion
  | call callee commas => exact GroupingKind.noConfusion

/-- A grouping is a formula in parentheses only if it was one. -/
theorem kind_of_reindex (h : (a.reindex f).current.kind = .group) : a.current.kind = .group := by
  rw [kind_reindex] at h
  cases hk : a.current.kind with
  | group => rfl
  | root => rw [hk] at h; cases h
  | call callee commas => rw [hk] at h; cases h

/-- Whether the innermost grouping is empty does not depend on indices. -/
theorem isEmpty_reindex :
    (a.reindex f).current.isEmpty (a.reindex f).code.size = a.current.isEmpty a.code.size := by
  have hcommas : (a.current.reindex f).commas = a.current.commas := by
    unfold Grouping.commas Grouping.reindex
    cases a.current.kind <;> rfl
  change (a.current.reindex f).isEmpty a.code.size = _
  simp only [Grouping.isEmpty, hcommas]
  rfl

/-- A problem that is noted follows its token. -/
theorem report_reindex (a : Assembly) (problem : Problem) :
    (a.report problem).reindex f = (a.reindex f).report (problem.reindex f) := by
  simp only [report, reindex, Array.map_push]

/-- A call that is finished follows its name. -/
theorem finishCall_reindex (callee : PendingCall) (count : Nat) :
    (a.reindex f).finishCall (callee.reindex f) count = (a.finishCall callee count).reindex f := by
  have hfunction : (callee.reindex f).function = callee.function := rfl
  unfold finishCall
  rw [hfunction]
  cases callee.function with
  | none => rfl
  | some function =>
    dsimp only
    by_cases haccepts : function.accepts count = true
    · rw [if_pos haccepts, if_pos haccepts]
      rfl
    · rw [if_neg haccepts, if_neg haccepts, report_reindex]
      rfl

/-- A token that is taken is taken at another index. -/
theorem Move.reindex {b : Assembly} {located : Located} (h : a.Move registry located b) :
    (a.reindex f).Move registry (located.reindex f) (b.reindex f) := by
  cases h with
  | literal free expects => exact .literal (free_reindex free) expects
  | inlined free expects known => exact .inlined (free_reindex free) expects known
  | load free expects unknown => exact .load (free_reindex free) expects unknown
  | constant free expects known => exact .constant (free_reindex free) expects known
  | @unknownConstant index name free expects unknown =>
    have hstate := congrArg (fun c : Assembly => (c.emit (.push 0)).completeOperand)
      (report_reindex (f := f) a (.unknownConstant name index))
    exact (Move.unknownConstant (free_reindex free) expects unknown).of_eq hstate
  | callee free expects known => exact .callee (free_reindex free) expects known
  | @unknownCallee index name free expects unknown =>
    have hstate := congrArg (fun c : Assembly => { c with pending := some ⟨name, f index, none⟩ })
      (report_reindex (f := f) a (.unknownFunction name index))
    exact (Move.unknownCallee (free_reindex free) expects unknown).of_eq hstate
  | unary free expects known unary => exact .unary (free_reindex free) expects known unary
  | binary free complete known binary => exact .binary (free_reindex free) complete known binary
  | openCall pending =>
    exact .openCall (by rw [pending_reindex, pending, Option.map_some])
  | openGroup free expects => exact .openGroup (free_reindex free) expects
  | @comma index callee commas free kind complete =>
    have hmove : Move registry (a.reindex f) ⟨f index, .comma⟩ _ :=
      .comma (free_reindex free) (call_reindex kind) complete
    simp only [Assembly.reindex, Grouping.reindex, release, kind, GroupingKind.reindex] at hmove ⊢
    exact hmove
  | @closeGroup index outer enclosing free kind complete filled around =>
    exact .closeGroup (free_reindex free) (group_reindex kind) complete
      (isEmpty_reindex.trans filled) (around_reindex around)
  | @closeCall index callee commas outer enclosing free kind complete around =>
    have hcomplete : (a.reindex f).current.isEmpty (a.reindex f).code.size = true ∨
        (a.reindex f).current.expectsOperand = false :=
      complete.imp_left isEmpty_reindex.trans
    have hcount : (a.reindex f).closedCount commas = a.closedCount commas := by
      rw [closedCount, closedCount, isEmpty_reindex]
    have hfinish := finishCall_reindex (f := f)
      (a := { a.release with current := outer, enclosing }) callee (a.closedCount commas)
    rw [← hcount] at hfinish ⊢
    exact (Move.closeCall (free_reindex free) (call_reindex kind) hcomplete
      (around_reindex around)).of_eq (congrArg completeOperand hfinish.symm)
  | finish free complete around =>
    exact .finish (free_reindex free) complete (outermost_reindex around)

/-- A token that is refused is refused at another index, if nothing but the outermost grouping is
the whole formula. -/
theorem Refusal.reindex {located : Located} {e : SyntaxError}
    (ha : Nested a.current a.enclosing) (h : a.Refusal registry located e) :
    (a.reindex f).Refusal registry (located.reindex f) (e.reindex f) := by
  cases h with
  | uncalled pending other =>
    exact .uncalled (by rw [pending_reindex, Option.isSome_map]; exact pending) other
  | unexpectedOperand free complete operand =>
    exact .unexpectedOperand (free_reindex free) complete operand
  | unknownOperator free unknown => exact .unknownOperator (free_reindex free) unknown
  | noLeftOperand free expects known binary =>
    exact .noLeftOperand (free_reindex free) expects known binary
  | misplacedOperator free complete known unary =>
    exact .misplacedOperator (free_reindex free) complete known unary
  | misplacedComma free outside =>
    refine .misplacedComma (free_reindex free) fun callee commas => ?_
    rw [kind_reindex]
    cases hk : a.current.kind with
    | root | group => exact GroupingKind.noConfusion
    | call callee commas => exact absurd hk (outside callee commas)
  | noArgument free kind expects =>
    exact .noArgument (free_reindex free) (by rw [kind_reindex, kind]; rfl) expects
  | unmatchedClose free kind =>
    exact .unmatchedClose (free_reindex free) (by rw [kind_reindex, kind]; rfl)
  | unenclosed free kind nonempty complete around =>
    refine .unenclosed (free_reindex free) (inside_reindex kind) (fun hgroup => ?_)
      (complete.imp_left isEmpty_reindex.trans) (outermost_reindex around)
    exact isEmpty_reindex.trans (nonempty (kind_of_reindex hgroup))
  | @emptyGroup index free kind empty =>
    have hindex : (a.reindex f).current.index = f a.current.index :=
      index_reindex (by rw [kind]; exact GroupingKind.noConfusion)
    have hrefusal : Refusal registry (a.reindex f) ⟨f index, .closing⟩ _ :=
      .emptyGroup (free_reindex free) (group_reindex kind) (isEmpty_reindex.trans empty)
    rw [hindex] at hrefusal
    exact hrefusal
  | incomplete free kind filled expects =>
    exact .incomplete (free_reindex free) (inside_reindex kind) (isEmpty_reindex.trans filled)
      expects
  | @unmatchedOpen index free around =>
    have hindex : (a.reindex f).current.index = f a.current.index := by
      cases houter : a.enclosing with
      | nil => exact absurd houter around
      | cons outer enclosing =>
        rw [houter] at ha
        exact index_reindex ha.1
    have hopen : (a.reindex f).enclosing ≠ [] := by
      rw [enclosing_reindex]
      exact fun h => around (List.map_eq_nil_iff.mp h)
    have hrefusal : Refusal registry (a.reindex f) ⟨f index, .finish⟩ _ :=
      .unmatchedOpen (free_reindex free) hopen
    rw [hindex] at hrefusal
    exact hrefusal
  | emptyExpression free around expects empty =>
    exact .emptyExpression (free_reindex free) (outermost_reindex around) expects
      (isEmpty_reindex.trans empty)
  | unfinished free around expects filled =>
    exact .unfinished (free_reindex free) (outermost_reindex around) expects
      (isEmpty_reindex.trans filled)

/-- Taking a token at another index leads to the same assembly with other indices, or to the same
error at another index. -/
theorem take_reindex (registry : Registry) (f : Nat → Nat) (ha : Nested a.current a.enclosing)
    (located : Located) :
    (a.reindex f).take registry (located.reindex f) =
      reindexAnswer f (reindex f) (a.take registry located) := by
  cases h : a.take registry located with
  | ok b => exact (take_eq_ok_iff.mp h).reindex.take_eq
  | error e => exact ((take_eq_error_iff.mp h).reindex ha).take_eq

/-! ### Groupings around groupings -/

/-- Whether groupings are nested does not depend on what waits in the innermost one. -/
theorem nested_congr {g other : Grouping} {enclosing : List Grouping} (h : Nested g enclosing)
    (hkind : g.kind ≠ .root → other.kind ≠ .root) : Nested other enclosing := by
  cases enclosing with
  | nil => trivial
  | cons outer enclosing => exact ⟨hkind h.1, h.2⟩

/-- Taking a token keeps groupings nested. -/
theorem nested_of_take {b : Assembly} {located : Located} (ha : Nested a.current a.enclosing)
    (h : a.take registry located = .ok b) : Nested b.current b.enclosing := by
  cases take_eq_ok_iff.mp h with
  | literal | inlined | load | constant | unknownConstant | unary | binary | finish =>
    exact nested_congr ha id
  | callee | unknownCallee => exact ha
  | openCall | openGroup => exact ⟨GroupingKind.noConfusion, ha⟩
  | comma => exact nested_congr ha fun _ => GroupingKind.noConfusion
  | closeGroup free kind complete filled around =>
    rw [around] at ha
    exact nested_congr ha.2 id
  | @closeCall index callee commas outer enclosing free kind complete around =>
    rw [around] at ha
    obtain ⟨code, problems, hfinish⟩ := finishCall_frame
      { a.release with current := outer, enclosing } callee (a.closedCount commas)
    rw [hfinish]
    exact nested_congr ha.2 id

/-! ### Whole texts -/

/-- Reading a scan with other indices leads to the same assembly with other indices, and to the
same error at another index, if there is one. -/
theorem read_reindex (registry : Registry) (f : Nat → Nat) (ha : Nested a.current a.enclosing)
    (s : Scan) :
    (s.reindex f).read (take registry) (a.reindex f) =
      ((s.read (take registry) a).1.reindex f,
        (s.read (take registry) a).2.map (SyntaxError.reindex f)) := by
  obtain ⟨tokens, ending⟩ := s
  induction tokens generalizing a with
  | nil =>
    cases ending with
    | error e => rfl
    | ok n =>
      have hfinish := take_reindex registry f ha ⟨n, .finish⟩
      simp only [Located.reindex] at hfinish
      simp only [Scan.reindex, List.map_nil, reindexAnswer, Scan.read, takeAll, hfinish]
      cases a.take registry ⟨n, .finish⟩ <;> rfl
  | cons located tokens ih =>
    have hfirst := take_reindex registry f ha located
    simp only [Scan.reindex, List.map_cons] at ih ⊢
    rw [Scan.read_cons, Scan.read_cons, hfirst]
    cases hb : a.take registry located with
    | error e => rfl
    | ok b => exact ih (nested_of_take ha hb)

end Assembly

/-- If the tokens of a text are those of another at other indices, it compiles to the same code, or
to the same errors and problems at the indices of their tokens. -/
theorem compile_of_scanOf {registry : Registry} {source text : String} (f : Nat → Nat)
    (h : scanOf registry text = (scanOf registry source).reindex f) :
    compile registry text = (compile registry source).moveTo f text := by
  have hinitial : Assembly.initial.reindex f = .initial := by
    simp [Assembly.reindex, Assembly.initial, Grouping.reindex, GroupingKind.reindex]
  have hread := Assembly.read_reindex registry (a := .initial) f trivial (scanOf registry source)
  rw [hinitial, ← h] at hread
  simp only [compile, run_source, hread]
  rcases (scanOf registry source).read (Assembly.take registry) .initial with ⟨final, e | error⟩
  · have hproblems : (final.reindex f).problems.toList =
        final.problems.toList.map (Problem.reindex f) :=
      Array.toList_map
    have hempty : (final.reindex f).problems.isEmpty = final.problems.isEmpty := by
      rw [← Array.isEmpty_toList, hproblems, List.isEmpty_map, Array.isEmpty_toList]
    simp only [Compilation.moveTo, Option.map_none, hempty, hproblems]
    split <;> rfl
  · rfl

end GateFormula
