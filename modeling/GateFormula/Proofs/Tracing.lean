import GateFormula.Proofs.SyntaxVerdict

/-!
# What happens while a text is assembled

A trace is assembling with a record: what the scanner is told of operands at each of its
calls, and which tokens are taken. `trace_run` says that the record changes nothing, and
`trace_ends` compares it with the scan of the text by itself. Assembling takes the tokens of
the scan in order and stops at the end, at a token that it refuses or at the error of the
scan, whichever comes first; no error lies behind the token that it is found at.
-/

namespace GateFormula

/-- Assembling a text, with a record. -/
structure Trace where
  /-- Whether an operand is expected, as the scanner is told at each of its calls. -/
  expectations : List Bool
  /-- The tokens taken. -/
  taken : List Located
  /-- The state behind the last of them. -/
  final : Assembly
  /-- The error that ends the text early, if one does. -/
  error? : Option SyntaxError

/-- Assemble from a cursor and keep the record. -/
def Assembly.trace (registry : Registry) (cursor : Cursor) (a : Assembly) : Trace :=
  match _step : cursor.next registry a.expectsOperand with
  | (.error error, _) => ⟨[a.expectsOperand], [], a, some error⟩
  | (.ok located, after) =>
    match a.take registry located with
    | .error error => ⟨[a.expectsOperand], [], a, some error⟩
    | .ok b =>
      if _last : located.token = .finish then ⟨[a.expectsOperand], [located], b, none⟩
      else
        let further := Assembly.trace registry after b
        { further with
          expectations := a.expectsOperand :: further.expectations
          taken := located :: further.taken }
termination_by cursor.rest.length
decreasing_by exact Cursor.next_shortens _step _last

/-- The trace of a whole text. -/
def traceOf (registry : Registry) (source : String) : Trace :=
  Assembly.trace registry (.start source) .initial

/-- What the scanner is told when it scans by itself: first `expectOperand`, and then what the
token before says. -/
def Scan.expectations (expectOperand : Bool) (s : Scan) : List Bool :=
  expectOperand :: s.tokens.map fun located => located.token.expectsOperandAfter

/-- All tokens of a scan, with the end if the scan comes to it. -/
def Scan.all (s : Scan) : List Located :=
  match s.ending with
  | .ok n => s.tokens ++ [⟨n, .finish⟩]
  | .error _ => s.tokens

variable {registry : Registry} {cursor : Cursor}

/-- A trace, one step at a time. -/
theorem trace_next (a : Assembly) :
    Assembly.trace registry cursor a =
      match cursor.next registry a.expectsOperand with
      | (.error error, _) => ⟨[a.expectsOperand], [], a, some error⟩
      | (.ok located, after) =>
        match a.take registry located with
        | .error error => ⟨[a.expectsOperand], [], a, some error⟩
        | .ok b =>
          if located.token = .finish then ⟨[a.expectsOperand], [located], b, none⟩
          else
            { Assembly.trace registry after b with
              expectations := a.expectsOperand :: (Assembly.trace registry after b).expectations
              taken := located :: (Assembly.trace registry after b).taken } := by
  rw [Assembly.trace]
  split
  next h => rw [h]
  next located after h =>
    simp only [h]
    cases a.take registry located with
    | error error => rfl
    | ok b => exact dite_eq_ite

/-- How assembling a text ends, against the scan of the text. -/
inductive Trace.Ends (registry : Registry) (s : Scan) (t : Trace) : Prop where
  /-- Every token is taken, the end with them. -/
  | finished (finish : t.error? = none) (complete : s.ending.isOk = true) (taken : t.taken = s.all)
  /-- A token is refused. -/
  | refused (located : Located) (error : SyntaxError) (stop : t.error? = some error)
      (further : t.taken ++ [located] <+: s.all)
      (refusal : t.final.take registry located = .error error)
  /-- The scan has an error, and every token before it is taken. -/
  | unscanned (error : SyntaxError) (stop : t.error? = some error)
      (incomplete : s.ending = .error error) (taken : t.taken = s.all)

/-- A record keeps the state and the error of assembling. -/
theorem trace_run (a : Assembly) :
    ((Assembly.trace registry cursor a).final, (Assembly.trace registry cursor a).error?) =
      Assembly.run registry cursor a := by
  generalize he : a.expectsOperand = expectOperand
  induction expectOperand, cursor using scan_induction registry generalizing a with
  | error expectOperand cursor e after hs => rw [trace_next, Assembly.run_next, he, hs]
  | finish expectOperand cursor located after hs ht =>
    rw [trace_next, Assembly.run_next, he, hs]
    simp only [ht, if_true]
    cases a.take registry located <;> rfl
  | token expectOperand cursor located after hs ht ih =>
    rw [trace_next, Assembly.run_next, he, hs]
    simp only [ht, if_false]
    cases hb : a.take registry located with
    | error error => rfl
    | ok b => exact ih b (Assembly.expectsOperand_of_take hb)

/-- The tokens taken lead to the state behind them. -/
theorem takeAll_taken (a : Assembly) :
    takeAll (Assembly.take registry) a (Assembly.trace registry cursor a).taken =
      ((Assembly.trace registry cursor a).final, none) := by
  generalize he : a.expectsOperand = expectOperand
  induction expectOperand, cursor using scan_induction registry generalizing a with
  | error expectOperand cursor e after hs =>
    rw [trace_next, he, hs]
    rfl
  | finish expectOperand cursor located after hs ht =>
    rw [trace_next, he, hs]
    simp only [ht, if_true]
    cases hb : a.take registry located with
    | error error => rfl
    | ok b => simp only [takeAll, hb]
  | token expectOperand cursor located after hs ht ih =>
    rw [trace_next, he, hs]
    simp only [ht, if_false]
    cases hb : a.take registry located with
    | error error => rfl
    | ok b =>
      simp only [takeAll, hb]
      exact ih b (Assembly.expectsOperand_of_take hb)

/-! ### Against the scan -/

/-- A token in front of a scan. -/
theorem Scan.all_cons (located : Located) (s : Scan) :
    Scan.all ⟨located :: s.tokens, s.ending⟩ = located :: s.all := by
  unfold Scan.all
  cases s.ending <;> rfl

/-- The tokens before the end are among all tokens. -/
theorem Scan.mem_all {s : Scan} {located : Located} (h : located ∈ s.tokens) : located ∈ s.all := by
  unfold Scan.all
  cases s.ending with
  | ok n => exact List.mem_append_left _ h
  | error e => exact h

/-- A token that is taken changes nothing about the end. -/
theorem Trace.Ends.cons {s : Scan} {t : Trace} (h : t.Ends registry s) (located : Located)
    (expectations : List Bool) :
    Trace.Ends registry ⟨located :: s.tokens, s.ending⟩
      { t with expectations, taken := located :: t.taken } := by
  cases h with
  | finished finish complete taken =>
    refine .finished finish complete ?_
    rw [Scan.all_cons, ← taken]
  | refused last error stop further refusal =>
    refine .refused last error stop ?_ refusal
    rw [Scan.all_cons]
    exact (List.prefix_cons_inj located).mpr further
  | unscanned error stop incomplete taken =>
    refine .unscanned error stop incomplete ?_
    rw [Scan.all_cons, ← taken]

/-- A trace ends at the end of the scan, at a token of the scan that is refused or at the error
of the scan. -/
theorem trace_ends (registry : Registry) (cursor : Cursor) (a : Assembly) :
    (Assembly.trace registry cursor a).Ends registry (scan registry a.expectsOperand cursor) := by
  generalize he : a.expectsOperand = expectOperand
  induction expectOperand, cursor using scan_induction registry generalizing a with
  | error expectOperand cursor e after hs =>
    rw [trace_next, scan_error hs, he, hs]
    exact .unscanned e rfl rfl rfl
  | finish expectOperand cursor located after hs ht =>
    rw [trace_next, scan_finish hs ht, he, hs]
    obtain ⟨index, token⟩ := located
    cases ht
    cases hb : a.take registry ⟨index, .finish⟩ with
    | error error =>
      simp only [hb]
      exact .refused ⟨index, .finish⟩ error rfl List.prefix_rfl hb
    | ok b =>
      simp only [hb, if_true]
      exact .finished rfl rfl rfl
  | token expectOperand cursor located after hs ht ih =>
    rw [trace_next, scan_token hs ht, he, hs]
    simp only [ht, if_false]
    cases hb : a.take registry located with
    | error error =>
      refine .refused located error rfl ?_ hb
      rw [Scan.all_cons]
      exact (List.prefix_cons_inj located).mpr (List.nil_prefix)
    | ok b => exact (ih b (Assembly.expectsOperand_of_take hb)).cons located _

/-- The first call is told what the scan is told first. -/
theorem Scan.expectations_first (expectOperand : Bool) (s : Scan) :
    [expectOperand] <+: s.expectations expectOperand :=
  (List.prefix_cons_inj expectOperand).mpr List.nil_prefix

/-- Assembling tells the scanner what the token before says, from its first call to its last. -/
theorem expectations_prefix (registry : Registry) (cursor : Cursor) (a : Assembly) :
    (Assembly.trace registry cursor a).expectations <+:
      (scan registry a.expectsOperand cursor).expectations a.expectsOperand := by
  generalize he : a.expectsOperand = expectOperand
  induction expectOperand, cursor using scan_induction registry generalizing a with
  | error expectOperand cursor e after hs =>
    rw [trace_next, he, hs]
    exact Scan.expectations_first expectOperand _
  | finish expectOperand cursor located after hs ht =>
    rw [trace_next, he, hs]
    simp only [ht, if_true]
    cases a.take registry located <;> exact Scan.expectations_first expectOperand _
  | token expectOperand cursor located after hs ht ih =>
    rw [trace_next, he, hs]
    simp only [ht, if_false]
    cases hb : a.take registry located with
    | error error => exact Scan.expectations_first expectOperand _
    | ok b =>
      rw [scan_token hs ht]
      exact (List.prefix_cons_inj expectOperand).mpr (ih b (Assembly.expectsOperand_of_take hb))

/-- A text without an error is scanned in as many calls as it has tokens, the end with them. -/
theorem expectations_length (registry : Registry) (cursor : Cursor) (a : Assembly)
    (h : (Assembly.trace registry cursor a).error? = none) :
    (Assembly.trace registry cursor a).expectations.length =
      (Assembly.trace registry cursor a).taken.length := by
  generalize he : a.expectsOperand = expectOperand
  induction expectOperand, cursor using scan_induction registry generalizing a with
  | error expectOperand cursor e after hs =>
    rw [trace_next, he, hs] at h
    cases h
  | finish expectOperand cursor located after hs ht =>
    rw [trace_next, he, hs] at h ⊢
    simp only [ht, if_true] at h ⊢
    cases hb : a.take registry located with
    | error error => rw [hb] at h; cases h
    | ok b => rfl
  | token expectOperand cursor located after hs ht ih =>
    rw [trace_next, he, hs] at h ⊢
    simp only [ht, if_false] at h ⊢
    cases hb : a.take registry located with
    | error error => rw [hb] at h; cases h
    | ok b =>
      rw [hb] at h
      simp only [List.length_cons]
      exact congrArg (· + 1) (ih b h (Assembly.expectsOperand_of_take hb))

/-! ### What a token leaves alone -/

/-- The variable that a token reads, if it reads one. A constant of that name comes before a
variable. -/
def Token.reads? (registry : Registry) : Token → Option String
  | .reference name => if (registry.constant? name).isNone then some name else none
  | .literal _ | .call _ | .constant _ | .operator _ | .opening | .closing | .comma | .finish =>
    none

/-- The indices at which the groupings of an assembly start, that of the innermost first. -/
def Assembly.starts (a : Assembly) : List Nat :=
  (a.current :: a.enclosing).map Grouping.index

/-- The variables that the code of an assembly loads, in order. -/
def Assembly.loaded (a : Assembly) : List String :=
  a.code.toList.filterMap Instruction.variable?

/-- What taking a token does to the groupings and to the variables. -/
structure Assembly.Takes (registry : Registry) (located : Located) (a b : Assembly) : Prop where
  /-- A grouping is new only if it starts at the token. -/
  starts : ∀ index ∈ b.starts, index = located.index ∨ index ∈ a.starts
  /-- The variable that the token reads comes behind those read before. -/
  mentioned : b.mentioned.toList =
    a.mentioned.toList ++ (located.token.reads? registry).toList
  /-- It is loaded behind those loaded before. -/
  loaded : b.loaded = a.loaded ++ (located.token.reads? registry).toList

/-- Calls of operators load no variable. -/
theorem callsOf_loads (operators : List Operator) (operands : Nat) :
    (Assembly.callsOf operators operands).filterMap Instruction.variable? = [] := by
  simp [Assembly.callsOf, Instruction.variable?]

/-- Code that calls operators loads what the code before it does. -/
theorem loaded_append_callsOf (code : Array Instruction) (operators : List Operator)
    (operands : Nat) :
    (code ++ Assembly.callsOf operators operands).toList.filterMap Instruction.variable? =
      code.toList.filterMap Instruction.variable? := by
  rw [Array.toList_appendList, List.filterMap_append, callsOf_loads, List.append_nil]

/-- Completing an operand leaves the groupings and the variables alone. -/
theorem Assembly.Takes.completeOperand {located : Located} {a b : Assembly}
    (h : a.Takes registry located b) : a.Takes registry located b.completeOperand :=
  ⟨h.starts, h.mentioned, (loaded_append_callsOf b.code _ _).trans h.loaded⟩

/-- An assembly that differs in nothing but what it expects and what is noted has taken a token
that reads no variable. -/
theorem Assembly.Takes.of_eq {located : Located} {a b : Assembly}
    (ht : located.token.reads? registry = none)
    (hstarts : ∀ index ∈ b.starts, index = located.index ∨ index ∈ a.starts)
    (hmentioned : b.mentioned = a.mentioned) (hloaded : b.loaded = a.loaded) :
    a.Takes registry located b :=
  ⟨hstarts, by rw [hmentioned, ht, Option.toList_none, List.append_nil],
    by rw [hloaded, ht, Option.toList_none, List.append_nil]⟩

/-- Finishing a call loads no variable. -/
theorem finishCall_loaded (a : Assembly) (callee : PendingCall) (count : Nat) :
    (a.finishCall callee count).loaded = a.loaded := by
  unfold Assembly.finishCall
  split
  · rfl
  · split
    · simp [Assembly.loaded, Assembly.emit, Instruction.variable?]
    · rfl

/-- Pushing a number loads no variable. -/
theorem loaded_push (a : Assembly) (value : Float) : (a.emit (.push value)).loaded = a.loaded := by
  simp [Assembly.loaded, Assembly.emit, Instruction.variable?]

/-- The groupings around the innermost one start where they did. -/
theorem starts_of_enclosing {a : Assembly} {index : Nat} {outer : Grouping}
    {enclosing : List Grouping} (around : a.enclosing = outer :: enclosing) :
    ∀ i ∈ (outer :: enclosing).map Grouping.index, i = index ∨ i ∈ a.starts := by
  intro i hi
  rw [Assembly.starts, around]
  exact .inr (List.mem_cons_of_mem _ hi)

/-- Every token that is taken leaves groupings and variables alone, but for what it opens or
reads. -/
theorem takes_of_take {a b : Assembly} {located : Located}
    (h : a.take registry located = .ok b) : a.Takes registry located b := by
  have hkept : ∀ i ∈ a.starts, i = located.index ∨ i ∈ a.starts := fun _ => .inr
  cases Assembly.take_eq_ok_iff.mp h with
  | literal | constant =>
    refine Assembly.Takes.completeOperand ?_
    exact .of_eq rfl hkept rfl (loaded_push a _)
  | inlined free expects known =>
    refine Assembly.Takes.completeOperand ?_
    exact .of_eq (by simp [Token.reads?, known]) hkept rfl (loaded_push a _)
  | @load index name free expects unknown =>
    have hread : (Token.reference name).reads? registry = some name := by
      simp [Token.reads?, unknown]
    refine Assembly.Takes.completeOperand ⟨hkept, ?_, ?_⟩
    · simp [hread, Assembly.emit]
    · simp [hread, Assembly.loaded, Assembly.emit, Instruction.variable?]
  | @unknownConstant index name =>
    refine Assembly.Takes.completeOperand ?_
    exact .of_eq rfl hkept rfl (loaded_push (a.report (.unknownConstant name index)) 0)
  | callee | unknownCallee | unary => exact .of_eq rfl hkept rfl rfl
  | binary | comma | finish => exact .of_eq rfl hkept rfl (loaded_append_callsOf _ _ _)
  | openCall | openGroup => exact .of_eq rfl (fun i hi => List.mem_cons.mp hi) rfl rfl
  | closeGroup free kind complete filled around =>
    refine Assembly.Takes.completeOperand ?_
    exact .of_eq rfl (starts_of_enclosing around) rfl (loaded_append_callsOf _ _ _)
  | @closeCall index callee commas outer enclosing free kind complete around =>
    have hloaded := finishCall_loaded { a.release with current := outer, enclosing } callee
      (a.closedCount commas)
    obtain ⟨code, problems, hfinish⟩ := Assembly.finishCall_frame
      { a.release with current := outer, enclosing } callee (a.closedCount commas)
    rw [hfinish] at hloaded ⊢
    refine Assembly.Takes.completeOperand ?_
    exact .of_eq rfl (starts_of_enclosing around) rfl
      (hloaded.trans (loaded_append_callsOf a.code _ _))

/-! ### Where errors lie -/

/-- An error that a token causes lies at the token or where the innermost grouping starts. -/
theorem index_of_take {a : Assembly} {located : Located} {e : SyntaxError}
    (h : a.take registry located = .error e) :
    e.index = located.index ∨ e.index ∈ a.starts := by
  cases Assembly.take_eq_error_iff.mp h with
  | emptyGroup | unmatchedOpen => exact .inr List.mem_cons_self
  | uncalled | unexpectedOperand | unknownOperator | noLeftOperand | misplacedOperator
  | misplacedComma | noArgument | unmatchedClose | unenclosed | incomplete | emptyExpression
  | unfinished => exact .inl rfl

/-- Groupings start where they did or at one of the tokens taken. -/
theorem starts_of_takeAll {a b : Assembly} {row : List Located}
    (h : takeAll (Assembly.take registry) a row = (b, none)) :
    ∀ index ∈ b.starts, index ∈ row.map Located.index ∨ index ∈ a.starts := by
  refine takeAll_induction (motive := fun row b =>
    ∀ index ∈ b.starts, index ∈ row.map Located.index ∨ index ∈ a.starts) ?_ ?_ h
  · exact fun index hi => .inr hi
  · intro row c located d hc hd index hi
    rw [List.map_append, List.mem_append]
    rcases (takes_of_take hd).starts index hi with hhere | hbefore
    · exact .inl (.inr (List.mem_singleton.mpr hhere))
    · exact (hc index hbefore).imp_left .inl

/-- The error of a scan lies behind all its tokens. -/
theorem scan_error_index {expectOperand : Bool} {cursor : Cursor} {e : SyntaxError}
    (h : (scan registry expectOperand cursor).ending = .error e) :
    cursor.position ≤ e.index ∧
      ∀ located ∈ (scan registry expectOperand cursor).tokens, located.index < e.index := by
  induction expectOperand, cursor using scan_induction registry with
  | error expectOperand cursor f after hs =>
    rw [scan_error hs] at h ⊢
    cases h
    refine ⟨?_, by simp⟩
    have hskip : cursor.position ≤ cursor.skipBlanks.position := Nat.le_add_right _ _
    cases Cursor.steps_iff.mpr hs with
    | fault front read => exact hskip
    | attached front read sigil => exact Nat.le_trans hskip (Nat.le_add_right _ _)
  | finish expectOperand cursor located after hs ht => rw [scan_finish hs ht] at h; cases h
  | token expectOperand cursor located after hs ht ih =>
    rw [scan_token hs ht] at h ⊢
    obtain ⟨hposition, hlater⟩ := ih h
    obtain ⟨hfirst, hnext⟩ := next_index hs ht
    refine ⟨by omega, List.forall_mem_cons.mpr ⟨by omega, hlater⟩⟩

/-! ### Whole texts -/

/-- What compiling a text yields is read off its trace. -/
theorem compile_eq_trace (registry : Registry) (source : String) :
    compile registry source =
      ⟨(traceOf registry source).final.mentioned.toList,
        match (traceOf registry source).error? with
        | some error => .error ⟨source, .malformed error⟩
        | none =>
          if (traceOf registry source).final.problems.isEmpty then
            .ok ⟨source, (traceOf registry source).final.code.toList⟩
          else .error ⟨source, .unsupported (traceOf registry source).final.problems.toList⟩⟩ := by
  unfold compile
  rw [← trace_run]
  rfl

/-- The syntax error of a text is the one that ends its trace. -/
theorem syntaxErrorOf_trace (registry : Registry) (source : String) :
    syntaxErrorOf (compile registry source).result = (traceOf registry source).error? := by
  rw [compile_eq_trace]
  cases (traceOf registry source).error? with
  | some error => rfl
  | none =>
    simp only
    split <;> rfl

/-- A text has an error of the scanner if its scan does. -/
theorem tokenize_eq_error_iff {source : String} {e : SyntaxError} :
    tokenize registry source = .error e ↔ (scanOf registry source).ending = .error e := by
  rw [tokenize, tokensFrom_eq]
  change (scanOf registry source).ending.map _ = _ ↔ _
  cases (scanOf registry source).ending <;> simp [Except.map]

/-- All tokens of a scan that comes to its end are those of the text. -/
theorem tokenize_eq_all {source : String} (h : (scanOf registry source).ending.isOk = true) :
    tokenize registry source = .ok (scanOf registry source).all := by
  unfold Scan.all
  cases he : (scanOf registry source).ending with
  | error e => rw [he] at h; cases h
  | ok n => exact tokenize_eq_ok_iff.mpr ⟨n, he, rfl⟩

/-- The tokens of a text stand one behind the other. -/
theorem scanOf_pairwise (registry : Registry) (source : String) :
    (scanOf registry source).tokens.Pairwise (·.index < ·.index) :=
  (scan_index registry true (.start source)).2

/-- A token that is refused before the scan has an error lies before that error, and so does
the error that it causes. -/
theorem index_of_refused {source : String} {located : Located} {e f : SyntaxError}
    (he : (scanOf registry source).ending = .error e)
    (hinitial : (traceOf registry source).taken ++ [located] <+: (scanOf registry source).tokens)
    (hf : (traceOf registry source).final.take registry located = .error f) :
    f.index ≤ located.index ∧ located.index < e.index := by
  have hmem : located ∈ (scanOf registry source).tokens :=
    hinitial.subset (List.mem_append_right _ (List.mem_singleton_self _))
  refine ⟨?_, (scan_error_index he).2 located hmem⟩
  rcases index_of_take hf with hhere | hstart
  · exact Nat.le_of_eq hhere
  rcases starts_of_takeAll (takeAll_taken _) _ hstart with htaken | hinitial
  · obtain ⟨before, hbefore, hindex⟩ := List.mem_map.mp htaken
    have hsorted := (scanOf_pairwise registry source).sublist hinitial.sublist
    have hlt := (List.pairwise_append.mp hsorted).2.2 before hbefore located
      (List.mem_singleton_self _)
    omega
  · have hzero : f.index = 0 := List.mem_singleton.mp hinitial
    omega

/-- A text is scanned alike while it is assembled and by itself. If its formula has no syntax
error, the tokens taken are those of the text, the end with them. If scanning has an error,
compiling ends with one syntax error, at that place or before it: it is the same error, or
one that a token before it causes. At every call up to the first error the scanner is told
of operands what the token before says. -/
theorem trace_eq_tokenize (registry : Registry) (store : Store) (source : String) :
    (syntaxErrorOf (compileIn registry store source).1 = none →
      tokenize registry source = .ok (traceOf registry source).taken ∧
        (traceOf registry source).expectations = (scanOf registry source).expectations true) ∧
    (∀ e, tokenize registry source = .error e →
      ∃ f, (compileIn registry store source).1 = .error ⟨source, .malformed f⟩ ∧
        f.index ≤ e.index ∧
        (f = e ∨ ∃ located,
          (traceOf registry source).taken ++ [located] <+: (scanOf registry source).tokens ∧
            (traceOf registry source).final.take registry located = .error f)) ∧
    (traceOf registry source).expectations <+: (scanOf registry source).expectations true := by
  have hends : (traceOf registry source).Ends registry (scanOf registry source) :=
    trace_ends registry (.start source) .initial
  have hflags : (traceOf registry source).expectations <+:
      (scanOf registry source).expectations true :=
    expectations_prefix registry (.start source) .initial
  have hmalformed : ∀ f, (traceOf registry source).error? = some f →
      (compileIn registry store source).1 = .error ⟨source, .malformed f⟩ := by
    intro f hf
    change (compile registry source).result = _
    rw [compile_eq_trace, hf]
  refine ⟨fun hnone => ?_, fun e he => ?_, hflags⟩
  · have hfinish : (traceOf registry source).error? = none :=
      (syntaxErrorOf_trace registry source).symm.trans hnone
    cases hends with
    | finished finish complete taken =>
      refine ⟨taken ▸ tokenize_eq_all complete, hflags.eq_of_length ?_⟩
      rw [traceOf, expectations_length registry _ _ hfinish]
      change (traceOf registry source).taken.length = _
      rw [taken]
      cases hending : (scanOf registry source).ending with
      | error e => rw [hending] at complete; cases complete
      | ok n => simp [Scan.all, Scan.expectations, hending]
    | refused located error stop => rw [stop] at hfinish; cases hfinish
    | unscanned error stop => rw [stop] at hfinish; cases hfinish
  · have hscan := tokenize_eq_error_iff.mp he
    have hall : (scanOf registry source).all = (scanOf registry source).tokens := by
      rw [Scan.all, hscan]
    cases hends with
    | finished finish complete taken => rw [hscan] at complete; cases complete
    | refused located error stop further refusal =>
      rw [hall] at further
      obtain ⟨hhere, hbefore⟩ := index_of_refused hscan further refusal
      exact ⟨error, hmalformed error stop, by omega, .inr ⟨located, further, refusal⟩⟩
    | unscanned error stop incomplete taken =>
      rw [hscan] at incomplete
      cases incomplete
      exact ⟨e, hmalformed e stop, Nat.le_refl _, .inl rfl⟩

end GateFormula
