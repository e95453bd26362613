import GateFormula.Proofs.Holding.Values
import GateFormula.Proofs.Tracing
import Mathlib.Algebra.GroupWithZero.Nat

/-!
# Between two tokens

Between two tokens an assembly keeps the groupings that are not complete and the operators that
wait in them. `Assembly.Orderly` says how the groupings lie in the code and what may wait in each
of them. As long as no problem is noted, the code so far leaves one value on the stack for every
operator that has its left operand, for every argument that a comma has ended and for every
grouping that has its operand (`Assembly.Counted`). Every token that is taken keeps all this, so
that it holds of all states that a text leads to.
-/

namespace GateFormula

/-! ### Groupings between two tokens -/

/-- The number of values on the stack that a grouping waits to use: one for each operator that has
its left operand, one for each argument that a comma has ended, and one for an operand that is
complete. -/
def Grouping.held (g : Grouping) : Nat :=
  g.binaries.length + g.commas + if g.expectsOperand then 0 else 1

/-- What may wait in a grouping. -/
structure Grouping.Orderly (g : Grouping) : Prop where
  /-- Operators of one operand wait only where an operand is expected. -/
  unaries : g.unaries ≠ [] → g.expectsOperand = true
  /-- An operator of two operands binds tighter than those that have waited longer. -/
  ranks : g.binaries.Pairwise fun later earlier => later.rank < earlier.rank

namespace Assembly

/-- The groupings that are not complete, the innermost first. -/
def groupings (a : Assembly) : List Grouping :=
  a.current :: a.enclosing

/-- The number of values that all groupings hold. -/
def held (a : Assembly) : Nat :=
  (a.groupings.map Grouping.held).sum

/-- How the groupings of an assembly lie between two tokens. -/
structure Orderly (a : Assembly) : Prop where
  /-- In each grouping waits what may wait there. -/
  each : ∀ g ∈ a.groupings, g.Orderly
  /-- No grouping starts behind the code. -/
  start_le : ∀ g ∈ a.groupings, g.start ≤ a.code.size
  /-- No grouping starts behind one inside it. -/
  nested : a.groupings.Pairwise fun inner outer => outer.start ≤ inner.start
  /-- A grouping around another one waits for it as for an operand. -/
  around : ∀ g ∈ a.enclosing, g.expectsOperand = true
  /-- So does the innermost one where the name of a function has been read. -/
  called : a.pending.isSome = true → a.current.expectsOperand = true

/-- The number of values that the code so far leaves on an empty stack. -/
def leaves? (a : Assembly) : Option Nat :=
  heldAfter? 0 a.code.toList

/-- What holds as long as no problem is noted. -/
structure Counted (a : Assembly) : Prop where
  /-- The code leaves the values that the groupings hold. -/
  leaves : a.leaves? = some a.held
  /-- An operand that is complete has code. -/
  filled : a.current.expectsOperand = false → a.current.start < a.code.size
  /-- Calls whose arguments are open name functions. -/
  known : ∀ g ∈ a.groupings, ∀ callee commas, g.kind = .call callee commas →
    callee.function.isSome = true
  /-- So does a call whose arguments come next. -/
  called : ∀ callee, a.pending = some callee → callee.function.isSome = true

variable {registry : Registry} {a b : Assembly} {located : Located}

/-! ### How groupings lie -/

/-- Groupings lie as they did if only the innermost one changes and the code grows. -/
theorem Orderly.change (h : a.Orderly) (henclosing : b.enclosing = a.enclosing)
    (hstart : b.current.start = a.current.start) (hgrows : a.code.size ≤ b.code.size)
    (hcurrent : b.current.Orderly)
    (hcalled : b.pending.isSome = true → b.current.expectsOperand = true) : b.Orderly := by
  obtain ⟨hfirst, hnested⟩ := List.pairwise_cons.mp h.nested
  refine ⟨?_, ?_, ?_, henclosing ▸ h.around, hcalled⟩
  · rw [groupings, henclosing]
    exact List.forall_mem_cons.mpr ⟨hcurrent, fun g hg => h.each g (List.mem_cons_of_mem _ hg)⟩
  · rw [groupings, henclosing]
    refine List.forall_mem_cons.mpr ⟨?_, fun g hg => ?_⟩
    · rw [hstart]
      exact Nat.le_trans (h.start_le a.current List.mem_cons_self) hgrows
    · exact Nat.le_trans (h.start_le g (List.mem_cons_of_mem _ hg)) hgrows
  · rw [groupings, henclosing]
    exact List.pairwise_cons.mpr ⟨fun g hg => hstart ▸ hfirst g hg, hnested⟩

/-- Writing an instruction leaves the groupings alone. -/
theorem Orderly.emit (h : a.Orderly) (instruction : Instruction) :
    (a.emit instruction).Orderly := by
  have hgrows : a.code.size ≤ (a.emit instruction).code.size := by
    rw [Assembly.emit, Array.size_push]
    exact Nat.le_succ _
  exact h.change rfl rfl hgrows (h.each a.current List.mem_cons_self) h.called

/-- Calls of operators only add to the code. -/
theorem size_le_append_callsOf (code : Array Instruction) (operators : List Operator)
    (operands : Nat) : code.size ≤ (code ++ callsOf operators operands).size := by
  rw [← Array.length_toList, ← Array.length_toList, Array.toList_appendList, List.length_append]
  exact Nat.le_add_right _ _

/-- Completing an operand keeps the order. -/
theorem Orderly.completeOperand (h : a.Orderly) (free : a.pending = none) :
    a.completeOperand.Orderly := by
  have hcurrent : a.completeOperand.current.Orderly :=
    ⟨fun hne => absurd rfl hne, (h.each a.current List.mem_cons_self).ranks⟩
  refine h.change rfl rfl (size_le_append_callsOf _ _ _) hcurrent fun hpending => ?_
  change a.pending.isSome = true at hpending
  rw [free] at hpending
  cases hpending

/-- Releasing the operators that wait keeps the order. -/
theorem Orderly.release (h : a.Orderly) : a.release.Orderly :=
  h.change rfl rfl (size_le_append_callsOf _ _ _)
    ⟨(h.each a.current List.mem_cons_self).unaries, .nil⟩ h.called

/-- A grouping that opens where an operand is expected lies at the end of the code. -/
theorem Orderly.openGrouping (h : a.Orderly) (expects : a.current.expectsOperand = true)
    (kind : GroupingKind) (index : Nat) : (a.openGrouping kind index).Orderly := by
  refine ⟨?_, ?_, ?_, ?_, fun _ => rfl⟩
  · exact List.forall_mem_cons.mpr ⟨⟨fun _ => rfl, .nil⟩, h.each⟩
  · exact List.forall_mem_cons.mpr ⟨Nat.le_refl _, h.start_le⟩
  · exact List.pairwise_cons.mpr ⟨h.start_le, h.nested⟩
  · exact List.forall_mem_cons.mpr ⟨expects, h.around⟩

/-- The groupings around one that closes lie as they did. -/
theorem Orderly.close {outer : Grouping} {enclosing : List Grouping} (h : a.Orderly)
    (around : a.enclosing = outer :: enclosing) :
    Orderly { a with current := outer, enclosing } := by
  have hsuffix : ∀ g ∈ outer :: enclosing, g ∈ a.groupings := fun g hg =>
    List.mem_cons_of_mem _ (around ▸ hg)
  have haround := h.around
  have hnested := (List.pairwise_cons.mp h.nested).2
  rw [around] at haround hnested
  obtain ⟨houter, hfurther⟩ := List.forall_mem_cons.mp haround
  exact ⟨fun g hg => h.each g (hsuffix g hg), fun g hg => h.start_le g (hsuffix g hg), hnested,
    hfurther, fun _ => houter⟩

/-- Finishing a call keeps the order. -/
theorem Orderly.finishCall (h : a.Orderly) (callee : PendingCall) (count : Nat) :
    (a.finishCall callee count).Orderly := by
  unfold Assembly.finishCall
  split
  · exact h
  · split
    · exact h.emit _
    · exact ⟨h.each, h.start_le, h.nested, h.around, h.called⟩

/-- Every token that is taken keeps the order. -/
theorem Move.orderly (ha : a.Orderly) (h : a.Move registry located b) : b.Orderly := by
  have hcurrent : a.current.Orderly := ha.each a.current List.mem_cons_self
  cases h with
  | literal free | inlined free | constant free => exact (ha.emit _).completeOperand free
  | @load index name free =>
    have hmentioned : Orderly { a with mentioned := a.mentioned.push name } :=
      ⟨ha.each, ha.start_le, ha.nested, ha.around, ha.called⟩
    exact (hmentioned.emit _).completeOperand free
  | @unknownConstant index name free =>
    have hreport : (a.report (.unknownConstant name index)).Orderly :=
      ⟨ha.each, ha.start_le, ha.nested, ha.around, ha.called⟩
    exact (hreport.emit _).completeOperand free
  | callee free expects | unknownCallee free expects =>
    exact ha.change rfl rfl (Nat.le_refl _) hcurrent fun _ => expects
  | unary free expects =>
    exact ha.change rfl rfl (Nat.le_refl _) ⟨fun _ => expects, hcurrent.ranks⟩ fun _ => expects
  | @binary index symbol o =>
    have hranks := hcurrent.ranks.sublist (List.dropWhile_sublist (·.rank ≤ o.rank))
    have hlater : ∀ waiting ∈ a.current.binaries.dropWhile (·.rank ≤ o.rank),
        o.rank < waiting.rank := lt_of_mem_dropWhile hcurrent.ranks
    have hwaiting := List.pairwise_cons.mpr ⟨hlater, hranks⟩
    exact ha.change rfl rfl (size_le_append_callsOf _ _ _) ⟨fun _ => rfl, hwaiting⟩ fun _ => rfl
  | openCall pending => exact ha.openGrouping (ha.called (by rw [pending]; rfl)) _ _
  | openGroup free expects => exact ha.openGrouping expects _ _
  | comma =>
    have hrelease := ha.release
    exact hrelease.change rfl rfl (Nat.le_refl _) ⟨fun _ => rfl, .nil⟩ fun _ => rfl
  | closeGroup free kind complete filled around =>
    exact (ha.release.close around).completeOperand free
  | @closeCall index callee commas outer enclosing free kind complete around =>
    have hfinished := (ha.release.close around).finishCall callee (a.closedCount commas)
    exact hfinished.completeOperand ((pending_finishCall _ _ _).trans free)
  | finish => exact ha.release

/-! ### What groupings hold -/

/-- A grouping that expects an operand holds one value less than one that has it. -/
theorem held_of_expects {g : Grouping} (expects : g.expectsOperand = true) :
    g.held = g.binaries.length + g.commas := by
  rw [Grouping.held, expects, if_pos rfl, Nat.add_zero]

/-- A grouping that has its operand holds a value for it. -/
theorem held_of_complete {g : Grouping} (complete : g.expectsOperand = false) :
    g.held = g.binaries.length + g.commas + 1 := by
  rw [Grouping.held, complete, if_neg Bool.false_ne_true]

/-- The number of values that the groupings around the innermost one hold. -/
def heldAround (a : Assembly) : Nat :=
  (a.enclosing.map Grouping.held).sum

/-- The innermost grouping and those around it hold all values. -/
theorem held_eq (a : Assembly) : a.held = a.heldAround + a.current.held := by
  rw [held, groupings, List.map_cons, List.sum_cons, Nat.add_comm]
  rfl

/-- An instruction adds to what the code leaves. -/
theorem leaves?_emit {instruction : Instruction} {n m : Nat} (h : a.leaves? = some n)
    (hi : instruction.heldAfter? n = some m) : (a.emit instruction).leaves? = some m := by
  have hcode : (a.emit instruction).code.toList = a.code.toList ++ [instruction] :=
    Array.toList_push
  rw [leaves?, hcode, heldAfter?_append]
  change a.leaves?.bind _ = _
  rw [h, Option.bind_some, heldAfter?, List.foldlM_cons, hi]
  rfl

/-- Operators that wait for an operand leave its value changed. -/
theorem leaves?_completeOperand {n : Nat} (h : a.leaves? = some (n + 1)) :
    a.completeOperand.leaves? = some (n + 1) := by
  rw [leaves?, completeOperand, Array.toList_appendList, heldAfter?_append]
  change a.leaves?.bind _ = _
  rw [h, Option.bind_some, heldAfter?_unaries]

/-- Operators of two operands that are written join their operands. -/
theorem leaves?_append_binaries {n : Nat} {operators : List Operator}
    (h : a.leaves? = some (n + operators.length + 1)) :
    heldAfter? 0 (a.code ++ callsOf operators 2).toList = some (n + 1) := by
  rw [Array.toList_appendList, heldAfter?_append]
  change a.leaves?.bind _ = _
  rw [h, Option.bind_some, heldAfter?_binaries]

/-- What is left once the operators of a grouping that has its operand are released. -/
theorem leaves?_release (ha : a.Counted) (complete : a.current.expectsOperand = false) :
    a.release.leaves? = some (a.heldAround + a.current.commas + 1) := by
  refine leaves?_append_binaries ?_
  rw [ha.leaves, held_eq, held_of_complete complete]
  exact congrArg some (by omega)

/-- A count that is right for the innermost grouping is right if nothing else changes. -/
theorem Counted.change (ha : a.Counted) (henclosing : b.enclosing = a.enclosing)
    (hpending : b.pending = a.pending)
    (hleaves : b.leaves? = some (a.heldAround + b.current.held))
    (hfilled : b.current.expectsOperand = false → b.current.start < b.code.size)
    (hknown : ∀ callee commas, b.current.kind = .call callee commas →
      callee.function.isSome = true) : b.Counted := by
  refine ⟨?_, hfilled, ?_, hpending ▸ ha.called⟩
  · rw [hleaves, held_eq, heldAround, heldAround, henclosing]
  · rw [groupings, henclosing]
    exact List.forall_mem_cons.mpr ⟨hknown, fun g hg => ha.known g (List.mem_cons_of_mem _ hg)⟩

/-- An operand that is complete is one value more. -/
theorem Counted.complete (hleaves : a.leaves? = some (a.held + 1))
    (expects : a.current.expectsOperand = true) (hfilled : a.current.start < a.code.size)
    (hknown : ∀ g ∈ a.groupings, ∀ callee commas, g.kind = .call callee commas →
      callee.function.isSome = true) (free : a.pending = none) : a.completeOperand.Counted := by
  have hheld : a.completeOperand.held = a.held + 1 := by
    have hcurrent : a.completeOperand.current.held =
        a.current.binaries.length + a.current.commas + 1 := held_of_complete rfl
    rw [held_eq, held_eq, hcurrent, held_of_expects expects]
    rfl
  refine ⟨?_, fun _ => ?_, ?_, fun callee hpending => ?_⟩
  · rw [hheld]
    exact leaves?_completeOperand hleaves
  · exact Nat.lt_of_lt_of_le hfilled (size_le_append_callsOf _ _ _)
  · exact List.forall_mem_cons.mpr ⟨hknown a.current List.mem_cons_self,
      fun g hg => hknown g (List.mem_cons_of_mem _ hg)⟩
  · change a.pending = some callee at hpending
    rw [free] at hpending
    cases hpending

/-- So it is where a number or a variable is read. -/
theorem Counted.emit (ho : a.Orderly) (ha : a.Counted) (free : a.pending = none)
    (expects : a.current.expectsOperand = true) {instruction : Instruction}
    (hi : ∀ n, instruction.heldAfter? n = some (n + 1)) :
    (a.emit instruction).completeOperand.Counted := by
  refine Counted.complete ?_ expects ?_ ha.known free
  · exact leaves?_emit ha.leaves (hi _)
  · have hstart := ho.start_le a.current List.mem_cons_self
    rw [Assembly.emit, Array.size_push]
    exact Nat.lt_succ_of_le hstart

/-- A problem that is noted stays. -/
theorem report_ne_clean (problem : Problem) : (a.report problem).problems ≠ #[] :=
  Array.push_ne_empty

/-- A call that is finished without a problem is written. -/
theorem finishCall_of_clean {callee : PendingCall} {count : Nat}
    (known : callee.function.isSome = true) (clean : (a.finishCall callee count).problems = #[]) :
    ∃ function, a.finishCall callee count = a.emit (.call function count) := by
  obtain ⟨function, hfunction⟩ := Option.isSome_iff_exists.mp known
  unfold Assembly.finishCall at clean ⊢
  simp only [hfunction] at clean ⊢
  split at clean
  next haccepts => exact ⟨function, if_pos haccepts⟩
  · exact absurd clean (report_ne_clean _)

/-- Finishing a call drops no problem. -/
theorem clean_of_finishCall {callee : PendingCall} {count : Nat}
    (clean : (a.finishCall callee count).problems = #[]) : a.problems = #[] := by
  unfold Assembly.finishCall at clean
  split at clean
  · exact clean
  · split at clean
    · exact clean
    · exact absurd clean (report_ne_clean _)

/-- Where no problem is noted behind a token, none was before it. -/
theorem Move.clean (h : a.Move registry located b) (clean : b.problems = #[]) :
    a.problems = #[] := by
  cases h with
  | literal | inlined | load | constant | callee | unary | binary | openCall | openGroup | comma
  | closeGroup | finish => exact clean
  | unknownConstant | unknownCallee => exact absurd clean (report_ne_clean _)
  | @closeCall index callee commas outer enclosing =>
    exact clean_of_finishCall (a := { a.release with current := outer, enclosing }) clean

/-- What is left at the end of an argument list are the values around it and the arguments. -/
theorem leaves?_closed (ha : a.Counted) {callee : PendingCall} {commas : Nat}
    (kind : a.current.kind = .call callee commas)
    (complete : a.current.isEmpty a.code.size = true ∨ a.current.expectsOperand = false) :
    a.release.leaves? = some (a.heldAround + a.closedCount commas) := by
  have hcommas : a.current.commas = commas := by rw [Grouping.commas, kind]
  cases hempty : a.current.isEmpty a.code.size with
  | false =>
    have hcomplete : a.current.expectsOperand = false :=
      complete.resolve_left (by rw [hempty]; exact Bool.false_ne_true)
    rw [leaves?_release ha hcomplete, closedCount, hempty, hcommas]
    rfl
  | true =>
    have hnothing := hempty
    simp only [Grouping.isEmpty, Bool.and_eq_true, decide_eq_true_eq, List.isEmpty_iff] at hnothing
    obtain ⟨⟨⟨hsize, -⟩, hbinaries⟩, hnone⟩ := hnothing
    -- An operand that is complete would have code.
    have expects : a.current.expectsOperand = true := by
      by_contra hcomplete
      have hfilled := ha.filled (eq_false_of_ne_true hcomplete)
      omega
    have hcode : a.release.code.toList = a.code.toList := by
      rw [release, Array.toList_appendList, hbinaries]
      exact List.append_nil _
    rw [leaves?, hcode, closedCount, hempty]
    change a.leaves? = _
    rw [ha.leaves, held_eq, held_of_expects expects, hbinaries, hnone]
    rfl

/-- A grouping that opens holds nothing yet. -/
theorem Counted.openGrouping (ha : a.Counted) {kind : GroupingKind} {index : Nat}
    (hkind : ∀ callee commas, kind = .call callee commas →
      commas = 0 ∧ callee.function.isSome = true) : (a.openGrouping kind index).Counted := by
  have hcommas : (a.openGrouping kind index).current.commas = 0 := by
    change Grouping.commas { kind, index, start := a.code.size } = 0
    rw [Grouping.commas]
    cases kind with
    | root | group => rfl
    | call callee commas => exact (hkind callee commas rfl).1
  have hheld : (a.openGrouping kind index).held = a.held := by
    rw [held_eq, held_of_expects rfl, hcommas]
    rfl
  refine ⟨?_, fun hcomplete => ?_, ?_, fun callee hpending => ?_⟩
  · rw [hheld]
    exact ha.leaves
  · cases hcomplete
  · exact List.forall_mem_cons.mpr ⟨fun callee commas h => (hkind callee commas h).2, ha.known⟩
  · cases hpending

/-- An operator of two operands that comes after an operand takes its value and those of the
operators before it that bind as tightly. -/
theorem leaves?_binary (ha : a.Counted) (complete : a.current.expectsOperand = false)
    (o : Operator) :
    heldAfter? 0 (a.code ++ callsOf (a.current.binaries.takeWhile (·.rank ≤ o.rank)) 2).toList =
      some (a.heldAround + a.current.commas +
        (a.current.binaries.dropWhile (·.rank ≤ o.rank)).length + 1) := by
  refine leaves?_append_binaries ?_
  have hlength := congrArg List.length
    (List.takeWhile_append_dropWhile (p := (·.rank ≤ o.rank)) (l := a.current.binaries))
  rw [List.length_append] at hlength
  rw [ha.leaves, held_eq, held_of_complete complete]
  exact congrArg some (by omega)

/-- What the groupings around the innermost one hold is what all hold once it is closed. -/
theorem heldAround_of_around {outer : Grouping} {enclosing : List Grouping}
    (around : a.enclosing = outer :: enclosing) :
    a.heldAround = held { a.release with current := outer, enclosing } := by
  rw [heldAround, around]
  rfl

/-- The groupings around one that closes have known calls. -/
theorem Counted.known_around (ha : a.Counted) {outer : Grouping} {enclosing : List Grouping}
    (around : a.enclosing = outer :: enclosing) :
    ∀ g ∈ outer :: enclosing, ∀ callee commas, g.kind = .call callee commas →
      callee.function.isSome = true :=
  fun g hg => ha.known g (List.mem_cons_of_mem _ (around ▸ hg))

/-- An operator of two operands waits behind its left operand, which holds a value. -/
theorem Counted.binary (ha : a.Counted) (complete : a.current.expectsOperand = false)
    (o : Operator) :
    Counted
      { a with
        code := a.code ++ callsOf (a.current.binaries.takeWhile (·.rank ≤ o.rank)) 2
        current :=
          { a.current with
            binaries := o :: a.current.binaries.dropWhile (·.rank ≤ o.rank)
            expectsOperand := true } } := by
  refine ha.change rfl rfl ?_ (fun hcomplete => (nomatch hcomplete))
    (ha.known a.current List.mem_cons_self)
  let waiting := a.current.binaries.dropWhile (·.rank ≤ o.rank)
  rw [leaves?, leaves?_binary ha complete, held_of_expects rfl]
  change some (a.heldAround + a.current.commas + waiting.length + 1) =
    some (a.heldAround + (waiting.length + 1 + a.current.commas))
  exact congrArg some (by omega)

/-- An argument that a comma completes holds a value. -/
theorem Counted.comma (ha : a.Counted) {callee : PendingCall} {commas : Nat}
    (kind : a.current.kind = .call callee commas) (complete : a.current.expectsOperand = false) :
    Counted
      { a.release with
        current :=
          { a.release.current with
            kind := .call callee (commas + 1)
            expectsOperand := true } } := by
  have hcommas : a.current.commas = commas := by rw [Grouping.commas, kind]
  refine ha.change rfl rfl ?_ (fun hcomplete => (nomatch hcomplete)) fun _ _ hkind => ?_
  · change a.release.leaves? = _
    rw [leaves?_release ha complete, held_of_expects rfl, hcommas]
    change some (a.heldAround + commas + 1) = some (a.heldAround + (0 + (commas + 1)))
    exact congrArg some (by omega)
  · cases hkind
    exact ha.known a.current List.mem_cons_self _ _ kind

/-- A formula in parentheses is an operand of the grouping around it. -/
theorem Counted.closeGroup (ho : a.Orderly) (ha : a.Counted) {outer : Grouping}
    {enclosing : List Grouping} (free : a.pending = none) (kind : a.current.kind = .group)
    (complete : a.current.expectsOperand = false) (around : a.enclosing = outer :: enclosing) :
    Counted (completeOperand { a.release with current := outer, enclosing }) := by
  have hmem : outer ∈ a.enclosing := around ▸ List.mem_cons_self
  have hcommas : a.current.commas = 0 := by rw [Grouping.commas, kind]
  have hstart : outer.start ≤ a.current.start := List.rel_of_pairwise_cons ho.nested hmem
  have hgrows : a.code.size ≤ a.release.code.size := size_le_append_callsOf _ _ _
  refine Counted.complete ?_ (ho.around outer hmem) ?_ (ha.known_around around) free
  · change a.release.leaves? = _
    rw [leaves?_release ha complete, hcommas, heldAround_of_around around]
  · exact Nat.lt_of_le_of_lt hstart (Nat.lt_of_lt_of_le (ha.filled complete) hgrows)

/-- So is a call that is finished without a problem: its arguments become one value. -/
theorem Counted.closeCall (ho : a.Orderly) (ha : a.Counted) {callee : PendingCall} {commas : Nat}
    {outer : Grouping} {enclosing : List Grouping} (free : a.pending = none)
    (kind : a.current.kind = .call callee commas)
    (complete : a.current.isEmpty a.code.size = true ∨ a.current.expectsOperand = false)
    (around : a.enclosing = outer :: enclosing)
    (clean : (finishCall { a.release with current := outer, enclosing } callee
      (a.closedCount commas)).problems = #[]) :
    Counted (finishCall { a.release with current := outer, enclosing } callee
      (a.closedCount commas)).completeOperand := by
  have hmem : outer ∈ a.enclosing := around ▸ List.mem_cons_self
  have hknown := ha.known a.current List.mem_cons_self callee commas kind
  obtain ⟨function, hfinish⟩ := finishCall_of_clean hknown clean
  have hcall : (Instruction.call function (a.closedCount commas)).heldAfter?
      (a.heldAround + a.closedCount commas) = some (a.heldAround + 1) := by
    rw [Instruction.heldAfter?, if_pos (Nat.le_add_left _ _), Nat.add_sub_cancel]
  rw [hfinish]
  refine Counted.complete ?_ (ho.around outer hmem) ?_ (ha.known_around around) free
  · have hleaves := leaves?_emit (a := { a.release with current := outer, enclosing })
      (leaves?_closed ha kind complete) hcall
    rw [hleaves, heldAround_of_around around]
    rfl
  · have hgrows : a.code.size ≤ a.release.code.size := size_le_append_callsOf _ _ _
    have hstart : outer.start ≤ a.code.size := ho.start_le outer (List.mem_cons_of_mem _ hmem)
    change outer.start < (a.release.code.push _).size
    rw [Array.size_push]
    omega

/-- At the end of a text the whole formula is a value. -/
theorem Counted.release (ha : a.Counted) (complete : a.current.expectsOperand = false) :
    a.release.Counted := by
  have hcomplete : a.release.current.expectsOperand = false := complete
  have hgrows : a.code.size ≤ a.release.code.size := size_le_append_callsOf _ _ _
  refine ha.change rfl rfl ?_ (fun _ => Nat.lt_of_lt_of_le (ha.filled complete) hgrows)
    (ha.known a.current List.mem_cons_self)
  rw [leaves?_release ha complete, held_of_complete hcomplete]
  change some (a.heldAround + a.current.commas + 1) =
    some (a.heldAround + (0 + a.current.commas + 1))
  exact congrArg some (by omega)

/-- Every token that is taken without a problem keeps the count. -/
theorem Move.counted (ho : a.Orderly) (hcounted : a.problems = #[] → a.Counted)
    (h : a.Move registry located b) (clean : b.problems = #[]) : b.Counted := by
  have ha : a.Counted := hcounted (h.clean clean)
  cases h with
  | literal free expects | inlined free expects | constant free expects =>
    exact ha.emit ho free expects fun _ => rfl
  | @load index name free expects =>
    have hmentioned : Counted { a with mentioned := a.mentioned.push name } :=
      ⟨ha.leaves, ha.filled, ha.known, ha.called⟩
    have horderly : Orderly { a with mentioned := a.mentioned.push name } :=
      ⟨ho.each, ho.start_le, ho.nested, ho.around, ho.called⟩
    exact hmentioned.emit horderly free expects fun _ => rfl
  | unknownConstant | unknownCallee => exact absurd clean (report_ne_clean _)
  | callee =>
    refine ⟨ha.leaves, ha.filled, ha.known, fun callee hpending => ?_⟩
    cases hpending
    rfl
  | unary =>
    have hleaves : a.leaves? = some (a.heldAround + a.current.held) := held_eq a ▸ ha.leaves
    exact ha.change rfl rfl hleaves ha.filled (ha.known a.current List.mem_cons_self)
  | @binary index symbol o free complete => exact ha.binary complete o
  | @openCall index callee pending =>
    refine ha.openGrouping fun other commas hkind => ?_
    cases hkind
    exact ⟨rfl, ha.called callee pending⟩
  | openGroup => exact ha.openGrouping fun callee commas hkind => (nomatch hkind)
  | comma free kind complete => exact ha.comma kind complete
  | closeGroup free kind complete filled around => exact ha.closeGroup ho free kind complete around
  | closeCall free kind complete around => exact ha.closeCall ho free kind complete around clean
  | finish free complete => exact ha.release complete

end Assembly

/-! ### Calls that are accepted -/

/-- The calls of the operators that wait in a grouping. -/
def Grouping.calls (g : Grouping) : List Instruction :=
  Assembly.callsOf g.unaries 1 ++ Assembly.callsOf g.binaries 2

namespace Assembly

variable {registry : Registry} {a b : Assembly} {located : Located}

/-- The code so far and the calls that wait to be written. -/
def instructions (a : Assembly) : List Instruction :=
  a.code.toList ++ a.groupings.flatMap Grouping.calls

/-- An instruction is written, or it waits in the innermost grouping or in one around it. -/
theorem mem_instructions {instruction : Instruction} :
    instruction ∈ a.instructions ↔
      instruction ∈ a.code.toList ∨ instruction ∈ callsOf a.current.unaries 1 ∨
        instruction ∈ callsOf a.current.binaries 2 ∨
          instruction ∈ a.enclosing.flatMap Grouping.calls := by
  rw [instructions, groupings, List.flatMap_cons, Grouping.calls, List.mem_append, List.mem_append,
    List.mem_append, or_assoc]

/-- Completing an operand writes what has waited. -/
theorem instructions_completeOperand (a : Assembly) :
    a.completeOperand.instructions ⊆ a.instructions := by
  intro instruction h
  rw [mem_instructions, completeOperand, Array.toList_appendList, List.mem_append] at h
  rw [mem_instructions]
  have hnone : instruction ∉ callsOf [] 1 := List.not_mem_nil
  tauto

/-- So does releasing the operators of two operands. -/
theorem instructions_release (a : Assembly) : a.release.instructions ⊆ a.instructions := by
  intro instruction h
  rw [mem_instructions, release, Array.toList_appendList, List.mem_append] at h
  rw [mem_instructions]
  have hnone : instruction ∉ callsOf [] 2 := List.not_mem_nil
  tauto

/-- Writing an instruction adds it to the others. -/
theorem instructions_emit (a : Assembly) (added : Instruction) :
    (a.emit added).instructions ⊆ added :: a.instructions := by
  intro instruction h
  rw [mem_instructions, emit, Array.toList_push, List.mem_append, List.mem_singleton] at h
  rw [List.mem_cons, mem_instructions]
  tauto

/-- Closing a grouping in which nothing waits keeps the instructions around it. -/
theorem instructions_close (a : Assembly) {outer : Grouping} {enclosing : List Grouping}
    (around : a.enclosing = outer :: enclosing) :
    instructions { a with current := outer, enclosing } ⊆ a.instructions := by
  intro instruction h
  rw [instructions, groupings, around, List.flatMap_cons, List.mem_append, List.mem_append]
  rw [instructions, groupings, List.mem_append] at h
  exact h.imp_right .inr

/-- Whether all calls are accepted, those included that wait to be written. -/
def Accepts (a : Assembly) : Prop :=
  ∀ instruction ∈ a.instructions, instruction.isAccepted = true

/-- Instructions that were there before are accepted as before. -/
theorem Accepts.subset (ha : a.Accepts) (h : b.instructions ⊆ a.instructions) : b.Accepts :=
  fun instruction hi => ha instruction (h hi)

/-- One more instruction that is accepted. -/
theorem Accepts.cons (ha : a.Accepts) {added : Instruction} (hadded : added.isAccepted = true)
    (h : b.instructions ⊆ added :: a.instructions) : b.Accepts := by
  intro instruction hi
  rcases List.mem_cons.mp (h hi) with rfl | hbefore
  · exact hadded
  · exact ha instruction hbefore

/-- An operand without a call is accepted. -/
theorem Accepts.operand (ha : a.Accepts) {added : Instruction} (hadded : added.isAccepted = true) :
    (a.emit added).completeOperand.Accepts :=
  (ha.cons hadded (instructions_emit a added)).subset (instructions_completeOperand _)

/-- A call is finished only if it is accepted. -/
theorem Accepts.finishCall (ha : a.Accepts) (callee : PendingCall) (count : Nat) :
    (a.finishCall callee count).Accepts := by
  unfold Assembly.finishCall
  split
  · exact ha
  · split
    next function _ haccepts =>
      have hadded : (Instruction.call function count).isAccepted = true := haccepts
      exact ha.cons hadded (instructions_emit a _)
    · exact ha

/-- Every call that a token adds is accepted, if the registry is one that a host can build. -/
theorem Move.accepts (reachable : registry.Reachable) (ha : a.Accepts)
    (h : a.Move registry located b) : b.Accepts := by
  cases h with
  | literal | inlined | constant => exact ha.operand rfl
  | @load index name =>
    have hmentioned : Accepts { a with mentioned := a.mentioned.push name } := ha
    exact hmentioned.operand rfl
  | @unknownConstant index name =>
    have hreport : (a.report (.unknownConstant name index)).Accepts := ha
    exact hreport.operand rfl
  | callee | unknownCallee => exact ha
  | @unary index symbol o free expects known unary =>
    have haccepts : (Instruction.call o.function 1).isAccepted = true :=
      (reachable.allowed known).accepts_one unary
    refine ha.cons haccepts fun instruction h => ?_
    have hcons : callsOf (o :: a.current.unaries) 1 =
        .call o.function 1 :: callsOf a.current.unaries 1 := rfl
    rw [mem_instructions, hcons, List.mem_cons] at h
    rw [List.mem_cons, mem_instructions]
    tauto
  | @binary index symbol o free complete known binary =>
    have haccepts : (Instruction.call o.function 2).isAccepted = true :=
      (reachable.allowed known).accepts_two binary
    refine ha.cons haccepts fun instruction h => ?_
    let ready := a.current.binaries.takeWhile (·.rank ≤ o.rank)
    let waiting := a.current.binaries.dropWhile (·.rank ≤ o.rank)
    have hsplit : callsOf a.current.binaries 2 = callsOf ready 2 ++ callsOf waiting 2 := by
      rw [callsOf, callsOf, callsOf, ← List.map_append, List.takeWhile_append_dropWhile]
    have hcons : callsOf (o :: waiting) 2 = .call o.function 2 :: callsOf waiting 2 := rfl
    rw [mem_instructions, hcons, Array.toList_appendList, List.mem_append, List.mem_cons] at h
    rw [List.mem_cons, mem_instructions, hsplit, List.mem_append]
    tauto
  | openCall | openGroup => exact ha
  | comma => exact ha.subset (instructions_release a)
  | closeGroup free kind complete filled around =>
    have hclosed := (ha.subset (instructions_release a)).subset (instructions_close _ around)
    exact hclosed.subset (instructions_completeOperand _)
  | @closeCall index callee commas outer enclosing free kind complete around =>
    have hclosed := (ha.subset (instructions_release a)).subset (instructions_close _ around)
    exact (hclosed.finishCall callee (a.closedCount commas)).subset
      (instructions_completeOperand _)
  | finish => exact ha.subset (instructions_release a)

/-! ### All states of a text -/

/-- The states that a text leads to: that before its first token and that behind each token that
is taken. -/
def Reached (registry : Registry) (source : String) (a : Assembly) : Prop :=
  ∃ row, row <+: (traceOf registry source).taken ∧ takeAll (take registry) .initial row = (a, none)

/-- What holds before the first token, and behind every token that is taken if it holds before
it, holds in every state that a text leads to. -/
theorem Reached.induction {source : String} {motive : Assembly → Prop}
    (h : Reached registry source a) (initial : motive .initial)
    (move : ∀ c located d, motive c → c.Move registry located d → motive d) : motive a := by
  obtain ⟨row, -, hrow⟩ := h
  exact takeAll_induction (motive := fun _ => motive) initial
    (fun _ c located d hc hd => move c located d hc (take_eq_ok_iff.mp hd)) hrow

/-- Before the first token there is the whole formula only, which expects an operand. -/
theorem initial_orderly : Orderly .initial := by
  have heach : ∀ g ∈ groupings .initial, g.Orderly ∧ g.start ≤ 0 := by
    intro g hg
    cases List.mem_singleton.mp hg
    exact ⟨⟨fun _ => rfl, .nil⟩, Nat.le_refl _⟩
  exact ⟨fun g hg => (heach g hg).1, fun g hg => (heach g hg).2, List.pairwise_singleton _ _,
    fun g hg => absurd hg List.not_mem_nil, fun _ => rfl⟩

/-- Before the first token there is neither code nor a call. -/
theorem initial_counted : Counted .initial := by
  refine ⟨rfl, fun hcomplete => ?_, fun g hg callee commas hkind => ?_, fun callee h => ?_⟩
  · cases hcomplete
  · cases List.mem_singleton.mp hg
    cases hkind
  · cases h

/-- The groupings lie in order in every state, and as long as no problem is noted the code leaves
what they hold. -/
theorem Reached.orderly_counted {source : String} (h : Reached registry source a) :
    a.Orderly ∧ (a.problems = #[] → a.Counted) := by
  refine h.induction (motive := fun a => a.Orderly ∧ (a.problems = #[] → a.Counted)) ?_ ?_
  · exact ⟨initial_orderly, fun _ => initial_counted⟩
  · rintro c located d ⟨horderly, hcounted⟩ hmove
    exact ⟨hmove.orderly horderly, hmove.counted horderly hcounted⟩

/-- Every call is accepted in every state, if the registry is one that a host can build. -/
theorem Reached.accepts {source : String} (h : Reached registry source a)
    (reachable : registry.Reachable) : a.Accepts := by
  refine h.induction (fun instruction hi => ?_) fun _ _ _ ha hmove => hmove.accepts reachable ha
  exact absurd hi List.not_mem_nil

end Assembly

/-- In every state between two tokens of a text the groupings lie in order: none starts behind the
code or behind one inside it, operators of one operand wait only where an operand is expected, and
the operators of two operands that wait in a grouping bind tighter the later they came. As long as
no problem is noted, the code so far leaves as many values as the groupings hold. A run of it, in
whatever store, comes to no call that finds too few values, and if it comes to its end it has left
as many; with a registry that a host can build nothing but a refusal stops it. -/
theorem code_leaves_held {registry : Registry} {source : String} {a : Assembly}
    (reached : Assembly.Reached registry source a) :
    a.Orderly ∧
    (a.problems = #[] →
      heldAfter? 0 a.code.toList = some a.held ∧
      ∀ store,
        (∀ before function count after stack,
          a.code.toList = before ++ .call function count :: after →
          Machine.run store [] before = .ok stack → count ≤ stack.length) ∧
        (∀ stack, Machine.run store [] a.code.toList = .ok stack → stack.length = a.held) ∧
        (registry.Reachable → Machine.run store [] a.code.toList ≠ .error .unbalanced)) := by
  obtain ⟨horderly, hcounted⟩ := reached.orderly_counted
  refine ⟨horderly, fun clean => ?_⟩
  have hleaves : heldAfter? ([] : List Float).length a.code.toList = some a.held :=
    (hcounted clean).leaves
  refine ⟨hleaves, fun store => ⟨?_, fun stack hrun => ?_, fun reachable => ?_⟩⟩
  · intro before function count after stack hcode hrun
    rw [hcode] at hleaves
    exact count_le_of_heldAfter? hleaves hrun
  · rw [heldAfter?_of_run hrun] at hleaves
    exact Option.some.inj hleaves
  · have haccepted : ∀ instruction ∈ a.code.toList, instruction.isAccepted = true :=
      fun instruction hi => reached.accepts reachable instruction (List.mem_append_left _ hi)
    exact (run_of_depthAfter? store (depthAfter?_of_heldAfter? hleaves haccepted)).1

/-- A text that ends in the second argument of a call: the call waits for it, and two operators
around the call wait for the call. The negation in front has found its value. -/
theorem code_leaves_held_open_call :
    ∃ a store, Assembly.Reached .builtin "$a$ + !$b$ * max($c$, !" a ∧ a.problems = #[] ∧
      a.held = 3 ∧ a.Orderly ∧ heldAfter? 0 a.code.toList = some 3 ∧
      (∃ before function count after stack,
        a.code.toList = before ++ .call function count :: after ∧
          Machine.run store [] before = .ok stack ∧ count ≤ stack.length) ∧
      (∃ stack, Machine.run store [] a.code.toList = .ok stack ∧ stack.length = 3) ∧
      Registry.builtin.Reachable ∧ Machine.run store [] a.code.toList ≠ .error .unbalanced := by
  let t := traceOf .builtin "$a$ + !$b$ * max($c$, !"
  let store := Store.empty.declareAll ["a", "b", "c"]
  have hreached : Assembly.Reached .builtin "$a$ + !$b$ * max($c$, !" t.final :=
    ⟨t.taken, List.prefix_rfl, takeAll_taken _⟩
  have hempty : t.final.problems.isEmpty = true := by decide +kernel
  have hclean : t.final.problems = #[] := Array.isEmpty_iff.mp hempty
  have hheld : t.final.held = 3 := by decide +kernel
  have hfront : (Machine.run store [] (t.final.code.toList.take 2)).isOk = true := by
    decide +kernel
  have hwhole : (Machine.run store [] t.final.code.toList).isOk = true := by decide +kernel
  have hthird : (t.final.code.toList.drop 2).head?.bind (Instruction.heldAfter? 1) = some 1 := by
    decide +kernel
  obtain ⟨horderly, hcode⟩ := code_leaves_held hreached
  obtain ⟨hleaves, hruns⟩ := hcode hclean
  obtain ⟨hfinds, hends, hbalanced⟩ := hruns store
  refine ⟨t.final, store, hreached, hclean, hheld, horderly, hheld ▸ hleaves, ?_, ?_, .builtin,
    hbalanced .builtin⟩
  · obtain ⟨instruction, hhead, hone⟩ := Option.bind_eq_some_iff.mp hthird
    obtain ⟨after, hdrop⟩ := List.head?_eq_some_iff.mp hhead
    have hsplit : t.final.code.toList = t.final.code.toList.take 2 ++ instruction :: after := by
      rw [← hdrop, List.take_append_drop]
    cases hrun : Machine.run store [] (t.final.code.toList.take 2) with
    | error fault =>
      rw [hrun] at hfront
      cases hfront
    | ok stack =>
      cases instruction with
      | push | load => cases hone
      | call function count =>
        exact ⟨_, _, _, _, stack, hsplit, hrun, hfinds _ _ _ _ stack hsplit hrun⟩
  · cases hrun : Machine.run store [] t.final.code.toList with
    | error fault =>
      rw [hrun] at hwhole
      cases hwhole
    | ok stack => exact ⟨stack, rfl, hheld ▸ hends stack hrun⟩

end GateFormula
