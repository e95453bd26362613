import GateFormula.Proofs.Balance

/-!
# Counting values

How many values code leaves can be told without running it: an instruction adds one value, and a
call takes as many as it has arguments before that. `heldAfter?` tells it and fails where a call
would find too few. Unlike `depthAfter?` it does not ask whether the function of a call accepts the
arguments, so that it can be told of code whose calls are still to be checked.
-/

namespace GateFormula

/-! ### Code -/

/-- The number of values after an instruction that starts with `held` values; a call has to find
as many as it takes. -/
def Instruction.heldAfter? (held : Nat) : Instruction → Option Nat
  | .push _ | .load _ => some (held + 1)
  | .call _ count => if count ≤ held then some (held - count + 1) else none

/-- The number of values after code that starts with `held` values. -/
def heldAfter? (held : Nat) (code : List Instruction) : Option Nat :=
  code.foldlM Instruction.heldAfter? held

/-- Code after code. -/
theorem heldAfter?_append (held : Nat) (xs ys : List Instruction) :
    heldAfter? held (xs ++ ys) = (heldAfter? held xs).bind (heldAfter? · ys) :=
  List.foldlM_append

/-- Operators of one operand change the topmost value only. -/
theorem heldAfter?_unaries (held : Nat) (operators : List Operator) :
    heldAfter? (held + 1) (Assembly.callsOf operators 1) = some (held + 1) := by
  induction operators with
  | nil => rfl
  | cons o operators ih =>
    have hfirst : (Instruction.call o.function 1).heldAfter? (held + 1) = some (held + 1) := by
      rw [Instruction.heldAfter?, if_pos (Nat.le_add_left 1 held), Nat.add_sub_cancel]
    rw [Assembly.callsOf, List.map_cons, heldAfter?, List.foldlM_cons, hfirst]
    exact ih

/-- Each operator of two operands leaves one value less. -/
theorem heldAfter?_binaries (held : Nat) (operators : List Operator) :
    heldAfter? (held + operators.length + 1) (Assembly.callsOf operators 2) = some (held + 1) := by
  induction operators with
  | nil => rfl
  | cons o operators ih =>
    have hfirst : (Instruction.call o.function 2).heldAfter? (held + (o :: operators).length + 1) =
        some (held + operators.length + 1) := by
      rw [List.length_cons, Instruction.heldAfter?, if_pos (by omega)]
      exact congrArg some (by omega)
    rw [Assembly.callsOf, List.map_cons, heldAfter?, List.foldlM_cons, hfirst]
    exact ih

/-! ### Runs -/

section

variable {store : Store} {stack final : List Float}

/-- An instruction that succeeds leaves as many values as were told. -/
theorem heldAfter?_of_step {instruction : Instruction}
    (h : Machine.step store stack instruction = .ok final) :
    instruction.heldAfter? stack.length = some final.length := by
  cases instruction with
  | push value =>
    cases h
    rfl
  | load name =>
    simp only [Machine.step] at h
    split at h <;> cases h
    rfl
  | call function count =>
    simp only [Machine.step, Machine.apply] at h
    split at h
    next hcount =>
      split at h
      · cases h
      · split at h <;> cases h
        rw [Instruction.heldAfter?, if_pos hcount, List.length_cons, List.length_drop]
    · cases h

/-- So does code that runs to its end. -/
theorem heldAfter?_of_run {code : List Instruction}
    (h : Machine.run store stack code = .ok final) :
    heldAfter? stack.length code = some final.length := by
  induction code generalizing stack with
  | nil =>
    cases h
    rfl
  | cons instruction code ih =>
    rw [Machine.run] at h
    cases hs : Machine.step store stack instruction with
    | error fault =>
      rw [hs] at h
      cases h
    | ok between =>
      rw [hs] at h
      rw [heldAfter?, List.foldlM_cons, heldAfter?_of_step hs]
      exact ih h

/-- A call that a run comes to finds as many values as it takes. -/
theorem count_le_of_heldAfter? {before after : List Instruction} {function : Signature}
    {count held : Nat}
    (h : heldAfter? stack.length (before ++ .call function count :: after) = some held)
    (hrun : Machine.run store stack before = .ok final) : count ≤ final.length := by
  rw [heldAfter?_append, heldAfter?_of_run hrun, Option.bind_some, heldAfter?,
    List.foldlM_cons] at h
  obtain ⟨next, hnext, -⟩ := Option.bind_eq_some_iff.mp h
  rw [Instruction.heldAfter?] at hnext
  split at hnext
  next hcount => exact hcount
  · cases hnext

end

/-! ### Calls that are accepted -/

/-- Whether the function of a call accepts its arguments. -/
def Instruction.isAccepted : Instruction → Bool
  | .push _ | .load _ => true
  | .call function count => function.accepts count

/-- Code in which every call is accepted keeps to the depth of its values. -/
theorem depthAfter?_of_heldAfter? {code : List Instruction} {held depth : Nat}
    (h : heldAfter? held code = some depth)
    (accepted : ∀ instruction ∈ code, instruction.isAccepted = true) :
    depthAfter? held code = some depth := by
  induction code generalizing held with
  | nil => exact h
  | cons instruction code ih =>
    obtain ⟨hfirst, hrest⟩ := List.forall_mem_cons.mp accepted
    rw [heldAfter?, List.foldlM_cons] at h
    obtain ⟨next, hnext, hafter⟩ := Option.bind_eq_some_iff.mp h
    have hdepth : instruction.depthAfter? held = some next := by
      cases instruction with
      | push | load => exact hnext
      | call function count =>
        rw [Instruction.heldAfter?] at hnext
        split at hnext
        next hcount =>
          rw [Instruction.depthAfter?, if_pos ⟨hcount, hfirst⟩]
          exact hnext
        · cases hnext
    rw [depthAfter?, hdepth]
    exact ih hafter hrest

end GateFormula
