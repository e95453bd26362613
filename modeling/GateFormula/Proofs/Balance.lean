import GateFormula.Proofs.Compilation
import GateFormula.Proofs.Registering

/-!
# Compiled code is balanced

How many values code leaves on the stack can be told without running it, as long as
every call finds its arguments and is accepted. The code of a term leaves one value
more, whatever its functions are, if they accept their numbers of operands; operators of
a registry that a host can build do. A compiled formula therefore runs without want of
values, in whatever store.
-/

namespace GateFormula

open Formula

/-! ### The depth of the stack -/

/-- The number of values after an instruction that starts with `depth` values; a call has to
find its arguments and to be accepted. -/
def Instruction.depthAfter? (depth : Nat) : Instruction → Option Nat
  | .push _ | .load _ => some (depth + 1)
  | .call function count =>
    if count ≤ depth ∧ function.accepts count = true then some (depth - count + 1) else none

/-- The number of values after code that starts with `depth` values. -/
def depthAfter? (depth : Nat) : List Instruction → Option Nat
  | [] => some depth
  | instruction :: code => (instruction.depthAfter? depth).bind (depthAfter? · code)

/-- Code after code. -/
theorem depthAfter?_append (depth : Nat) (xs ys : List Instruction) :
    depthAfter? depth (xs ++ ys) = (depthAfter? depth xs).bind (depthAfter? · ys) := by
  induction xs generalizing depth with
  | nil => rfl
  | cons instruction xs ih =>
    rw [List.cons_append, depthAfter?, depthAfter?, Option.bind_assoc]
    congr 1
    funext depth
    exact ih depth

/-- A single instruction. -/
theorem depthAfter?_singleton (depth : Nat) (instruction : Instruction) :
    depthAfter? depth [instruction] = instruction.depthAfter? depth := by
  rw [depthAfter?]
  cases instruction.depthAfter? depth <;> rfl

mutual

/-- The code of a term leaves one value more. -/
theorem depthAfter?_code (depth : Nat) (t : Term) (h : t.isAccepted = true) :
    depthAfter? depth t.code = some (depth + 1) := by
  match t with
  | .number value => rw [Term.code, depthAfter?_singleton, Instruction.depthAfter?]
  | .reference name => rw [Term.code, depthAfter?_singleton, Instruction.depthAfter?]
  | .apply function operands =>
    rw [Term.isAccepted, Bool.and_eq_true] at h
    rw [Term.code, depthAfter?_append, depthAfter?_codeOf depth operands h.2, Option.bind_some,
      depthAfter?_singleton, Instruction.depthAfter?, if_pos ⟨Nat.le_add_left _ _, h.1⟩,
      Nat.add_sub_cancel]

/-- The code of several terms leaves a value for each. -/
theorem depthAfter?_codeOf (depth : Nat) (ts : List Term) (h : Term.areAccepted ts = true) :
    depthAfter? depth (Term.codeOf ts) = some (depth + ts.length) := by
  match ts with
  | [] => rw [Term.codeOf, depthAfter?, List.length_nil, Nat.add_zero]
  | t :: ts =>
    rw [Term.areAccepted, Bool.and_eq_true] at h
    rw [Term.codeOf, depthAfter?_append, depthAfter?_code depth t h.1, Option.bind_some,
      depthAfter?_codeOf (depth + 1) ts h.2, List.length_cons, Nat.add_assoc, Nat.add_comm 1]

end

/-! ### Runs keep to the depth -/

/-- A function accepts no fewer arguments than its fixed ones. -/
theorem arity_le_of_accepts {function : Signature} {count : Nat}
    (h : function.accepts count = true) : function.arity ≤ count := by
  unfold Signature.accepts at h
  split at h
  · exact of_decide_eq_true h
  · exact Nat.le_of_eq (of_decide_eq_true h).symm

/-- What a function is given that accepts the number of its arguments: all values, in order, as
many fixed ones as the function has, and further ones only if it takes any. -/
theorem args_of_accepts {function : Signature} {values : List Float}
    (h : function.accepts values.length = true) :
    ∃ args : Args function.arity, Args.ofList? function.arity values = some args ∧
      args.all = values ∧ (function.variadic = false → args.rest = []) := by
  have hle := arity_le_of_accepts h
  refine ⟨_, dif_pos hle, Args.all_of_ofList? (dif_pos hle), fun hv => ?_⟩
  rw [Signature.accepts, hv, if_neg Bool.false_ne_true, decide_eq_true_eq] at h
  exact List.drop_eq_nil_of_le (Nat.le_of_eq h)

/-- What a call that finds its arguments on the stack gives to its function. -/
theorem args_of_stack {function : Signature} {count : Nat} {stack : List Float}
    (hc : count ≤ stack.length) (ha : function.accepts count = true) :
    ∃ args : Args function.arity,
      Args.ofList? function.arity (stack.take count).reverse = some args ∧
        args.all = (stack.take count).reverse ∧ (function.variadic = false → args.rest = []) := by
  have hlength : (stack.take count).reverse.length = count := by
    rw [List.length_reverse, List.length_take, Nat.min_eq_left hc]
  exact args_of_accepts (hlength.symm ▸ ha)

/-- A call that finds its arguments and is accepted leaves its answer in their place, or ends
with the refusal of the function. -/
theorem apply_of_accepts {function : Signature} {count : Nat} {stack : List Float}
    (hc : count ≤ stack.length) (ha : function.accepts count = true) :
    Machine.apply function count stack ≠ .error .unbalanced ∧
      ∀ final, Machine.apply function count stack = .ok final →
        final.length = stack.length - count + 1 := by
  obtain ⟨args, hargs, -, -⟩ := args_of_stack hc ha
  simp only [Machine.apply, hc, if_true, hargs]
  cases function.call args with
  | error cause => exact ⟨by simp, by simp⟩
  | ok output =>
    refine ⟨by simp, fun final hf => ?_⟩
    cases hf
    rw [List.length_cons, List.length_drop]

/-- An instruction keeps to the depth that was told. -/
theorem step_of_depthAfter? (store : Store) {stack : List Float} {instruction : Instruction}
    {depth : Nat} (h : instruction.depthAfter? stack.length = some depth) :
    Machine.step store stack instruction ≠ .error .unbalanced ∧
      ∀ final, Machine.step store stack instruction = .ok final → final.length = depth := by
  cases instruction with
  | push value =>
    cases h
    exact ⟨by simp [Machine.step], fun final hf => by cases hf; rfl⟩
  | load name =>
    cases h
    simp only [Machine.step]
    cases store.get? name with
    | none => exact ⟨by simp, by simp⟩
    | some value => exact ⟨by simp, fun final hf => by cases hf; rfl⟩
  | call function count =>
    rw [Instruction.depthAfter?] at h
    split at h
    next hs =>
      cases h
      exact apply_of_accepts hs.1 hs.2
    · cases h

/-- A run of code keeps to the depth that was told. -/
theorem run_of_depthAfter? (store : Store) {stack : List Float} {code : List Instruction}
    {depth : Nat} (h : depthAfter? stack.length code = some depth) :
    Machine.run store stack code ≠ .error .unbalanced ∧
      ∀ final, Machine.run store stack code = .ok final → final.length = depth := by
  induction code generalizing stack with
  | nil =>
    cases h
    exact ⟨by simp [Machine.run], fun final hf => by cases hf; rfl⟩
  | cons instruction code ih =>
    obtain ⟨next, hnext, hrest⟩ := Option.bind_eq_some_iff.mp h
    obtain ⟨hsafe, hlength⟩ := step_of_depthAfter? store hnext
    simp only [Machine.run]
    cases hs : Machine.step store stack instruction with
    | error fault =>
      rw [hs] at hsafe
      exact ⟨hsafe, by simp⟩
    | ok between => exact ih (hlength between hs ▸ hrest)

/-- Whatever call a run comes to finds its arguments and is accepted. -/
theorem call_of_depthAfter? (store : Store) {start stack : List Float}
    {before after : List Instruction} {function : Signature} {count depth : Nat}
    (h : depthAfter? start.length (before ++ .call function count :: after) = some depth)
    (hr : Machine.run store start before = .ok stack) :
    count ≤ stack.length ∧ function.accepts count = true := by
  rw [depthAfter?_append] at h
  obtain ⟨reached, hbefore, hrest⟩ := Option.bind_eq_some_iff.mp h
  have hlength := (run_of_depthAfter? store hbefore).2 stack hr
  obtain ⟨next, hnext, -⟩ := Option.bind_eq_some_iff.mp hrest
  rw [Instruction.depthAfter?] at hnext
  split at hnext
  next hs => exact ⟨hlength ▸ hs.1, hs.2⟩
  · cases hnext

/-! ### Compiled code -/

mutual

/-- Every function in the term of an ordered formula accepts its operands, if the registry is
one that a host can build. -/
theorem isAccepted_of_term {registry : Registry} (hr : registry.Reachable) (f : Formula) {t : Term}
    (hf : f.isOrdered registry = true) (h : f.term? registry = some t) : t.isAccepted = true := by
  match f with
  | .literal value => rw [term?] at h; cases h; rw [Term.isAccepted]
  | .reference name =>
    rw [term?] at h
    split at h <;> cases h <;> rw [Term.isAccepted]
  | .constant name =>
    rw [term?, Option.map_eq_some_iff] at h
    obtain ⟨value, -, rfl⟩ := h
    rw [Term.isAccepted]
  | .group inner =>
    rw [term?] at h
    rw [isOrdered] at hf
    exact isAccepted_of_term hr inner hf h
  | .call name operands =>
    rw [term?] at h
    rw [isOrdered] at hf
    split at h
    next function ts hn hts =>
      split at h
      next ha =>
        cases h
        rw [Term.isAccepted, ha, areAccepted_of_terms hr operands hf hts, Bool.and_self]
      · cases h
    · cases h
  | .unary symbol operand =>
    rw [term?] at h
    simp only [isOrdered, Bool.and_eq_true] at hf
    split at h
    next o t ho ht =>
      cases h
      have hu : o.isUnary = true := isUnary_of_operator ho ▸ hf.1.1
      have ha : o.function.accepts [t].length = true := (hr.allowed ho).accepts_one hu
      rw [Term.isAccepted, ha, Term.areAccepted, Term.areAccepted,
        isAccepted_of_term hr operand hf.2 ht, Bool.and_self, Bool.and_self]
    · cases h
  | .binary symbol left right =>
    rw [term?] at h
    simp only [isOrdered, Bool.and_eq_true] at hf
    split at h
    next o t u ho ht hu' =>
      cases h
      have hu : o.isUnary = false :=
        isUnary_of_operator ho ▸ (Draft.isBinary_iff.mp hf.1.1.1.1).2
      have ha : o.function.accepts [t, u].length = true := (hr.allowed ho).accepts_two hu
      rw [Term.isAccepted, ha, Term.areAccepted, Term.areAccepted, Term.areAccepted,
        isAccepted_of_term hr left hf.1.2 ht, isAccepted_of_term hr right hf.2 hu', Bool.and_self,
        Bool.and_self, Bool.and_self]
    · cases h

/-- Every function in the terms of ordered formulas accepts its operands. -/
theorem areAccepted_of_terms {registry : Registry} (hr : registry.Reachable) (fs : List Formula)
    {ts : List Term} (hf : areOrdered registry fs = true) (h : termsOf? registry fs = some ts) :
    Term.areAccepted ts = true := by
  match fs with
  | [] => rw [termsOf?] at h; cases h; rw [Term.areAccepted]
  | f :: fs =>
    rw [termsOf?] at h
    rw [areOrdered, Bool.and_eq_true] at hf
    split at h
    next t ts ht hts =>
      cases h
      rw [Term.areAccepted, isAccepted_of_term hr f hf.1 ht, areAccepted_of_terms hr fs hf.2 hts,
        Bool.and_self]
    · cases h

end

/-- The code of a compiled formula leaves one value. -/
theorem depthAfter?_compiled {registry : Registry} (hr : registry.Reachable) {store : Store}
    {source : String} {program : Program}
    (hc : (compileIn registry store source).1 = .ok program) :
    depthAfter? 0 program.code = some 1 := by
  obtain ⟨tokens, f, t, -, hf, hterm, rfl⟩ := formula_of_compile hc
  exact depthAfter?_code 0 t (isAccepted_of_term hr f hf.ordered hterm)

/-- Compiled code is balanced, in the store that it was compiled for and in any other. Every
call that a run comes to finds its arguments on the stack and is given all of them in order,
as many fixed ones as its function has, and further ones only if the function takes any. A
run that comes to its end leaves exactly one value, and no evaluation ends for want of
balance. -/
theorem compiled_balanced {registry : Registry} {store : Store} {source : String}
    {program : Program} (hr : registry.Reachable)
    (hc : (compileIn registry store source).1 = .ok program) (foreign : Store) :
    (∀ before function count after stack,
      program.code = before ++ .call function count :: after →
      Machine.run foreign [] before = .ok stack →
        count ≤ stack.length ∧ function.arity ≤ count ∧
          ∃ args : Args function.arity,
            Args.ofList? function.arity (stack.take count).reverse = some args ∧
              args.all = (stack.take count).reverse ∧
                (function.variadic = false → args.rest = [])) ∧
    (∀ stack, Machine.run foreign [] program.code = .ok stack → ∃ value, stack = [value]) ∧
    program.evaluate foreign ≠ .error .unbalanced := by
  have hdepth : depthAfter? ([] : List Float).length program.code = some 1 :=
    depthAfter?_compiled hr hc
  obtain ⟨hsafe, hlength⟩ := run_of_depthAfter? foreign hdepth
  have hone : ∀ stack, Machine.run foreign [] program.code = .ok stack →
      ∃ value, stack = [value] :=
    fun stack hrun => List.length_eq_one_iff.mp (hlength stack hrun)
  refine ⟨?_, hone, ?_⟩
  · intro before function count after stack hcode hrun
    rw [hcode] at hdepth
    obtain ⟨hle, ha⟩ := call_of_depthAfter? foreign hdepth hrun
    exact ⟨hle, arity_le_of_accepts ha, args_of_stack hle ha⟩
  · intro he
    unfold Program.evaluate at he
    split at he
    next fault hrun =>
      cases he
      exact hsafe hrun
    · cases he
    next stack hne hrun =>
      obtain ⟨value, rfl⟩ := hone stack hrun
      exact hne value rfl

/-- A negated call of a function of any number of arguments, in a store without its variable. -/
theorem compiled_balanced_negated_call :
    Registry.builtin.Reachable ∧ ∃ program,
      (compileIn .builtin .empty "!max($x$)").1 = .ok program ∧
        program.evaluate .empty ≠ .error .unbalanced := by
  have htokens : tokenize .builtin "!max($x$)" =
      .ok [⟨0, .operator "!"⟩, ⟨1, .call "max"⟩, ⟨4, .opening⟩, ⟨5, .reference "x"⟩,
        ⟨8, .closing⟩, ⟨9, .finish⟩] := by
    decide +kernel
  let f : Formula := .unary "!" (.call "max" [.reference "x"])
  have hordered : f.isOrdered .builtin = true := by decide +kernel
  have hterm : (f.term? .builtin).isSome = true := by decide +kernel
  obtain ⟨t, ht⟩ := Option.isSome_iff_exists.mp hterm
  have hc : (compileIn .builtin .empty "!max($x$)").1 = .ok ⟨"!max($x$)", t.code⟩ :=
    compile_of_formula htokens ⟨hordered, rfl⟩ ht
  exact ⟨.builtin, _, hc, (compiled_balanced .builtin hc .empty).2.2⟩

end GateFormula
