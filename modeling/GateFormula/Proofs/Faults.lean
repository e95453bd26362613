import GateFormula.Proofs.Balance
import GateFormula.Proofs.Declaring
import GateFormula.Requirement

/-!
# Faults of compiled programs

A compiled program calls only functions that its registry offers and reads only variables that
compiling it has declared. In a store that has these variables nothing is missing, and since
compiled code is balanced as well, an evaluation can end early only because a function refuses
its arguments.
-/

namespace GateFormula

open Formula

/-- Whether a function has refused its arguments, so that neither a variable nor the balance of
the code is to blame. -/
def Fault.isRefusal : Fault → Bool
  | .failed (.divisionByZero _) | .failed (.domain _ _) => true
  | .failed (.undeclaredVariable _) | .unbalanced => false

/-- The fault of an outcome, if it is one. -/
def faultOf {α : Type} : Except Fault α → Option Fault
  | .error fault => some fault
  | .ok _ => none

/-- The functions that formulas can call, by a name or by an operator. -/
inductive Registry.Offers (registry : Registry) : Signature → Prop where
  /-- A function under a name. -/
  | function {name : String} {s : Signature} (known : registry.function? name = some s) :
      Offers registry s
  /-- The function of an operator. -/
  | operator {symbol : String} {o : Operator} (known : registry.operator? symbol = some o) :
      Offers registry o.function

/-- No function that formulas can call blames a variable for its refusal. -/
def Registry.IsHonest (registry : Registry) : Prop :=
  ∀ function, registry.Offers function →
    ∀ args name, function.call args ≠ .error (.undeclaredVariable name)

/-- A program that is compiled, in a store that has all its variables. -/
structure Program.RunsIn (registry : Registry) (store : Store) (program : Program) : Prop where
  /-- It comes from a text. -/
  compiled : ∃ source, (compile registry source).result = .ok program
  /-- Its variables are in the store. -/
  known : ∀ name ∈ program.references, store.contains name = true

variable {registry : Registry} {store : Store}

/-! ### Functions of a program -/

mutual

/-- The code of a formula calls functions that the registry offers. -/
theorem offers_of_code (f : Formula) {t : Term} {function : Signature} {count : Nat}
    (h : f.term? registry = some t) (hc : .call function count ∈ t.code) :
    registry.Offers function := by
  match f with
  | .literal value =>
    rw [term?] at h
    cases h
    simp [Term.code] at hc
  | .reference name =>
    rw [term?] at h
    split at h <;> cases h <;> simp [Term.code] at hc
  | .constant name =>
    rw [term?, Option.map_eq_some_iff] at h
    obtain ⟨value, -, rfl⟩ := h
    simp [Term.code] at hc
  | .group inner =>
    rw [term?] at h
    exact offers_of_code inner h hc
  | .call name operands =>
    rw [term?] at h
    split at h
    next s ts hs hts =>
      split at h
      · cases h
        rw [Term.code, List.mem_append, List.mem_singleton] at hc
        rcases hc with hc | hc
        · exact offers_of_codeOf operands hts hc
        · cases hc
          exact .function hs
      · cases h
    · cases h
  | .unary symbol operand =>
    rw [term?] at h
    split at h
    next o t ho ht =>
      cases h
      simp only [Term.code, Term.codeOf, List.append_nil, List.mem_append,
        List.mem_singleton] at hc
      rcases hc with hc | hc
      · exact offers_of_code operand ht hc
      · cases hc
        exact .operator ho
    · cases h
  | .binary symbol left right =>
    rw [term?] at h
    split at h
    next o t u ho ht hu =>
      cases h
      simp only [Term.code, Term.codeOf, List.append_nil, List.mem_append,
        List.mem_singleton] at hc
      rcases hc with (hc | hc) | hc
      · exact offers_of_code left ht hc
      · exact offers_of_code right hu hc
      · cases hc
        exact .operator ho
    · cases h

/-- So does the code of several formulas. -/
theorem offers_of_codeOf (fs : List Formula) {ts : List Term} {function : Signature}
    {count : Nat} (h : termsOf? registry fs = some ts)
    (hc : .call function count ∈ Term.codeOf ts) : registry.Offers function := by
  match fs with
  | [] =>
    rw [termsOf?] at h
    cases h
    simp [Term.codeOf] at hc
  | f :: fs =>
    rw [termsOf?] at h
    split at h
    next t ts ht hts =>
      cases h
      rw [Term.codeOf, List.mem_append] at hc
      rcases hc with hc | hc
      · exact offers_of_code f ht hc
      · exact offers_of_codeOf fs hts hc
    · cases h

end

/-- A compiled program calls functions that its registry offers. -/
theorem offers_of_compile {source : String} {program : Program} {function : Signature}
    {count : Nat} (h : (compile registry source).result = .ok program)
    (hc : .call function count ∈ program.code) : registry.Offers function := by
  obtain ⟨-, f, t, -, -, ht, rfl⟩ := formula_of_compile h
  exact offers_of_code f ht hc

/-- A function that answers does not blame a variable. -/
theorem ok_ne_undeclared (output : Output) (name : String) :
    (.ok output : Except EvalError Output) ≠ .error (.undeclaredVariable name) := by
  intro h
  cases h

/-- The standard functions are honest. -/
theorem Builtin.functions_honest : ∀ s ∈ Builtin.functions, ∀ args name,
    s.call args ≠ .error (.undeclaredVariable name) := by
  have hclamp : ∀ x low high name,
      Builtin.clamp x low high ≠ .error (.undeclaredVariable name) := by
    intro x low high name h
    unfold Builtin.clamp at h
    split at h <;> cases h
  have hroot : ∀ x name, Builtin.squareRoot x ≠ .error (.undeclaredVariable name) := by
    intro x name h
    unfold Builtin.squareRoot at h
    split at h <;> cases h
  intro s hs
  simp only [Builtin.functions, List.mem_cons, List.not_mem_nil, or_false] at hs
  rcases hs with rfl | rfl | rfl | rfl | rfl | rfl | rfl | rfl | rfl | rfl | rfl | rfl | rfl
  all_goals intro args name
  all_goals first | exact hclamp _ _ _ name | exact hroot _ name | exact ok_ne_undeclared _ name

/-- The functions of the standard operators are honest. -/
theorem Builtin.operators_honest : ∀ o ∈ Builtin.operators, ∀ args name,
    o.function.call args ≠ .error (.undeclaredVariable name) := by
  have hdivision : ∀ symbol rank f args name,
      (Builtin.division symbol rank f).function.call args ≠ .error (.undeclaredVariable name) := by
    intro symbol rank f args name h
    change ite _ _ _ = _ at h
    split at h <;> cases h
  intro o ho
  simp only [Builtin.operators, List.mem_cons, List.not_mem_nil, or_false] at ho
  rcases ho with rfl | rfl | rfl | rfl | rfl | rfl | rfl | rfl | rfl | rfl | rfl | rfl | rfl |
    rfl | rfl
  all_goals intro args name
  all_goals first | exact hdivision _ _ _ args name | exact ok_ne_undeclared _ name

/-- The standard registry is honest. -/
theorem Registry.builtin_isHonest : Registry.builtin.IsHonest := by
  intro function hf
  cases hf with
  | function known =>
    obtain ⟨s, hs, heq⟩ := List.mem_map.mp (mem_of_ofBindings known)
    cases heq
    exact Builtin.functions_honest _ hs
  | operator known =>
    obtain ⟨o, ho, heq⟩ := List.mem_map.mp (mem_of_ofBindings known)
    cases heq
    exact Builtin.operators_honest _ ho

/-! ### Variables that are missing -/

/-- A step that calls only honest functions blames a variable only if it loads the variable and
the store lacks it. -/
theorem load_of_step {instruction : Instruction} {stack : List Float} {name : String}
    (hcall : ∀ function count, instruction = .call function count →
      ∀ args, function.call args ≠ .error (.undeclaredVariable name))
    (h : Machine.step store stack instruction = .error (.failed (.undeclaredVariable name))) :
    instruction = .load name ∧ store.get? name = none := by
  cases instruction with
  | push value => cases h
  | load read =>
    rw [Machine.step] at h
    split at h
    · cases h
    next hmissing =>
      cases h
      exact ⟨rfl, hmissing⟩
  | call function count =>
    rw [Machine.step, Machine.apply] at h
    split at h
    · split at h
      · cases h
      next args _ =>
        split at h
        next cause hcause =>
          cases h
          exact absurd hcause (hcall function count rfl args)
        · cases h
    · cases h

/-- A run that calls only honest functions blames a variable only if it loads the variable and the
store lacks it. -/
theorem load_of_run {code : List Instruction} {stack : List Float} {name : String}
    (hcalls : ∀ function count, .call function count ∈ code →
      ∀ args, function.call args ≠ .error (.undeclaredVariable name))
    (h : Machine.run store stack code = .error (.failed (.undeclaredVariable name))) :
    .load name ∈ code ∧ store.get? name = none := by
  induction code generalizing stack with
  | nil => cases h
  | cons instruction code ih =>
    have hhead : ∀ function count, instruction = .call function count →
        ∀ args, function.call args ≠ .error (.undeclaredVariable name) :=
      fun function count heq => hcalls function count (heq ▸ List.mem_cons_self)
    rw [Machine.run] at h
    split at h
    next fault hfault =>
      cases h
      obtain ⟨rfl, hmissing⟩ := load_of_step hhead hfault
      exact ⟨List.mem_cons_self, hmissing⟩
    · obtain ⟨hload, hmissing⟩ :=
        ih (fun function count hmem => hcalls function count (List.mem_cons_of_mem _ hmem)) h
      exact ⟨List.mem_cons_of_mem _ hload, hmissing⟩

/-- A program reads the variables that its code loads, and no others. -/
theorem mem_references_iff {program : Program} {name : String} :
    name ∈ program.references ↔ .load name ∈ program.code := by
  rw [Program.references, mem_firstOccurrences, List.mem_filterMap]
  constructor
  · rintro ⟨instruction, hmem, hreads⟩
    cases instruction with
    | load read =>
      cases hreads
      exact hmem
    | push | call => cases hreads
  · exact fun h => ⟨_, h, rfl⟩

/-- An error that ends an evaluation ends its run. -/
theorem run_of_failed {program : Program} {cause : EvalError}
    (h : program.evaluate store = .error (.failed cause)) :
    Machine.run store [] program.code = .error (.failed cause) := by
  unfold Program.evaluate at h
  split at h
  next fault hrun =>
    cases h
    exact hrun
  · cases h
  · cases h

/-- A compiled program whose functions are honest blames a variable only if it reads the variable
and the store lacks it. -/
theorem missing_of_evaluate (hh : registry.IsHonest) {source name : String} {program : Program}
    (hc : (compile registry source).result = .ok program)
    (h : program.evaluate store = .error (.failed (.undeclaredVariable name))) :
    name ∈ program.references ∧ store.get? name = none := by
  have hcalls : ∀ function count, .call function count ∈ program.code →
      ∀ args, function.call args ≠ .error (.undeclaredVariable name) :=
    fun function count hcall args => hh function (offers_of_compile hc hcall) args name
  obtain ⟨hload, hmissing⟩ := load_of_run hcalls (run_of_failed h)
  exact ⟨mem_references_iff.mpr hload, hmissing⟩

/-! ### Running with all variables -/

/-- A program that has been compiled with a registry of a host leaves one value, so that only
the fault of an instruction ends its evaluation. -/
theorem ne_unbalanced_of_compile (hr : registry.Reachable) {source : String} {program : Program}
    (h : (compile registry source).result = .ok program) :
    program.evaluate store ≠ .error .unbalanced := by
  have hcompile : (compileIn registry store source).1 = .ok program := h
  have hempty : depthAfter? ([] : List Float).length program.code = some 1 :=
    depthAfter?_compiled hr hcompile
  obtain ⟨hsafe, hlength⟩ := run_of_depthAfter? store hempty
  intro hfault
  unfold Program.evaluate at hfault
  split at hfault
  next other hrun =>
    cases hfault
    exact hsafe hrun
  · cases hfault
  next stack hne hrun =>
    obtain ⟨value, rfl⟩ := List.length_eq_one_iff.mp (hlength stack hrun)
    exact hne value rfl

/-- A compiled program ends early, in a store that has its variables, only because a function
refuses its arguments. -/
theorem Program.RunsIn.isRefusal {program : Program} {fault : Fault}
    (hp : program.RunsIn registry store) (hr : registry.Reachable) (hh : registry.IsHonest)
    (h : program.evaluate store = .error fault) : fault.isRefusal = true := by
  obtain ⟨source, hsource⟩ := hp.compiled
  have hbalance : fault ≠ .unbalanced := by
    rintro rfl
    exact ne_unbalanced_of_compile hr hsource h
  have hdeclared : ∀ name, fault ≠ .failed (.undeclaredVariable name) := by
    rintro name rfl
    obtain ⟨hread, hmissing⟩ := missing_of_evaluate hh hsource h
    have hknown := hp.known name hread
    rw [Store.contains_eq, hmissing] at hknown
    cases hknown
  cases fault with
  | unbalanced => exact absurd rfl hbalance
  | failed cause =>
    cases cause with
    | undeclaredVariable name => exact absurd rfl (hdeclared name)
    | divisionByZero operator => rfl
    | domain function reason => rfl

/-! ### Faults of requirements -/

/-- An outcome that is no fault is a value. -/
theorem faultOf_eq_none_iff {α : Type} {outcome : Except Fault α} :
    faultOf outcome = none ↔ ∃ value, outcome = .ok value := by
  cases outcome <;> simp [faultOf]

/-- An outcome that has a fault is that fault. -/
theorem faultOf_eq_some_iff {α : Type} {outcome : Except Fault α} {fault : Fault} :
    faultOf outcome = some fault ↔ outcome = .error fault := by
  cases outcome <;> simp [faultOf]

mutual

/-- The fault of a requirement is that of the leftmost leaf that has one. -/
theorem faultOf_isMet (requirement : Requirement Program) :
    faultOf (requirement.isMet store) =
      requirement.leaves.findSome? fun program => faultOf (program.evaluate store) := by
  match requirement with
  | .single program =>
    rw [Requirement.isMet, Requirement.leaves, Program.test, List.findSome?_singleton]
    cases program.evaluate store <;> rfl
  | .all parts | .any parts =>
    rw [Requirement.isMet, Requirement.leaves, ← faultOf_outcomes parts]
    cases Requirement.outcomes store parts <;> rfl

/-- So is the fault of several requirements. -/
theorem faultOf_outcomes (parts : List (Requirement Program)) :
    faultOf (Requirement.outcomes store parts) =
      (Requirement.leavesOf parts).findSome? fun program => faultOf (program.evaluate store) := by
  match parts with
  | [] => rfl
  | part :: parts =>
    rw [Requirement.outcomes, Requirement.leavesOf, List.findSome?_append, ← faultOf_isMet part,
      ← faultOf_outcomes parts]
    cases part.isMet store with
    | error fault => rfl
    | ok met => cases Requirement.outcomes store parts <;> rfl

end

/-- So some leaf has the fault of a requirement. -/
theorem leaf_of_isMet {requirement : Requirement Program} {fault : Fault}
    (h : requirement.isMet store = .error fault) :
    ∃ program ∈ requirement.leaves, program.evaluate store = .error fault := by
  rw [← faultOf_eq_some_iff, faultOf_isMet] at h
  obtain ⟨program, hleaf, hfault⟩ := List.exists_of_findSome?_eq_some h
  exact ⟨program, hleaf, faultOf_eq_some_iff.mp hfault⟩

end GateFormula
