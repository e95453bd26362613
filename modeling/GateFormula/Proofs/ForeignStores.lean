import GateFormula.Proofs.Faults

/-!
# Evaluating in other stores

A program may be evaluated in any store, not only in the one that it was compiled for. It looks
up the variables that it lists and nothing else, so that stores which agree on these give the
same value or the same fault, whatever else they hold. No variable is ever skipped: one that is
missing keeps the program from having a value, and it is blamed unless a function refuses its
arguments before.
-/

namespace GateFormula

/-- Two stores have the same variables among some names, with the same values. -/
def Store.AgreesOn (names : List String) (a b : Store) : Prop :=
  ∀ name ∈ names, a.get? name = b.get? name

variable {a b store : Store}

/-! ### Stores that agree -/

/-- An instruction does the same if it loads the same. -/
theorem step_of_agrees {instruction : Instruction} (stack : List Float)
    (h : ∀ name, instruction = .load name → a.get? name = b.get? name) :
    Machine.step a stack instruction = Machine.step b stack instruction := by
  cases instruction with
  | push value => rfl
  | load name => rw [Machine.step, Machine.step, h name rfl]
  | call function count => rfl

/-- Code runs to the same end if it loads the same. -/
theorem run_of_agrees {code : List Instruction} (stack : List Float)
    (h : ∀ name, .load name ∈ code → a.get? name = b.get? name) :
    Machine.run a stack code = Machine.run b stack code := by
  induction code generalizing stack with
  | nil => rfl
  | cons instruction code ih =>
    have hfirst : Machine.step a stack instruction = Machine.step b stack instruction :=
      step_of_agrees stack fun name heq => h name (heq ▸ List.mem_cons_self)
    rw [Machine.run, Machine.run, hfirst]
    cases Machine.step b stack instruction with
    | error fault => rfl
    | ok further => exact ih further fun name hload => h name (List.mem_cons_of_mem _ hload)

/-- A program evaluates alike in stores that agree on the variables that it reads. -/
theorem evaluate_of_agrees {program : Program} (h : a.AgreesOn program.references b) :
    program.evaluate a = program.evaluate b := by
  have hrun : Machine.run a [] program.code = Machine.run b [] program.code :=
    run_of_agrees [] fun name hload => h name (mem_references_iff.mpr hload)
  rw [Program.evaluate, Program.evaluate, hrun]

/-! ### Variables that are missing -/

/-- Code that loads a missing variable does not run to its end. -/
theorem run_of_missing {code : List Instruction} {name : String} (stack : List Float)
    (hload : .load name ∈ code) (hmissing : store.get? name = none) :
    ∃ fault, Machine.run store stack code = .error fault := by
  induction code generalizing stack with
  | nil => cases hload
  | cons instruction code ih =>
    rw [Machine.run]
    rcases List.mem_cons.mp hload with rfl | hlater
    · rw [Machine.step, hmissing]
      exact ⟨_, rfl⟩
    · cases Machine.step store stack instruction with
      | error fault => exact ⟨fault, rfl⟩
      | ok further => exact ih further hlater

/-- A program that reads a missing variable has no value. -/
theorem evaluate_of_missing {program : Program} {name : String}
    (hread : name ∈ program.references) (hmissing : store.get? name = none) :
    ∃ fault, program.evaluate store = .error fault := by
  obtain ⟨fault, hrun⟩ := run_of_missing [] (mem_references_iff.mp hread) hmissing
  exact ⟨fault, by rw [Program.evaluate, hrun]⟩

/-- A program that has been compiled, for whatever store, depends on the variables that it lists
alone: stores that agree on them give the same value or the same fault. If the functions of the
registry blame no variable themselves, one is blamed only if it is listed and missing. If one of
those listed is missing, the program has no value. -/
theorem evaluate_depends {registry : Registry} {compiling : Store} {source : String}
    {program : Program} (h : (compileIn registry compiling source).1 = .ok program) :
    (∀ a b : Store, a.AgreesOn program.references b →
      program.evaluate a = program.evaluate b) ∧
    (registry.IsHonest → ∀ (store : Store) (name : String),
      program.evaluate store = .error (.failed (.undeclaredVariable name)) →
        name ∈ program.references ∧ store.get? name = none) ∧
    ∀ store : Store, (∃ name ∈ program.references, store.get? name = none) →
      ∃ fault, program.evaluate store = .error fault := by
  have hcompile : (compile registry source).result = .ok program := h
  refine ⟨fun a b hagrees => evaluate_of_agrees hagrees, fun hh store name hfault => ?_,
    fun store hsome => ?_⟩
  · exact missing_of_evaluate hh hcompile hfault
  · obtain ⟨name, hread, hmissing⟩ := hsome
    exact evaluate_of_missing hread hmissing

/-- Two variables, of which the second is missing in one store, and a third in another store that
the program does not read. -/
theorem evaluate_depends_disjunction :
    ∃ program, (compileIn .builtin .empty "$x$ > 0 || $y$ > 0").1 = .ok program ∧
      program.references = ["x", "y"] ∧ Registry.builtin.IsHonest ∧
      program.evaluate ((Store.empty.set "x" 1).set "y" 2) =
        program.evaluate (((Store.empty.set "z" 3).set "y" 2).set "x" 1) ∧
      program.evaluate (Store.empty.set "x" 1) =
        .error (.failed (.undeclaredVariable "y")) ∧
      "y" ∈ program.references ∧ (Store.empty.set "x" 1).get? "y" = none ∧
      ∃ fault, program.evaluate (Store.empty.set "y" 2) = .error fault := by
  have hresult : ((compileIn .builtin .empty "$x$ > 0 || $y$ > 0").1.toOption.map fun program =>
      (program.references, program.evaluate (Store.empty.set "x" 1))) =
        some (["x", "y"], .error (.failed (.undeclaredVariable "y"))) := by
    decide +kernel
  cases hcompile : (compileIn .builtin .empty "$x$ > 0 || $y$ > 0").1 with
  | error diagnostics =>
    rw [hcompile] at hresult
    cases hresult
  | ok program =>
    rw [hcompile] at hresult
    obtain ⟨hreads, hblamed⟩ := Prod.mk.inj (Option.some.inj hresult)
    obtain ⟨hsame, hmissing, hnone⟩ := evaluate_depends hcompile
    have hagrees : ((Store.empty.set "x" 1).set "y" 2).AgreesOn program.references
        (((Store.empty.set "z" 3).set "y" 2).set "x" 1) := by
      rw [hreads]
      simp [Store.AgreesOn]
    obtain ⟨hread, habsent⟩ := hmissing Registry.builtin_isHonest _ _ hblamed
    have hother : "x" ∈ program.references ∧ (Store.empty.set "y" 2).get? "x" = none := by
      rw [hreads]
      decide +kernel
    exact ⟨program, rfl, hreads, Registry.builtin_isHonest, hsame _ _ hagrees, hblamed, hread,
      habsent, hnone _ ⟨"x", hother⟩⟩

end GateFormula
