import GateFormula.Builtin
import GateFormula.Proofs.SessionRun

/-!
# Visits

A visit applies the results of a session in order. `Assignment.Applied` says what it means that
assignments have been applied: each has been evaluated in the store that those before it have
left, and its value has been merged into what its target held there, by the rule of the target.
A visit applies all results, or those before the first one that has no value; the store is what
these leave, and nothing else changes. No variable is added on the way, since the target of
every result is in the store of a session from the moment that the result is added.
-/

namespace GateFormula

namespace Assignment

/-- Assignments that have been applied in order, from a store to another one. -/
inductive Applied : List Assignment → Store → Store → Prop where
  /-- None. -/
  | nil {store : Store} : Applied [] store store
  /-- One has been evaluated and merged, and then the others. -/
  | cons {a : Assignment} {others : List Assignment} {store last : Store} {value current : Float}
      (evaluated : a.program.evaluate store = .ok value)
      (held : store.get? a.target = some current)
      (rest : Applied others
        (store.set a.target ((store.reducer a.target).merge current value)) last) :
      Applied (a :: others) store last

/-- What is the same in a store after assignments have been applied. -/
structure Kept (applied : List Assignment) (before after : Store) : Prop where
  /-- The names of the variables. -/
  names : ∀ name, after.contains name = before.contains name
  /-- The rules. -/
  reducers : after.reducers = before.reducers
  /-- The values of variables that are no targets. -/
  others : ∀ name, (∀ a ∈ applied, a.target ≠ name) → after.get? name = before.get? name

end Assignment

open Assignment (Applied Kept)

/-! ### Applying assignments -/

/-- Applying assignments goes on from the store that those before have left. -/
theorem applyAll_append {applied : List Assignment} {store last : Store}
    (h : Applied applied store last) (others : List Assignment) :
    Assignment.applyAll (applied ++ others) store = Assignment.applyAll others last := by
  induction h with
  | nil => rfl
  | cons evaluated held rest ih =>
    rw [List.cons_append, Assignment.applyAll, Assignment.apply, evaluated]
    rw [← Store.update_eq_set held] at ih
    exact ih

/-- Nothing else changes where assignments are applied. -/
theorem Assignment.Applied.kept {applied : List Assignment} {before after : Store}
    (h : Applied applied before after) : Kept applied before after := by
  induction h with
  | nil => exact ⟨fun _ => rfl, rfl, fun _ _ => rfl⟩
  | @cons a others store last value current evaluated held rest ih =>
    have hknown : store.contains a.target = true := by
      rw [Store.contains_eq, held]
      rfl
    refine ⟨fun name => ?_, ih.reducers, fun name hname => ?_⟩
    · rw [ih.names name, Store.contains_set hknown]
    · obtain ⟨hfirst, hothers⟩ := List.forall_mem_cons.mp hname
      simp [ih.others name hothers, hfirst]

/-- Assignments whose targets are in a store are applied in order, all of them or those before
the first that has no value. -/
theorem applied_prefix (assignments : List Assignment) (store : Store)
    (ht : ∀ a ∈ assignments, store.contains a.target = true) :
    ∃ applied others last, assignments = applied ++ others ∧ Applied applied store last ∧
      (others = [] ∨ ∃ a further fault, others = a :: further ∧
        a.program.evaluate last = .error fault) := by
  induction assignments generalizing store with
  | nil => exact ⟨[], [], store, rfl, .nil, .inl rfl⟩
  | cons a assignments ih =>
    obtain ⟨hfirst, hrest⟩ := List.forall_mem_cons.mp ht
    cases hvalue : a.program.evaluate store with
    | error fault => exact ⟨[], a :: assignments, store, rfl, .nil, .inr ⟨a, _, fault, rfl, hvalue⟩⟩
    | ok value =>
      obtain ⟨current, hcurrent⟩ : ∃ current, store.get? a.target = some current := by
        rwa [← Option.isSome_iff_exists, ← Store.contains_eq]
      obtain ⟨applied, others, last, hsplit, happlied, hend⟩ :=
        ih (store.set a.target ((store.reducer a.target).merge current value))
          (fun other ho => by rw [Store.contains_set hfirst]; exact hrest other ho)
      exact ⟨a :: applied, others, last, congrArg (a :: ·) hsplit,
        .cons hvalue hcurrent happlied, hend⟩

/-! ### Visits -/

/-- A visit of a session all of whose results have been applied. -/
theorem visit_of_applied {s : Session} {store : Store} (h : Applied s.results s.store store) :
    s.visit = (.ok (), { s with store }) := by
  have hall := applyAll_append h []
  rw [List.append_nil] at hall
  rw [Session.visit, hall]
  rfl

/-- A visit of a session one of whose results has no value. -/
theorem visit_of_fault {s : Session} {store : Store} {applied others : List Assignment}
    {a : Assignment} {fault : Fault} (hr : s.results = applied ++ a :: others)
    (h : Applied applied s.store store) (hf : a.program.evaluate store = .error fault) :
    s.visit = (.error (.evaluation fault), { s with store }) := by
  have hall : Assignment.applyAll s.results s.store = (some fault, store) := by
    rw [hr, applyAll_append h, Assignment.applyAll, Assignment.apply, hf]
  rw [Session.visit, hall]

/-- How a visit ends if the targets of all results are in the store. -/
theorem visit_cases {s : Session} (ht : ∀ a ∈ s.results, s.store.contains a.target = true) :
    ∃ applied others store, s.results = applied ++ others ∧ Applied applied s.store store ∧
      (others = [] ∧ s.visit = (.ok (), { s with store }) ∨
        ∃ a further fault, others = a :: further ∧ a.program.evaluate store = .error fault ∧
          s.visit = (.error (.evaluation fault), { s with store })) := by
  obtain ⟨applied, others, store, hsplit, happlied, hend⟩ := applied_prefix s.results s.store ht
  refine ⟨applied, others, store, hsplit, happlied, ?_⟩
  rcases hend with rfl | ⟨a, further, fault, rfl, hfault⟩
  · rw [List.append_nil] at hsplit
    exact .inl ⟨rfl, visit_of_applied (hsplit ▸ happlied)⟩
  · exact .inr ⟨a, further, fault, rfl, hfault, visit_of_fault hsplit happlied hfault⟩

/-- A visit succeeds if all results can be applied, and the store is what they leave. -/
theorem visit_eq_ok_iff {s : Session} (ht : ∀ a ∈ s.results, s.store.contains a.target = true)
    {store : Store} :
    s.visit = (.ok (), { s with store }) ↔ Applied s.results s.store store := by
  refine ⟨fun hvisit => ?_, visit_of_applied⟩
  obtain ⟨applied, others, last, hsplit, happlied, hend⟩ := visit_cases ht
  rw [hvisit] at hend
  rcases hend with ⟨rfl, hend⟩ | ⟨a, further, fault, rfl, hfault, hend⟩
  · cases hend
    rw [List.append_nil] at hsplit
    rw [hsplit]
    exact happlied
  · cases hend

/-- A visit fails with the fault of a result if those before it can be applied and it has no
value in what they leave. -/
theorem visit_eq_error_iff {s : Session}
    (ht : ∀ a ∈ s.results, s.store.contains a.target = true) {fault : Fault} {store : Store} :
    s.visit = (.error (.evaluation fault), { s with store }) ↔
      ∃ applied a others, s.results = applied ++ a :: others ∧
        Applied applied s.store store ∧ a.program.evaluate store = .error fault := by
  constructor
  · intro hvisit
    obtain ⟨applied, others, last, hsplit, happlied, hend⟩ := visit_cases ht
    rw [hvisit] at hend
    rcases hend with ⟨rfl, hend⟩ | ⟨a, further, other, rfl, hfault, hend⟩
    · cases hend
    · cases hend
      exact ⟨applied, a, further, hsplit, happlied, hfault⟩
  · rintro ⟨applied, a, others, hresults, happlied, hfault⟩
    exact visit_of_fault hresults happlied hfault

/-- A visit of a session in use. It succeeds if all results can be applied in order, and the
store is then what they leave. It fails with the fault of the first result that has no value in
what those before it leave, and that is then the store. One of the two is the case. Whatever has
been applied, the names of the variables, their rules, the requirements and the results stay as
they were, and so does the value of every variable that is not the target of a result that has
been applied. -/
theorem visit_in_order {registry : Registry} {s : Session} (made : s.Made registry)
    (operations : List Session.Operation) :
    let before := (Session.Use.performAll ⟨s, []⟩ operations).session
    (∀ store, before.visit = (.ok (), { before with store }) ↔
      Applied before.results before.store store) ∧
    (∀ fault store, before.visit = (.error (.evaluation fault), { before with store }) ↔
      ∃ applied a others, before.results = applied ++ a :: others ∧
        Applied applied before.store store ∧ a.program.evaluate store = .error fault) ∧
    (∃ applied others store, before.results = applied ++ others ∧
      Applied applied before.store store ∧ Kept applied before.store store ∧
      (others = [] ∧ before.visit = (.ok (), { before with store }) ∨
        ∃ a further fault, others = a :: further ∧ a.program.evaluate store = .error fault ∧
          before.visit = (.error (.evaluation fault), { before with store }))) ∧
    (registry.Reachable → ∀ error, before.visit.1 = .error error →
      ∃ cause, error = .evaluation (.failed cause)) := by
  intro before
  have hsound : Session.Use.Sound registry (Session.Use.performAll ⟨s, []⟩ operations) :=
    (sound_of_made made).performAll operations
  obtain ⟨applied, others, last, hsplit, happlied, hend⟩ := visit_cases hsound.targets
  refine ⟨fun store => visit_eq_ok_iff hsound.targets,
    fun fault store => visit_eq_error_iff hsound.targets,
    ⟨applied, others, last, hsplit, happlied, happlied.kept, hend⟩, fun hr error herror => ?_⟩
  rcases hend with ⟨rfl, hend⟩ | ⟨a, further, fault, rfl, hfault, hend⟩
  · rw [hend] at herror
    cases herror
  · rw [hend] at herror
    cases herror
    have hknown : a ∈ before.results := by
      rw [hsplit]
      exact List.mem_append_right _ List.mem_cons_self
    have hruns : a.program.RunsIn registry before.store := hsound.runs _ (.result hknown)
    obtain ⟨source, hsource⟩ := hruns.compiled
    cases fault with
    | failed cause => exact ⟨cause, rfl⟩
    | unbalanced => exact absurd hfault (ne_unbalanced_of_compile hr hsource)

/-- Two results for one variable, and one without a value behind them. -/
theorem visit_in_order_stopped :
    (Session.new .builtin .empty).Made .builtin ∧
      let before := (Session.Use.performAll ⟨.new .builtin .empty, []⟩
        [.addResult ⟨"best", "$best$ + 2"⟩, .addResult ⟨"best", "$best$ * 3"⟩,
          .addResult ⟨"rest", "1 / $key$"⟩, .addResult ⟨"key", "1"⟩]).session
      (before.visit.2.store.get? "best").map (· == 6) = some true ∧
        ∃ applied a further store fault, before.results = applied ++ a :: further ∧
          Applied applied before.store store ∧ a.program.evaluate store = .error fault ∧
          before.visit = (.error (.evaluation fault), { before with store }) := by
  have made : (Session.new .builtin .empty).Made .builtin := .new .empty
  let operations : List Session.Operation :=
    [.addResult ⟨"best", "$best$ + 2"⟩, .addResult ⟨"best", "$best$ * 3"⟩,
      .addResult ⟨"rest", "1 / $key$"⟩, .addResult ⟨"key", "1"⟩]
  have hfails : (Session.Use.performAll ⟨.new .builtin .empty, []⟩
      operations).session.visit.1.isOk = false := by decide +kernel
  refine ⟨made, by decide +kernel, ?_⟩
  obtain ⟨-, -, ⟨applied, others, store, hsplit, happlied, -, hend⟩, -⟩ :=
    visit_in_order made operations
  rcases hend with ⟨-, hok⟩ | ⟨a, further, fault, rfl, hfault, hvisit⟩
  · rw [hok] at hfails
    cases hfails
  · exact ⟨applied, a, further, store, fault, hsplit, happlied, hfault, hvisit⟩

end GateFormula
