import GateFormula.Proofs.Declaring
import GateFormula.Requirement

/-!
# Compiling requirements part by part

A requirement is compiled leaf by leaf. Seen from its groups, the parts are compiled one after
another, each for the store that those before it leave. `gather` collects the parts that compile
and the diagnostics of those that do not, and a group compiles if nothing has been collected of
the latter. A requirement that compiles keeps its shape, and each leaf becomes its program.
-/

namespace GateFormula

namespace Requirement

/-- The diagnostics of the leaves that do not compile, from left to right. -/
def failures (registry : Registry) (definition : Requirement String) : List Diagnostics :=
  definition.leaves.filterMap fun source => failure? (GateFormula.compile registry source)

/-- The diagnostics of the leaves of several requirements that do not compile. -/
def failuresOf (registry : Registry) (parts : List (Requirement String)) : List Diagnostics :=
  (leavesOf parts).filterMap fun source => failure? (GateFormula.compile registry source)

/-- The variables that the leaves of several requirements mention. -/
def mentionedOf (registry : Registry) (parts : List (Requirement String)) : List String :=
  (leavesOf parts).flatMap fun source => (GateFormula.compile registry source).mentioned

/-- Compile requirements one after another for a store: those that compile, the diagnostics of
the others, and the store in the end. -/
def gather (registry : Registry) (store : Store) :
    List (Requirement String) → List (Requirement Program) × List Diagnostics × Store
  | [] => ([], [], store)
  | part :: parts =>
    let (result, store) := part.compileIn registry store
    let (compiled, failures, store) := gather registry store parts
    match result with
    | .ok requirement => (requirement :: compiled, failures, store)
    | .error diagnostics => (compiled, diagnostics ++ failures, store)

/-- Compile the parts of a group for a store: all of them, or the diagnostics of those that do
not compile. -/
def compileParts (registry : Registry) (store : Store) (parts : List (Requirement String)) :
    Except (List Diagnostics) (List (Requirement Program)) × Store :=
  let (compiled, failures, store) := gather registry store parts
  (if failures.isEmpty then .ok compiled else .error failures, store)

end Requirement

/-- The program of a text that compiles. -/
def programOf (registry : Registry) (source : String) : Program :=
  match (compile registry source).result with
  | .ok program => program
  | .error _ => ⟨source, []⟩

variable {registry : Registry}

/-! ### Leaves -/

section Leaves

variable {α β : Type}

mutual

/-- The leaves of a changed requirement are the changed leaves. -/
theorem leaves_map (f : α → β) (r : Requirement α) : (r.map f).leaves = r.leaves.map f := by
  match r with
  | .single leaf => rfl
  | .all parts | .any parts => exact leavesOf_mapOf f parts

/-- The leaves of changed requirements are the changed leaves. -/
theorem leavesOf_mapOf (f : α → β) (rs : List (Requirement α)) :
    Requirement.leavesOf (Requirement.mapOf f rs) = (Requirement.leavesOf rs).map f := by
  match rs with
  | [] => rfl
  | r :: rs =>
    rw [Requirement.mapOf, Requirement.leavesOf, Requirement.leavesOf, List.map_append,
      leaves_map f r, leavesOf_mapOf f rs]

end

end Leaves

/-! ### Which requirements compile -/

mutual

/-- A compiled tree has its programs if none of its leaves has diagnostics. -/
theorem isSome_traverse (r : Requirement Compilation) :
    (r.traverse? Requirement.program?).isSome =
      (r.leaves.filterMap Requirement.failure?).isEmpty := by
  match r with
  | .single leaf =>
    rw [Requirement.traverse?, Requirement.leaves, Option.isSome_map, Requirement.program?]
    cases hr : leaf.result <;> simp [Requirement.failure?, hr, Except.toOption]
  | .all parts | .any parts =>
    rw [Requirement.traverse?, Requirement.leaves, Option.isSome_map]
    exact isSome_traverseOf parts

/-- So have several. -/
theorem isSome_traverseOf (rs : List (Requirement Compilation)) :
    (Requirement.traverseOf? Requirement.program? rs).isSome =
      ((Requirement.leavesOf rs).filterMap Requirement.failure?).isEmpty := by
  match rs with
  | [] => rfl
  | r :: rs =>
    have hfirst := isSome_traverse r
    have hrest := isSome_traverseOf rs
    have hboth : (Requirement.traverseOf? Requirement.program? (r :: rs)).isSome =
        ((r.traverse? Requirement.program?).isSome &&
          (Requirement.traverseOf? Requirement.program? rs).isSome) := by
      rw [Requirement.traverseOf?]
      cases r.traverse? Requirement.program? <;>
        cases Requirement.traverseOf? Requirement.program? rs <;> rfl
    rw [hboth, hfirst, hrest, Requirement.leavesOf, List.filterMap_append]
    cases r.leaves.filterMap Requirement.failure? <;> rfl

end

/-- The diagnostics that compiling a definition collects are those of its leaves. -/
theorem failures_map (registry : Registry) (definition : Requirement String) :
    (definition.map (compile registry)).leaves.filterMap Requirement.failure? =
      definition.failures registry := by
  rw [leaves_map, List.filterMap_map]
  rfl

/-- The diagnostics of a requirement come before those of the ones behind it. -/
theorem failuresOf_cons (registry : Registry) (part : Requirement String)
    (parts : List (Requirement String)) :
    Requirement.failuresOf registry (part :: parts) =
      part.failures registry ++ Requirement.failuresOf registry parts :=
  List.filterMap_append

/-- A requirement compiles to the tree of its programs, and otherwise to the diagnostics of its
leaves. -/
theorem compileIn_traverse (registry : Registry) (store : Store)
    (definition : Requirement String) :
    (definition.compileIn registry store).1 =
      match (definition.map (compile registry)).traverse? Requirement.program? with
      | some requirement => .ok requirement
      | none => .error (definition.failures registry) := by
  rw [← failures_map]
  rfl

/-- It compiles if none of its leaves has diagnostics. -/
theorem compileIn_cases (registry : Registry) (store : Store) (definition : Requirement String) :
    (∃ requirement,
        (definition.map (compile registry)).traverse? Requirement.program? = some requirement ∧
        (definition.compileIn registry store).1 = .ok requirement ∧
        definition.failures registry = []) ∨
      (definition.map (compile registry)).traverse? Requirement.program? = none ∧
        (definition.compileIn registry store).1 = .error (definition.failures registry) ∧
        definition.failures registry ≠ [] := by
  have hsome := isSome_traverse (definition.map (compile registry))
  have hresult := compileIn_traverse registry store definition
  rw [failures_map] at hsome
  cases hcompiled : (definition.map (compile registry)).traverse? Requirement.program? with
  | some requirement =>
    rw [hcompiled] at hsome hresult
    exact .inl ⟨requirement, rfl, hresult, List.isEmpty_iff.mp hsome.symm⟩
  | none =>
    rw [hcompiled] at hsome hresult
    refine .inr ⟨rfl, hresult, fun hnil => ?_⟩
    rw [hnil] at hsome
    cases hsome

/-- Compiling a requirement declares the variables that its leaves mention. -/
theorem compileIn_store (registry : Registry) (store : Store) (definition : Requirement String) :
    (definition.compileIn registry store).2 =
      store.declareAll (definition.leaves.flatMap fun source =>
        (compile registry source).mentioned) := by
  change store.declareAll ((definition.map (compile registry)).leaves.flatMap _) = _
  rw [leaves_map, List.flatMap_map]

/-! ### Part by part -/

/-- The diagnostics that are collected of several requirements are those of their leaves, and
the variables that their leaves mention are declared. -/
theorem gather_snd (registry : Registry) (store : Store) (parts : List (Requirement String)) :
    (Requirement.gather registry store parts).2 =
      (Requirement.failuresOf registry parts,
        store.declareAll (Requirement.mentionedOf registry parts)) := by
  induction parts generalizing store with
  | nil => rfl
  | cons part parts ih =>
    have hmentioned : Requirement.mentionedOf registry (part :: parts) =
        (part.leaves.flatMap fun source => (compile registry source).mentioned) ++
          Requirement.mentionedOf registry parts := List.flatMap_append
    rw [failuresOf_cons, hmentioned, Store.declareAll_append, ← compileIn_store,
      Requirement.gather]
    have hrest := ih (part.compileIn registry store).2
    rcases compileIn_cases registry store part with ⟨requirement, -, hok, hnil⟩ | ⟨-, herror, -⟩
    · simp only [hok, hrest, hnil, List.nil_append]
    · simp only [herror, hrest]

/-- Several requirements have programs if no diagnostics are collected of them, and then their
trees are what is collected. -/
theorem traverseOf_gather (registry : Registry) (store : Store)
    (parts : List (Requirement String)) :
    Requirement.traverseOf? Requirement.program? (Requirement.mapOf (compile registry) parts) =
      if Requirement.failuresOf registry parts = []
      then some (Requirement.gather registry store parts).1 else none := by
  induction parts generalizing store with
  | nil => rfl
  | cons part parts ih =>
    have hrest := ih (part.compileIn registry store).2
    rw [failuresOf_cons, Requirement.mapOf, Requirement.traverseOf?, hrest, Requirement.gather]
    rcases compileIn_cases registry store part with
      ⟨requirement, htree, hok, hnil⟩ | ⟨htree, -, hne⟩
    · simp only [htree, hok, hnil, List.nil_append]
      by_cases hfailures : Requirement.failuresOf registry parts = [] <;> simp [hfailures]
    · simp only [htree, List.append_eq_nil_iff, hne, false_and, if_false]

/-- A group is built of its parts if no diagnostics are collected. -/
theorem of_compileParts {store : Store} {parts : List (Requirement String)}
    {group : List (Requirement Program) → Requirement Program}
    {requirement : Requirement Program}
    (h : (Requirement.compileParts registry store parts).1.map group = .ok requirement) :
    (Requirement.gather registry store parts).2.1 = [] ∧
      requirement = group (Requirement.gather registry store parts).1 := by
  simp only [Requirement.compileParts] at h
  split at h
  next hnil =>
    cases h
    exact ⟨List.isEmpty_iff.mp hnil, rfl⟩
  · cases h

/-- A leaf compiles as its text does. -/
theorem compileIn_single (registry : Registry) (store : Store) (source : String) :
    (Requirement.single source).compileIn registry store =
      (match (compileIn registry store source).1 with
        | .ok program => .ok (.single program)
        | .error diagnostics => .error [diagnostics],
        (compileIn registry store source).2) := by
  have hleaf : (compileIn registry store source).1 = (compile registry source).result := rfl
  refine Prod.ext ?_ ?_
  · rw [hleaf, compileIn_traverse, Requirement.failures, Requirement.map, Requirement.traverse?,
      Requirement.leaves, Requirement.program?]
    cases hc : (compile registry source).result <;>
      simp [Requirement.failure?, hc, Except.toOption]
  · rw [compileIn_store, Requirement.leaves, List.flatMap_singleton]
    rfl

/-- A group compiles part by part, whichever kind of group it is. -/
theorem compileIn_group {definition : Requirement String} {parts : List (Requirement String)}
    {group : List (Requirement Program) → Requirement Program} (store : Store)
    (hleaves : definition.leaves = Requirement.leavesOf parts)
    (htree : (definition.map (compile registry)).traverse? Requirement.program? =
      (Requirement.traverseOf? Requirement.program?
        (Requirement.mapOf (compile registry) parts)).map group) :
    definition.compileIn registry store =
      ((Requirement.compileParts registry store parts).1.map group,
        (Requirement.compileParts registry store parts).2) := by
  have hsnd := gather_snd registry store parts
  have hfailures : definition.failures registry = Requirement.failuresOf registry parts := by
    rw [Requirement.failures, hleaves, Requirement.failuresOf]
  refine Prod.ext ?_ ?_
  · simp only [compileIn_traverse, htree, traverseOf_gather registry store,
      Requirement.compileParts, hsnd, hfailures, List.isEmpty_iff]
    by_cases hnil : Requirement.failuresOf registry parts = [] <;> simp [hnil, Except.map]
  · simp only [Requirement.compileParts, hsnd]
    rw [compileIn_store, hleaves, Requirement.mentionedOf]

/-- A group all of whose parts have to be met compiles part by part. -/
theorem compileIn_all (registry : Registry) (store : Store) (parts : List (Requirement String)) :
    (Requirement.all parts).compileIn registry store =
      ((Requirement.compileParts registry store parts).1.map .all,
        (Requirement.compileParts registry store parts).2) :=
  compileIn_group store rfl rfl

/-- So does a group some part of which has to be met. -/
theorem compileIn_any (registry : Registry) (store : Store) (parts : List (Requirement String)) :
    (Requirement.any parts).compileIn registry store =
      ((Requirement.compileParts registry store parts).1.map .any,
        (Requirement.compileParts registry store parts).2) :=
  compileIn_group store rfl rfl

/-! ### Programs -/

/-- The program of a text is the one that it compiles to. -/
theorem programOf_eq {source : String} {program : Program}
    (h : (compile registry source).result = .ok program) : programOf registry source = program := by
  rw [programOf, h]

mutual

/-- A requirement that compiles keeps its shape, and its leaves become their programs. -/
theorem eq_map_of_compileIn (definition : Requirement String) {store : Store}
    {requirement : Requirement Program}
    (h : (definition.compileIn registry store).1 = .ok requirement) :
    requirement = definition.map (programOf registry) := by
  match definition with
  | .single source =>
    rw [compileIn_single] at h
    cases hc : (compileIn registry store source).1 with
    | error diagnostics => simp [hc] at h
    | ok program =>
      simp only [hc, Except.ok.injEq] at h
      rw [← h, Requirement.map, programOf_eq hc]
  | .all parts =>
    rw [compileIn_all] at h
    obtain ⟨hnil, rfl⟩ := of_compileParts h
    rw [Requirement.map, eq_mapOf_of_gather parts hnil]
  | .any parts =>
    rw [compileIn_any] at h
    obtain ⟨hnil, rfl⟩ := of_compileParts h
    rw [Requirement.map, eq_mapOf_of_gather parts hnil]

/-- So do the parts of a group. -/
theorem eq_mapOf_of_gather (parts : List (Requirement String)) {store : Store}
    (h : (Requirement.gather registry store parts).2.1 = []) :
    (Requirement.gather registry store parts).1 =
      Requirement.mapOf (programOf registry) parts := by
  match parts with
  | [] => rfl
  | part :: parts =>
    rw [Requirement.gather] at h ⊢
    rcases compileIn_cases registry store part with ⟨requirement, -, hok, -⟩ | ⟨-, herror, hne⟩
    · simp only [hok] at h ⊢
      rw [Requirement.mapOf, eq_map_of_compileIn part hok, eq_mapOf_of_gather parts h]
    · simp only [herror, List.append_eq_nil_iff] at h
      exact absurd h.1 hne

end

/-- The leaves of a requirement that compiles have programs. -/
theorem compile_leaf {definition : Requirement String} {requirement : Requirement Program}
    (h : (definition.compileIn registry store).1 = .ok requirement) :
    ∀ source ∈ definition.leaves,
      (compile registry source).result = .ok (programOf registry source) := by
  intro source hsource
  rcases compileIn_cases registry store definition with ⟨_, -, -, hnil⟩ | ⟨-, herror, -⟩
  · have hnone := List.filterMap_eq_nil_iff.mp hnil source hsource
    rw [Requirement.failure?] at hnone
    cases hc : (compile registry source).result with
    | ok program => rw [programOf_eq hc]
    | error diagnostics => simp [hc] at hnone
  · rw [herror] at h
    cases h

end GateFormula
