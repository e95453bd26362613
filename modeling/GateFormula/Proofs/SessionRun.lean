import GateFormula.Proofs.CompilingRequirements
import GateFormula.Proofs.Faults
import GateFormula.Session

/-!
# Sessions in use

A host compiles formulas for a session, adds requirements and results, checks, visits, and
writes to the store, in any order, and whatever fails may have declared some variables before.
`Sound` says what one operation after another preserves: the programs that the session keeps or
has returned are compiled with its registry, and the store has all their variables and all
targets of results. So no check, visit or evaluation ever lacks a variable.
-/

namespace GateFormula

/-- What a host does with a session. -/
inductive Session.Operation where
  /-- Compile a formula. -/
  | compile (source : String)
  /-- Add a requirement, or replace the one of that name. -/
  | addRequirement (name : String) (definition : Requirement String)
  /-- Add a result. -/
  | addResult (definition : AssignmentDef)
  /-- Check a requirement. -/
  | check (name : String)
  /-- Check all requirements. -/
  | checkAll
  /-- Report outcomes and values. -/
  | report
  /-- Apply the results. -/
  | visit
  /-- Declare a variable in the store. -/
  | declare (name : String)
  /-- Give a variable a value. -/
  | set (name : String) (value : Float)
  /-- Merge a value into a variable. -/
  | update (name : String) (value : Float)

/-- A session in use. -/
structure Session.Use where
  /-- The session. -/
  session : Session
  /-- The programs that it has returned. -/
  returned : List Program := []

/-- The use of a session with another store. -/
def Session.Use.withStore (u : Use) (store : Store) : Use :=
  { u with session := { u.session with store } }

/-- Carry out an operation, whether it succeeds or not. -/
def Session.Use.perform (u : Use) : Operation → Use
  | .compile source =>
    let (result, session) := u.session.compile source
    ⟨session, result.toOption.toList ++ u.returned⟩
  | .addRequirement name definition =>
    { u with session := (u.session.addRequirement name definition).2 }
  | .addResult definition => { u with session := (u.session.addResult definition).2 }
  | .check _ | .checkAll | .report => u
  | .visit => { u with session := u.session.visit.2 }
  | .declare name => u.withStore (u.session.store.declare name)
  | .set name value => u.withStore (u.session.store.set name value)
  | .update name value => u.withStore (u.session.store.update name value)

/-- Carry out operations in order. -/
def Session.Use.performAll (u : Use) (operations : List Operation) : Use :=
  operations.foldl perform u

/-- How a session comes about: from a registry and a store, or from a definition all of whose
formulas compile. -/
inductive Session.Made (registry : Registry) : Session → Prop where
  /-- Nothing is added. -/
  | new (store : Store) : Made registry (Session.new registry store)
  /-- The definition is added. -/
  | ofDefinition {definition : SessionDef} {s : Session}
      (built : Session.ofDefinition definition registry = .ok s) : Made registry s

/-- The programs of a session in use: those that it has returned, the leaves of its
requirements, and the formulas of its results. -/
inductive Session.Use.Holds (u : Use) : Program → Prop where
  /-- A program that was returned. -/
  | returned {program : Program} (known : program ∈ u.returned) : Holds u program
  /-- A leaf of a requirement. -/
  | requirement {name : String} {requirement : Requirement Program} {program : Program}
      (known : u.session.requirements[name]? = some requirement)
      (leaf : program ∈ requirement.leaves) : Holds u program
  /-- The formula of a result. -/
  | result {assignment : Assignment} (known : assignment ∈ u.session.results) :
      Holds u assignment.program

/-- Nothing that a session in use may read or write is missing in its store. -/
structure Session.Use.Sound (registry : Registry) (u : Use) : Prop where
  /-- The registry is the one that the session was made with. -/
  registry_eq : u.session.registry = registry
  /-- Every program runs in the store. -/
  runs : ∀ program, u.Holds program → program.RunsIn registry u.session.store
  /-- The targets of results are in the store. -/
  targets : ∀ assignment ∈ u.session.results, u.session.store.contains assignment.target = true

variable {registry : Registry}

/-! ### Programs in larger stores -/

/-- Applying assignments keeps all variables. -/
theorem extends_applyAll (assignments : List Assignment) (store : Store) :
    (Assignment.applyAll assignments store).2.Extends store := by
  induction assignments generalizing store with
  | nil => exact fun _ h => h
  | cons assignment assignments ih =>
    rw [Assignment.applyAll, Assignment.apply]
    cases assignment.program.evaluate store with
    | error fault => exact fun _ h => h
    | ok value => exact (ih _).trans (extends_set store _ _)

/-- A program still runs in a store that has become larger. -/
theorem Program.RunsIn.extend {larger store : Store} {program : Program}
    (h : program.RunsIn registry store) (he : larger.Extends store) :
    program.RunsIn registry larger :=
  ⟨h.compiled, fun name hname => he name (h.known name hname)⟩

/-- A program that has been compiled runs once the variables that its text mentions are
declared. -/
theorem runsIn_declareAll {store : Store} {source : String} {program : Program}
    {names : List String} (h : (compile registry source).result = .ok program)
    (hn : (compile registry source).mentioned ⊆ names) :
    program.RunsIn registry (store.declareAll names) := by
  refine ⟨⟨source, h⟩, fun name hname => contains_declareAll (hn ?_)⟩
  rw [references_of_compile h] at hname
  exact mem_firstOccurrences.mp hname

/-- The leaves of a compiled requirement run in the store that it was compiled for. -/
theorem runsIn_of_requirement {store : Store} {definition : Requirement String}
    {requirement : Requirement Program}
    (h : (definition.compileIn registry store).1 = .ok requirement) :
    ∀ program ∈ requirement.leaves,
      program.RunsIn registry (definition.compileIn registry store).2 := by
  intro program hp
  rw [eq_map_of_compileIn definition h, leaves_map] at hp
  obtain ⟨source, hsource, rfl⟩ := List.mem_map.mp hp
  rw [compileIn_store]
  exact runsIn_declareAll (compile_leaf h source hsource) fun name hname =>
    List.mem_flatMap.mpr ⟨source, hsource, hname⟩

/-! ### One operation -/

namespace Session.Use.Sound

variable {u : Session.Use}

/-- A larger store takes nothing from a session. -/
theorem withStore (h : u.Sound registry) {store : Store} (he : store.Extends u.session.store) :
    (u.withStore store).Sound registry where
  registry_eq := h.registry_eq
  runs := by
    intro program hp
    refine (h.runs program ?_).extend he
    cases hp with
    | returned known => exact .returned known
    | requirement known leaf => exact .requirement known leaf
    | result known => exact .result known
  targets := fun assignment ha => he _ (h.targets assignment ha)

/-- A program that runs may be returned. -/
theorem withProgram (h : u.Sound registry) {program : Program}
    (hp : program.RunsIn registry u.session.store) :
    Sound registry { u with returned := program :: u.returned } where
  registry_eq := h.registry_eq
  runs := by
    intro other ho
    cases ho with
    | requirement known leaf => exact h.runs other (.requirement known leaf)
    | result known => exact h.runs _ (.result known)
    | returned known =>
      rcases List.mem_cons.mp known with rfl | known
      · exact hp
      · exact h.runs other (.returned known)
  targets := h.targets

/-- A requirement whose leaves run may be kept. -/
theorem withRequirement (h : u.Sound registry) (name : String)
    {requirement : Requirement Program}
    (hr : ∀ program ∈ requirement.leaves, program.RunsIn registry u.session.store) :
    Sound registry
      { u with session := { u.session with
          requirements := u.session.requirements.insert name requirement } } where
  registry_eq := h.registry_eq
  runs := by
    intro program hp
    cases hp with
    | returned known => exact h.runs program (.returned known)
    | result known => exact h.runs _ (.result known)
    | requirement known leaf =>
      rw [Std.ExtTreeMap.getElem?_insert] at known
      split at known
      · cases known
        exact hr program leaf
      · exact h.runs program (.requirement known leaf)
  targets := h.targets

/-- A result may be kept whose formula runs and whose target is in the store. -/
theorem withResult (h : u.Sound registry) {assignment : Assignment}
    (hp : assignment.program.RunsIn registry u.session.store)
    (ht : u.session.store.contains assignment.target = true) :
    Sound registry
      { u with session := { u.session with results := u.session.results ++ [assignment] } } where
  registry_eq := h.registry_eq
  runs := by
    intro program hq
    cases hq with
    | returned known => exact h.runs program (.returned known)
    | requirement known leaf => exact h.runs program (.requirement known leaf)
    | result known =>
      rcases List.mem_append.mp known with known | known
      · exact h.runs _ (.result known)
      · cases List.mem_singleton.mp known
        exact hp
  targets := by
    intro other ho
    rcases List.mem_append.mp ho with ho | ho
    · exact h.targets other ho
    · cases List.mem_singleton.mp ho
      exact ht

/-- Compiling returns a program that runs, or declares some variables and fails. -/
theorem compile (h : u.Sound registry) (source : String) :
    (u.perform (.compile source)).Sound registry := by
  obtain rfl := h.registry_eq
  have hstore := h.withStore (extends_declareAll u.session.store
    (GateFormula.compile u.session.registry source).mentioned)
  change Sound _ ⟨_, (GateFormula.compile u.session.registry source).result.toOption.toList ++ _⟩
  cases hc : (GateFormula.compile u.session.registry source).result with
  | error diagnostics => exact hstore
  | ok program => exact hstore.withProgram (runsIn_declareAll hc (List.Subset.refl _))

/-- Adding a requirement keeps programs that run, or declares some variables and fails. -/
theorem addRequirement (h : u.Sound registry) (name : String) (definition : Requirement String) :
    (u.perform (.addRequirement name definition)).Sound registry := by
  obtain rfl := h.registry_eq
  have hstore := h.withStore (extends_declareAll u.session.store
    (definition.compile u.session.registry).1)
  change Sound _ ⟨(Session.addRequirement u.session name definition).2, u.returned⟩
  have hcompile : definition.compileIn u.session.registry u.session.store =
      ((definition.compile u.session.registry).2,
        u.session.store.declareAll (definition.compile u.session.registry).1) := rfl
  rw [Session.addRequirement, hcompile]
  cases hc : (definition.compile u.session.registry).2 with
  | error failures => exact hstore
  | ok requirement => exact hstore.withRequirement name (runsIn_of_requirement hc)

/-- Adding a result keeps a program that runs and declares its target, or declares some variables
and fails. -/
theorem addResult (h : u.Sound registry) (definition : AssignmentDef) :
    (u.perform (.addResult definition)).Sound registry := by
  obtain rfl := h.registry_eq
  let compilation := GateFormula.compile u.session.registry definition.expression
  let store := u.session.store.declareAll compilation.mentioned
  have hstore : (u.withStore store).Sound u.session.registry :=
    h.withStore (extends_declareAll _ _)
  have hdeclared : (u.withStore (store.declare definition.target)).Sound u.session.registry :=
    hstore.withStore (extends_declareAll store [definition.target])
  change Sound _ ⟨(Session.addResult u.session definition).2, u.returned⟩
  have hcompile : compileIn u.session.registry u.session.store definition.expression =
      (compilation.result, store) := rfl
  rw [Session.addResult, Assignment.compileIn, hcompile]
  cases hc : compilation.result with
  | error diagnostics => exact hstore
  | ok program =>
    have hprogram : program.RunsIn u.session.registry store :=
      runsIn_declareAll hc (List.Subset.refl _)
    have htarget : (store.declareAll [definition.target]).contains definition.target = true :=
      contains_declareAll (List.mem_singleton_self _)
    exact hdeclared.withResult
      (hprogram.extend (extends_declareAll store [definition.target])) htarget

/-- No operation takes anything from a session. -/
theorem perform (h : u.Sound registry) (operation : Operation) :
    (u.perform operation).Sound registry := by
  cases operation with
  | compile source => exact h.compile source
  | addRequirement name definition => exact h.addRequirement name definition
  | addResult definition => exact h.addResult definition
  | check | checkAll | report => exact h
  | visit =>
    have hstore := h.withStore (extends_applyAll u.session.results u.session.store)
    change Sound _ ⟨(Session.visit u.session).2, u.returned⟩
    unfold Session.visit
    cases ha : Assignment.applyAll u.session.results u.session.store with
    | mk fault? store =>
      rw [ha] at hstore
      cases fault? <;> exact hstore
  | declare name => exact h.withStore (extends_declareAll u.session.store [name])
  | set name value => exact h.withStore (extends_set u.session.store name value)
  | update name value => exact h.withStore (extends_set u.session.store name _)

/-- Neither does a row of operations. -/
theorem performAll (h : u.Sound registry) (operations : List Operation) :
    (u.performAll operations).Sound registry := by
  induction operations generalizing u with
  | nil => exact h
  | cons operation operations ih => exact ih (h.perform operation)

/-- Adding requirements takes nothing from a session. -/
theorem addRequirements {s : Session} {returned : List Program}
    (h : Sound registry ⟨s, returned⟩) (entries : List (String × Requirement String)) :
    Sound registry ⟨(Session.addRequirements entries s).2, returned⟩ := by
  induction entries generalizing s with
  | nil => exact h
  | cons entry entries ih => exact ih (h.addRequirement entry.1 entry.2)

/-- Adding results takes nothing from a session. -/
theorem addResults {s : Session} {returned : List Program}
    (h : Sound registry ⟨s, returned⟩) (index : Nat) (entries : List AssignmentDef) :
    Sound registry ⟨(Session.addResults index entries s).2, returned⟩ := by
  induction entries generalizing s index with
  | nil => exact h
  | cons entry entries ih => exact ih (h.addResult entry) (index + 1)

/-- A session without requirements and results lacks nothing. -/
theorem fresh (name : String) (registry : Registry) (store : Store) :
    Sound registry ⟨{ Session.new registry store with name }, []⟩ where
  registry_eq := rfl
  runs := by
    intro program hp
    cases hp with
    | returned known => cases known
    | result known => cases known
    | requirement known leaf =>
      change (∅ : NameMap (Requirement Program))[_]? = some _ at known
      rw [Std.ExtTreeMap.getElem?_empty] at known
      cases known
  targets := fun _ ha => absurd ha List.not_mem_nil

end Session.Use.Sound

/-- A session lacks nothing when it is made. -/
theorem sound_of_made {s : Session} (h : s.Made registry) : Session.Use.Sound registry ⟨s, []⟩ := by
  cases h with
  | new store => exact .fresh "" registry store
  | @ofDefinition definition _ built =>
    have hfresh := Session.Use.Sound.fresh definition.name registry (.ofSchema definition.schema)
    have hs := (hfresh.addRequirements definition.requirements.toList).addResults 0
      definition.results
    unfold Session.ofDefinition at built
    simp only at built
    split at built
    · cases built
      exact hs
    · cases built

/-! ### What an operation answers -/

/-- A visit ends early only because a function refuses its arguments, if all programs run. -/
theorem isRefusal_of_applyAll (hr : registry.Reachable) (hh : registry.IsHonest)
    {assignments : List Assignment} {store : Store} {fault : Fault}
    (h : ∀ assignment ∈ assignments, assignment.program.RunsIn registry store)
    (hf : (Assignment.applyAll assignments store).1 = some fault) : fault.isRefusal = true := by
  induction assignments generalizing store with
  | nil => cases hf
  | cons assignment assignments ih =>
    obtain ⟨hfirst, hrest⟩ := List.forall_mem_cons.mp h
    rw [Assignment.applyAll, Assignment.apply] at hf
    cases hvalue : assignment.program.evaluate store with
    | error other =>
      rw [hvalue] at hf
      cases hf
      exact hfirst.isRefusal hr hh hvalue
    | ok value =>
      rw [hvalue] at hf
      exact ih (fun other ho => (hrest other ho).extend (extends_set store _ _)) hf

/-- A requirement that is kept fails only because a function refuses its arguments. -/
theorem isRefusal_of_isMet (hr : registry.Reachable) (hh : registry.IsHonest)
    {u : Session.Use} (h : u.Sound registry) {name : String} {requirement : Requirement Program}
    {fault : Fault} (hk : u.session.requirements[name]? = some requirement)
    (hf : requirement.isMet u.session.store = .error fault) : fault.isRefusal = true := by
  obtain ⟨program, hleaf, hp⟩ := leaf_of_isMet hf
  exact (h.runs program (.requirement hk hleaf)).isRefusal hr hh hp

/-- Whatever a host does with a session, whether it succeeds or not: the variables of all
programs that the session keeps or has returned are in its store, and so are the targets of its
results. With functions that do not blame variables, evaluating such a program, checking and
visiting therefore fail only where a function refuses its arguments, or where there is no
requirement of the name; nothing is undeclared and no code is unbalanced. -/
theorem session_lacks_nothing {s : Session} (made : s.Made registry)
    (operations : List Session.Operation) :
    let u := Session.Use.performAll ⟨s, []⟩ operations
    (∀ program, u.Holds program →
      ∀ name ∈ program.references, u.session.store.contains name = true) ∧
    (∀ assignment ∈ u.session.results, u.session.store.contains assignment.target = true) ∧
    (registry.Reachable → registry.IsHonest →
      (∀ program fault, u.Holds program →
        program.evaluate u.session.store = .error fault → fault.isRefusal = true) ∧
      (∀ name error, u.session.check name = .error error →
        u.session.requirements[name]? = none ∧ error = .requirementNotFound name ∨
          ∃ fault, error = .evaluation fault ∧ fault.isRefusal = true) ∧
      (∀ name fault, (name, .error fault) ∈ u.session.checkAll → fault.isRefusal = true) ∧
      ∀ error, u.session.visit.1 = .error error →
        ∃ fault, error = .evaluation fault ∧ fault.isRefusal = true) := by
  intro u
  have h : u.Sound registry := (sound_of_made made).performAll operations
  refine ⟨fun program hp => (h.runs program hp).known, h.targets, fun hr hh =>
    ⟨fun program fault hp => (h.runs program hp).isRefusal hr hh, ?check, ?checkAll, ?visit⟩⟩
  case check =>
    intro name error herror
    rw [Session.check] at herror
    split at herror
    next hnone =>
      cases herror
      exact .inl ⟨hnone, rfl⟩
    next requirement hsome =>
      split at herror
      next fault hfault =>
        cases herror
        exact .inr ⟨fault, rfl, isRefusal_of_isMet hr hh h hsome hfault⟩
      · cases herror
  case checkAll =>
    intro name fault hmem
    obtain ⟨⟨_, requirement⟩, hentry, heq⟩ := List.mem_map.mp hmem
    obtain ⟨rfl, hfault⟩ := Prod.mk.inj heq
    exact isRefusal_of_isMet hr hh h (Std.ExtTreeMap.mem_toList_iff_getElem?_eq_some.mp hentry)
      hfault
  case visit =>
    intro error herror
    rw [Session.visit] at herror
    split at herror
    · cases herror
    next fault store hfault =>
      cases herror
      exact ⟨fault, rfl, isRefusal_of_applyAll hr hh
        (fun assignment ha => h.runs _ (.result ha)) (congrArg Prod.fst hfault)⟩

/-- A requirement with a broken leaf, a result, and a visit. -/
theorem session_lacks_nothing_visited :
    (Session.new .builtin .empty).Made .builtin ∧ Registry.builtin.Reachable ∧
      Registry.builtin.IsHonest ∧
      let u := Session.Use.performAll ⟨.new .builtin .empty, []⟩
        [.addRequirement "gate" (.all [.single "$key$", .single "nope"]),
          .addResult ⟨"best", "max($key$)"⟩, .visit]
      u.session.results.map Assignment.target = ["best"] ∧
        (∀ assignment ∈ u.session.results,
          u.session.store.contains assignment.target = true) ∧
        ∀ error, u.session.visit.1 = .error error →
          ∃ fault, error = .evaluation fault ∧ fault.isRefusal = true := by
  have made : (Session.new .builtin .empty).Made .builtin := .new .empty
  have h := session_lacks_nothing made
    [.addRequirement "gate" (.all [.single "$key$", .single "nope"]),
      .addResult ⟨"best", "max($key$)"⟩, .visit]
  exact ⟨made, .builtin, Registry.builtin_isHonest, by decide +kernel, h.2.1,
    (h.2.2 .builtin Registry.builtin_isHonest).2.2.2⟩

end GateFormula
