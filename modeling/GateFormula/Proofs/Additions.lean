import GateFormula.Proofs.SessionRun

/-!
# Additions that fail

Compiling a formula for a session and adding a requirement or a result write to its store before
it is known whether they succeed. `Spared` says what a failing one leaves: everything but the
store, and there nothing but zeros for variables that the formulas handed over mention. So what
a session holds is drawn from the additions that have succeeded: `Records` says that a requirement
is the one that was added last under its name, and that the results are those that were added, in
order. One operation after another preserves it, whatever fails in between.
-/

namespace GateFormula

namespace Session

/-- Whether an operation compiles for a session, to return a program or to add it. -/
def Operation.isAddition : Operation → Bool
  | .compile _ | .addRequirement _ _ | .addResult _ => true
  | .check _ | .checkAll | .report | .visit | .declare _ | .set _ _ | .update _ _ => false

/-- The formulas that an operation hands over. -/
def Operation.sources : Operation → List String
  | .compile source => [source]
  | .addRequirement _ definition => definition.leaves
  | .addResult definition => [definition.expression]
  | .check _ | .checkAll | .report | .visit | .declare _ | .set _ _ | .update _ _ => []

/-- The requirement that an operation adds under a name. -/
def Operation.requirement? (name : String) : Operation → Option (Requirement String)
  | .addRequirement added definition => if added = name then some definition else none
  | .compile _ | .addResult _ | .check _ | .checkAll | .report | .visit | .declare _ | .set _ _
  | .update _ _ => none

/-- The result that an operation adds. -/
def Operation.result? : Operation → Option AssignmentDef
  | .addResult definition => some definition
  | .compile _ | .addRequirement _ _ | .check _ | .checkAll | .report | .visit | .declare _
  | .set _ _ | .update _ _ => none

/-- Whether an operation succeeds. -/
def accepts (s : Session) : Operation → Bool
  | .compile source => (s.compile source).1.isOk
  | .addRequirement name definition => (s.addRequirement name definition).1.isOk
  | .addResult definition => (s.addResult definition).1.isOk
  | .check name => (s.check name).isOk
  | .visit => s.visit.1.isOk
  | .checkAll | .report | .declare _ | .set _ _ | .update _ _ => true

namespace Use

/-- The operations of a row that succeed, in order, each in the state that those before it have
left. -/
def accepted (u : Use) : List Operation → List Operation
  | [] => []
  | operation :: operations =>
    if u.session.accepts operation then
      operation :: (u.perform operation).accepted operations
    else (u.perform operation).accepted operations

/-- What a failing addition of some formulas leaves of a session in use. -/
structure Spared (registry : Registry) (sources : List String) (before after : Use) : Prop where
  /-- The requirements stay. -/
  requirements : after.session.requirements = before.session.requirements
  /-- The results stay. -/
  results : after.session.results = before.session.results
  /-- No program is returned. -/
  returned : after.returned = before.returned
  /-- The rules of variables stay. -/
  reducers : after.session.store.reducers = before.session.store.reducers
  /-- Every variable keeps its value. -/
  kept : ∀ name value, before.session.store.get? name = some value →
    after.session.store.get? name = some value
  /-- The variables that the formulas mention are there, those among them that are new with the
  value zero, and no others are added. -/
  added : ∀ name, before.session.store.get? name = none →
    ∀ value, after.session.store.get? name = some value ↔
      value = 0 ∧ ∃ source ∈ sources, ∃ index, Mentions registry source index name

end Use

/-- The requirement that the operations of a row have added last under a name. -/
def lastRequirement? (name : String) (operations : List Operation) : Option (Requirement String) :=
  (operations.filterMap (Operation.requirement? name)).getLast?

/-- What a requirement compiles to, for whatever store. -/
def RequirementOf (registry : Registry) (definition : Requirement String)
    (requirement : Requirement Program) : Prop :=
  ∀ store, (definition.compileIn registry store).1 = .ok requirement

/-- What a result compiles to, for whatever store. -/
def ResultOf (registry : Registry) (definition : AssignmentDef) (assignment : Assignment) : Prop :=
  assignment.target = definition.target ∧
    ∀ store, (compileIn registry store definition.expression).1 = .ok assignment.program

/-- What a session holds is what the operations that have succeeded say. -/
structure Records (registry : Registry) (accepted : List Operation) (s : Session) : Prop where
  /-- The registry is the one that the session was made with. -/
  registry_eq : s.registry = registry
  /-- Under a name is what the definition that was added last under it compiles to, or nothing if
  none was. -/
  requirement : ∀ name, Option.Rel (RequirementOf registry) (lastRequirement? name accepted)
    s.requirements[name]?
  /-- The results are those that were added, in order. -/
  results : List.Forall₂ (ResultOf registry) (accepted.filterMap Operation.result?) s.results

/-! ### How an addition ends -/

/-- Adding a requirement declares what its leaves mention. It fails for every store or for none,
and keeps the compiled requirement if it does not fail. -/
theorem addRequirement_cases (s : Session) (name : String) (definition : Requirement String) :
    (∃ failures, s.addRequirement name definition =
        (.error failures, { s with store := (definition.compileIn s.registry s.store).2 })) ∨
      ∃ requirement, RequirementOf s.registry definition requirement ∧
        s.addRequirement name definition =
          (.ok (), { s with
            store := (definition.compileIn s.registry s.store).2
            requirements := s.requirements.insert name requirement }) := by
  have hany : ∀ store, (definition.compileIn s.registry store).1 =
      (definition.compileIn s.registry s.store).1 := fun _ => rfl
  rw [Session.addRequirement]
  rcases hc : definition.compileIn s.registry s.store with ⟨failures | requirement, store⟩
  · exact .inl ⟨failures, rfl⟩
  · rw [hc] at hany
    exact .inr ⟨requirement, hany, rfl⟩

/-- Adding a result declares what its formula mentions. It fails for every store or for none, and
keeps the compiled result and declares its target if it does not fail. -/
theorem addResult_cases (s : Session) (definition : AssignmentDef) :
    (∃ diagnostics, s.addResult definition =
        (.error diagnostics,
          { s with store := (compileIn s.registry s.store definition.expression).2 })) ∨
      ∃ assignment, ResultOf s.registry definition assignment ∧
        s.addResult definition =
          (.ok (), { s with
            store := (compileIn s.registry s.store definition.expression).2.declare
              definition.target
            results := s.results ++ [assignment] }) := by
  have hany : ∀ store, (compileIn s.registry store definition.expression).1 =
      (compileIn s.registry s.store definition.expression).1 := fun _ => rfl
  rw [Session.addResult, Assignment.compileIn]
  rcases hc : compileIn s.registry s.store definition.expression with
    ⟨diagnostics | program, store⟩
  · exact .inl ⟨diagnostics, rfl⟩
  · rw [hc] at hany
    exact .inr ⟨⟨definition.target, program⟩, ⟨rfl, hany⟩, rfl⟩

/-! ### What an addition leaves -/

/-- The variables that the formulas of an operation mention. -/
def Operation.mentioned (registry : Registry) (operation : Operation) : List String :=
  operation.sources.flatMap fun source => (GateFormula.compile registry source).mentioned

/-- A variable that the formulas of an operation mention is mentioned in one of them. -/
theorem mem_mentioned {registry : Registry} {operation : Operation} {name : String} :
    name ∈ operation.mentioned registry ↔
      ∃ source ∈ operation.sources, ∃ index, Mentions registry source index name := by
  simp only [Operation.mentioned, List.mem_flatMap, mem_mentioned_iff]

/-- An addition that fails declares what its formulas mention and does nothing else. -/
theorem perform_of_refused {u : Use} {operation : Operation}
    (ha : operation.isAddition = true) (hr : u.session.accepts operation = false) :
    u.perform operation =
      u.withStore (u.session.store.declareAll (operation.mentioned u.session.registry)) := by
  cases operation with
  | compile source =>
    have hnames : (Operation.compile source).mentioned u.session.registry =
        (GateFormula.compile u.session.registry source).mentioned := List.flatMap_singleton _ _
    have hresult : (u.session.compile source).1 =
        (GateFormula.compile u.session.registry source).result := rfl
    rw [hnames]
    simp only [accepts, hresult] at hr
    change (⟨_, (GateFormula.compile u.session.registry source).result.toOption.toList ++ _⟩ : Use)
      = _
    cases hc : (GateFormula.compile u.session.registry source).result with
    | ok program => rw [hc] at hr; cases hr
    | error diagnostics => rfl
  | addRequirement name definition =>
    have hstore : u.session.store.declareAll
        ((Operation.addRequirement name definition).mentioned u.session.registry) =
          (definition.compileIn u.session.registry u.session.store).2 :=
      (compileIn_store _ _ definition).symm
    rw [hstore, Use.perform, Use.withStore]
    rcases addRequirement_cases u.session name definition with ⟨failures, hadd⟩ |
      ⟨requirement, -, hadd⟩
    · rw [hadd]
    · rw [accepts, hadd] at hr
      cases hr
  | addResult definition =>
    have hnames : (Operation.addResult definition).mentioned u.session.registry =
        (GateFormula.compile u.session.registry definition.expression).mentioned :=
      List.flatMap_singleton _ _
    have hstore : u.session.store.declareAll
        (GateFormula.compile u.session.registry definition.expression).mentioned =
          (compileIn u.session.registry u.session.store definition.expression).2 := rfl
    rw [hnames, hstore, Use.perform, Use.withStore]
    rcases addResult_cases u.session definition with ⟨diagnostics, hadd⟩ | ⟨assignment, -, hadd⟩
    · rw [hadd]
    · rw [accepts, hadd] at hr
      cases hr
  | check | checkAll | report | visit | declare | set | update => cases ha

/-- Declaring what formulas mention spares a session. -/
theorem spared_of_declareAll {registry : Registry} (u : Use) {operation : Operation} :
    Use.Spared registry operation.sources u
      (u.withStore (u.session.store.declareAll (operation.mentioned registry))) where
  requirements := rfl
  results := rfl
  returned := rfl
  reducers := u.session.store.reducers_declareAll _
  kept := by
    intro name value hvalue
    change (u.session.store.declareAll _).get? name = some value
    simp [hvalue]
  added := by
    intro name hnone value
    change (u.session.store.declareAll _).get? name = some value ↔ _
    rw [← mem_mentioned]
    by_cases hmem : name ∈ operation.mentioned registry
    · simp [hnone, hmem, eq_comm]
    · simp [hnone, hmem]

/-! ### What a session records -/

/-- What the last member of a row maps to comes last. -/
theorem filterMap_concat {α β : Type} (f : α → Option β) (row : List α) (last : α) :
    (row ++ [last]).filterMap f = row.filterMap f ++ (f last).toList := by
  rw [List.filterMap_append, List.filterMap_cons, List.filterMap_nil]
  cases f last <;> rfl

namespace Records

variable {registry : Registry} {accepted : List Operation} {s : Session}

/-- A session without requirements and results records that nothing has been added. -/
theorem fresh (registry : Registry) (store : Store) :
    Records registry [] (Session.new registry store) where
  registry_eq := rfl
  requirement := by
    intro name
    have hnone : (Session.new registry store).requirements[name]? = none :=
      Std.ExtTreeMap.getElem?_empty
    rw [hnone]
    exact .none
  results := .nil

/-- The store and the name of a session do not matter. -/
theorem congr (h : Records registry accepted s) {t : Session} (hregistry : t.registry = s.registry)
    (hrequirements : t.requirements = s.requirements) (hresults : t.results = s.results) :
    Records registry accepted t where
  registry_eq := hregistry.trans h.registry_eq
  requirement := by rw [hrequirements]; exact h.requirement
  results := by rw [hresults]; exact h.results

/-- An operation that adds neither a requirement nor a result is not recorded. -/
theorem skip (h : Records registry accepted s) {operation : Operation}
    (hrequirement : ∀ name, operation.requirement? name = none)
    (hresult : operation.result? = none) : Records registry (accepted ++ [operation]) s where
  registry_eq := h.registry_eq
  requirement := by
    intro name
    rw [lastRequirement?, filterMap_concat, hrequirement name, Option.toList_none, List.append_nil]
    exact h.requirement name
  results := by
    rw [filterMap_concat, hresult, Option.toList_none, List.append_nil]
    exact h.results

/-- A requirement that compiles takes the place of the one that had its name. -/
theorem addRequirement (h : Records registry accepted s) (name : String)
    {definition : Requirement String} {requirement : Requirement Program}
    (hc : RequirementOf registry definition requirement) :
    Records registry (accepted ++ [.addRequirement name definition])
      { s with requirements := s.requirements.insert name requirement } where
  registry_eq := h.registry_eq
  requirement := by
    intro other
    have hinsert : (s.requirements.insert name requirement)[other]? =
        if name = other then some requirement else s.requirements[other]? := by
      simp only [Std.ExtTreeMap.getElem?_insert, Std.compare_eq_iff_eq]
    change Option.Rel _ _ (s.requirements.insert name requirement)[other]?
    rw [hinsert, lastRequirement?, filterMap_concat]
    by_cases hname : name = other
    · have hadded : (Operation.addRequirement name definition).requirement? other =
          some definition := if_pos hname
      rw [if_pos hname, hadded, Option.toList_some, List.getLast?_concat]
      exact .some hc
    · have hadded : (Operation.addRequirement name definition).requirement? other = none :=
        if_neg hname
      rw [if_neg hname, hadded, Option.toList_none, List.append_nil]
      exact h.requirement other
  results := by
    rw [filterMap_concat]
    exact (List.append_nil _).symm ▸ h.results

/-- A result that compiles comes behind the others. -/
theorem addResult (h : Records registry accepted s) {definition : AssignmentDef}
    {assignment : Assignment} (hc : ResultOf registry definition assignment) :
    Records registry (accepted ++ [.addResult definition])
      { s with results := s.results ++ [assignment] } where
  registry_eq := h.registry_eq
  requirement := by
    intro name
    rw [lastRequirement?, filterMap_concat]
    exact (List.append_nil _).symm ▸ h.requirement name
  results := by
    rw [filterMap_concat]
    exact List.rel_append h.results (.cons hc .nil)

/-- An operation that adds nothing leaves requirements and results alone, and is recorded if it
succeeds. -/
theorem frame {u : Use} (h : Records registry accepted u.session) {operation : Operation}
    (hrequirement : ∀ name, operation.requirement? name = none)
    (hresult : operation.result? = none) :
    Records registry (accepted ++ if u.session.accepts operation then [operation] else [])
      (u.perform operation).session := by
  have hsame : (u.perform operation).session.registry = u.session.registry ∧
      (u.perform operation).session.requirements = u.session.requirements ∧
      (u.perform operation).session.results = u.session.results := by
    cases operation with
    | addRequirement name definition =>
      have hsome : some definition = none := (if_pos rfl).symm.trans (hrequirement name)
      cases hsome
    | addResult definition => cases hresult
    | visit =>
      simp only [Use.perform, Session.visit]
      split <;> exact ⟨rfl, rfl, rfl⟩
    | compile | check | checkAll | report | declare | set | update => exact ⟨rfl, rfl, rfl⟩
  have hkept := h.congr hsame.1 hsame.2.1 hsame.2.2
  split
  · exact hkept.skip hrequirement hresult
  · rw [List.append_nil]
    exact hkept

/-- An operation is recorded if it succeeds, and otherwise nothing is. -/
theorem perform {u : Use} (h : Records registry accepted u.session) (operation : Operation) :
    Records registry (accepted ++ if u.session.accepts operation then [operation] else [])
      (u.perform operation).session := by
  obtain rfl := h.registry_eq
  cases operation with
  | addRequirement name definition =>
    rw [accepts, Use.perform]
    rcases addRequirement_cases u.session name definition with ⟨failures, hadd⟩ |
      ⟨requirement, hc, hadd⟩
    · rw [hadd]
      exact (List.append_nil accepted).symm ▸ h.congr rfl rfl rfl
    · rw [hadd]
      exact (h.addRequirement name hc).congr rfl rfl rfl
  | addResult definition =>
    rw [accepts, Use.perform]
    rcases addResult_cases u.session definition with ⟨diagnostics, hadd⟩ | ⟨assignment, hc, hadd⟩
    · rw [hadd]
      exact (List.append_nil accepted).symm ▸ h.congr rfl rfl rfl
    · rw [hadd]
      exact (h.addResult hc).congr rfl rfl rfl
  | compile | check | checkAll | report | visit | declare | set | update =>
    exact h.frame (fun _ => rfl) rfl

/-- So are those of a row that succeed. -/
theorem performAll {u : Use} (h : Records registry accepted u.session)
    (operations : List Operation) :
    Records registry (accepted ++ u.accepted operations) (u.performAll operations).session := by
  induction operations generalizing u accepted with
  | nil => exact (List.append_nil accepted).symm ▸ h
  | cons operation operations ih =>
    have hrest : Records registry _ ((u.perform operation).performAll operations).session :=
      ih (h.perform operation)
    have haccepted : u.accepted (operation :: operations) =
        (if u.session.accepts operation then [operation] else []) ++
          (u.perform operation).accepted operations := by
      rw [Use.accepted]
      split <;> rfl
    rw [haccepted, ← List.append_assoc]
    exact hrest

/-- There is a requirement under a name if one was added. -/
theorem isSome_iff (h : Records registry accepted s) (name : String) :
    s.requirements[name]?.isSome = true ↔
      ∃ definition, Operation.addRequirement name definition ∈ accepted := by
  have hsame : ∀ {a b}, Option.Rel (RequirementOf registry) a b → b.isSome = a.isSome := by
    intro a b hrel
    cases hrel <;> rfl
  have hadded : ∀ operation definition, operation.requirement? name = some definition ↔
      operation = Operation.addRequirement name definition := by
    intro operation definition
    cases operation with
    | addRequirement other added =>
      rw [Operation.requirement?, Option.ite_none_right_eq_some, Option.some.injEq,
        Operation.addRequirement.injEq]
    | compile | addResult | check | checkAll | report | visit | declare | set | update =>
      exact ⟨fun h => (by cases h), fun h => (by cases h)⟩
  rw [hsame (h.requirement name), lastRequirement?, List.getLast?_isSome, Ne,
    List.eq_nil_iff_forall_not_mem]
  simp only [List.mem_filterMap, hadded, exists_eq_right, not_forall, not_not]

end Records

/-- Whatever a host does with a new session. A compilation or an addition that fails leaves the
requirements, the results, the rules and the values of variables as they were, and adds to the
store just the variables that its formulas mention before their ends or their syntax errors, with
the value zero; the target of a result is not among them unless the formula mentions it. So the
requirements are those under whose names one was added, each the one that was added last, the
results are those that were added, in order, and checking finds no requirement under a name just
if none was added. -/
theorem additions_recorded (registry : Registry) (store : Store) (operations : List Operation) :
    let start : Use := ⟨Session.new registry store, []⟩
    let u := start.performAll operations
    (∀ operation : Operation, operation.isAddition = true →
      u.session.accepts operation = false →
        Use.Spared registry operation.sources u (u.perform operation)) ∧
    (∀ name, name ∈ u.session.requirementNames ↔
      ∃ definition, Operation.addRequirement name definition ∈ start.accepted operations) ∧
    (∀ name, Option.Rel (RequirementOf registry)
      (lastRequirement? name (start.accepted operations)) u.session.requirements[name]?) ∧
    (∀ name other, u.session.check name = .error (.requirementNotFound other) ↔
      other = name ∧
        ∀ definition, Operation.addRequirement name definition ∉ start.accepted operations) ∧
    List.Forall₂ (ResultOf registry)
      ((start.accepted operations).filterMap Operation.result?) u.session.results := by
  intro start u
  have h : Records registry (start.accepted operations) u.session :=
    (Records.fresh registry store).performAll (u := start) operations
  refine ⟨fun operation ha hr => ?spared, fun name => ?names, h.requirement,
    fun name other => ?check, h.results⟩
  case spared =>
    rw [perform_of_refused ha hr, h.registry_eq]
    exact spared_of_declareAll u
  case names =>
    rw [← h.isSome_iff name, Session.requirementNames, Std.ExtTreeMap.mem_keys,
      Std.ExtTreeMap.mem_iff_isSome_getElem?]
  case check =>
    have hmissing : u.session.requirements[name]? = none ↔
        ∀ definition, Operation.addRequirement name definition ∉ start.accepted operations := by
      rw [← not_exists, ← h.isSome_iff name, Option.not_isSome_iff_eq_none]
    rw [← hmissing, Session.check]
    cases u.session.requirements[name]? with
    | none => simp [eq_comm]
    | some requirement =>
      cases hmet : requirement.isMet u.session.store <;> simp [hmet]

/-- A requirement whose replacement has a broken leaf, and a result whose formula is broken. -/
example :
    let u := Use.performAll ⟨.new .builtin .empty, []⟩
      [.addRequirement "gate" (.single "$key$ > 1"),
        .addRequirement "gate" (.all [.single "$key$ +", .single "$gap$"]),
        .addResult ⟨"best", "nope($rest$)"⟩]
    u.session.requirementNames = ["gate"] ∧ u.session.results.length = 0 ∧
      u.session.store.toList.map Prod.fst = ["gap", "key", "rest"] := by
  decide +kernel

end Session

end GateFormula
