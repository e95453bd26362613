import GateFormula.Assignment
import GateFormula.Json
import GateFormula.Requirement

/-!
# Sessions

A session holds a registry, a store, named requirements and a list of results, all
compiled when they are added. Checking evaluates requirements and changes nothing;
a visit applies the results in order. What fails to compile when a session is built
from its definition is collected, so that every broken formula is reported at once.
-/

namespace GateFormula

/-- What a session is built from. -/
structure SessionDef where
  /-- Name of the session. -/
  name : String := ""
  /-- A description for readers. -/
  description : String := ""
  /-- Variables known at the start. -/
  schema : Schema := ∅
  /-- Requirements by name. -/
  requirements : NameMap (Requirement String) := ∅
  /-- Assignments of a visit, in order. -/
  results : List AssignmentDef := []

/-- A formula of a definition that does not compile. -/
structure EntryFailure where
  /-- Where the formula stands in the definition. -/
  entry : String
  /-- Why it does not compile. -/
  diagnostics : Diagnostics

/-- Wording of a failure. -/
def EntryFailure.message (f : EntryFailure) : String :=
  f.entry ++ ": " ++ f.diagnostics.message

/-- Why a session refuses. -/
inductive SessionError where
  /-- Formulas of its definition do not compile. -/
  | entries (failures : List EntryFailure)
  /-- A formula has no value. -/
  | evaluation (fault : Fault)
  /-- There is no requirement of that name. -/
  | requirementNotFound (name : String)

/-- Wording of a refusal. -/
def SessionError.message : SessionError → String
  | .entries failures => toString failures.length ++ " session entries failed to compile"
  | .evaluation fault => "Evaluation error: " ++ fault.message
  | .requirementNotFound name => "Requirement '" ++ name ++ "' not found"

/-- Requirements and results over one registry and one store. -/
structure Session where
  /-- Name of the session. -/
  name : String := ""
  /-- Names that formulas may use. -/
  registry : Registry
  /-- Variables of all formulas. -/
  store : Store
  /-- Requirements by name. -/
  requirements : NameMap (Requirement Program) := ∅
  /-- Assignments of a visit, in order. -/
  results : List Assignment := []

namespace Session

/-- A session without requirements and results. -/
def new (registry : Registry) (store : Store) : Session :=
  { registry, store }

/-- Compile a formula for the session. -/
def compile (s : Session) (source : String) : Except Diagnostics Program × Session :=
  let (result, store) := compileIn s.registry s.store source
  (result, { s with store })

/-- Compile a requirement and add it, in place of an earlier one of its name. -/
def addRequirement (s : Session) (name : String) (definition : Requirement String) :
    Except (List Diagnostics) Unit × Session :=
  let (result, store) := definition.compileIn s.registry s.store
  match result with
  | .error failures => (.error failures, { s with store })
  | .ok requirement =>
    (.ok (), { s with store, requirements := s.requirements.insert name requirement })

/-- Compile a result and add it after the others. -/
def addResult (s : Session) (definition : AssignmentDef) : Except Diagnostics Unit × Session :=
  let (result, store) := Assignment.compileIn s.registry s.store definition
  match result with
  | .error diagnostics => (.error diagnostics, { s with store })
  | .ok assignment => (.ok (), { s with store, results := s.results ++ [assignment] })

/-- Add requirements in order; the failures, each labelled by the name of its requirement. -/
def addRequirements : List (String × Requirement String) → Session → List EntryFailure × Session
  | [], s => ([], s)
  | (name, definition) :: entries, s =>
    let (result, s) := s.addRequirement name definition
    let failures := match result with
      | .ok () => []
      | .error failures => failures.map fun d => ⟨"requirements." ++ name, d⟩
    let (more, s) := addRequirements entries s
    (failures ++ more, s)

/-- Add results in order; the failures, each labelled by its index counted from `index`. -/
def addResults : (index : Nat) → List AssignmentDef → Session → List EntryFailure × Session
  | _, [], s => ([], s)
  | index, definition :: entries, s =>
    let (result, s) := s.addResult definition
    let failures := match result with
      | .ok () => []
      | .error d => [⟨"results[" ++ toString index ++ "]", d⟩]
    let (more, s) := addResults (index + 1) entries s
    (failures ++ more, s)

/-- Build a session: the requirements in the order of their names, then the results. -/
def ofDefinition (definition : SessionDef) (registry : Registry) :
    Except (List EntryFailure) Session :=
  let s := { Session.new registry (.ofSchema definition.schema) with name := definition.name }
  let (first, s) := addRequirements definition.requirements.toList s
  let (second, s) := addResults 0 definition.results s
  if (first ++ second).isEmpty then .ok s else .error (first ++ second)

/-- Names of the requirements in ascending order. -/
def requirementNames (s : Session) : List String :=
  s.requirements.keys

/-- Whether a requirement is met. -/
def check (s : Session) (name : String) : Except SessionError Bool :=
  match s.requirements[name]? with
  | none => .error (.requirementNotFound name)
  | some requirement =>
    match requirement.isMet s.store with
    | .error fault => .error (.evaluation fault)
    | .ok met => .ok met

/-- The outcome of every requirement in the order of their names. -/
def checkAll (s : Session) : List (String × Except Fault Bool) :=
  s.requirements.toList.map fun (name, requirement) => (name, requirement.isMet s.store)

/-- Apply the results in order. At the first that has no value the visit ends, and what was
applied before it stays. -/
def visit (s : Session) : Except SessionError Unit × Session :=
  match Assignment.applyAll s.results s.store with
  | (none, store) => (.ok (), { s with store })
  | (some fault, store) => (.error (.evaluation fault), { s with store })

/-- Outcome of a requirement in a report. -/
def outcomeJson : Except Fault Bool → Json
  | .ok met => .bool met
  | .error fault => .object [("error", .string fault.message)]

/-- Outcomes of all requirements and values of all variables. -/
def report (s : Session) : Json :=
  .object
    [ ("name", .string s.name),
      ("requirements", .object (s.checkAll.map fun (name, outcome) => (name, outcomeJson outcome))),
      ("variables", .ofValues s.store.toList) ]

end Session

end GateFormula
