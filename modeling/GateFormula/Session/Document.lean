import GateFormula.Session
import GateFormula.Yaml.Reading

/-!
# Session documents

A session is written as a YAML mapping of five fields, each of which may be left out:
`name`, `description`, `variables`, `requirements` and `results`. Reading has two
steps. The outline is what the document holds under these fields; the definition is
what the outline means.

A variable is a record of its default and its reducer, or the two in a sequence. A
requirement is a text, or a record with a list of requirements under `all` or, failing
that, under `any`.
-/

namespace GateFormula

/-- Why a text is no session document. -/
inductive DocumentError where
  /-- It is no YAML document. -/
  | yaml (error : Yaml.Error)
  /-- Its content does not have the shape of a session. -/
  | content (mismatch : Yaml.Mismatch)
  /-- A variable is not defined properly. -/
  | variableDef (name : String)
  /-- A requirement is none. -/
  | requirement (name : String)
deriving DecidableEq, Repr

/-- Wording of a refusal. -/
def DocumentError.message : DocumentError → String
  | .yaml error => error.message
  | .content mismatch => mismatch.message
  | .variableDef name => "variables." ++ name ++ ": invalid variable definition"
  | .requirement name => "requirements." ++ name ++ ": invalid requirement"

/-! ### Variables -/

/-- Names of the reducers by position. -/
def Reducer.names : List String :=
  [Reducer.overwrite, .max, .min, .sum].map Reducer.name

/-- The reducer that a value names. -/
def Reducer.ofValue? : Yaml.Value → Option Reducer
  | .string name => ofName? name
  | .mapping [(.string name, .null)] => ofName? name
  | .mapping [(.natural n, .null)] => Reducer.names[n]?.bind ofName?
  | _ => none

/-- The definition of a variable from what is said of its default and its reducer. -/
def VariableDef.ofFields? (default reducer : Option Yaml.Value) : Option VariableDef := do
  let default ← match default with
    | none => some 0
    | some value => value.number?
  let reducer ← match reducer with
    | none => some .overwrite
    | some value => Reducer.ofValue? value
  return { default, reducer }

/-- The definition of a variable. -/
def VariableDef.ofValue? : Yaml.Value → Option VariableDef
  | .mapping entries =>
    match Yaml.Value.record? ["default", "reducer"] entries with
    | some [default, reducer] => ofFields? default reducer
    | _ => none
  | .sequence [] => ofFields? none none
  | .sequence [default] => ofFields? (some default) none
  | .sequence [default, reducer] => ofFields? (some default) (some reducer)
  | _ => none

/-! ### Requirements -/

namespace Requirement

/-- The list of requirements that a record holds under its only field. -/
def groupOf? (field : String) (entries : List (Yaml.Value × Option (List (Requirement String)))) :
    Option (List (Requirement String)) :=
  match Yaml.Value.record? [field] entries with
  | some [some group] => group
  | _ => none

mutual

/-- The requirement that a value stands for. -/
def ofValue? : Yaml.Value → Option (Requirement String)
  | .string text => some (.single text)
  | .mapping entries =>
    let groups := ofEntries entries
    ((groupOf? "all" groups).map .all).or ((groupOf? "any" groups).map .any)
  | _ => none

/-- The requirements that the items of a sequence stand for. -/
def ofSequence? : Yaml.Value → Option (List (Requirement String))
  | .sequence items => ofItems? items
  | _ => none

/-- The requirements that values stand for. -/
def ofItems? : List Yaml.Value → Option (List (Requirement String))
  | [] => some []
  | item :: items =>
    match ofValue? item, ofItems? items with
    | some part, some parts => some (part :: parts)
    | _, _ => none

/-- The keys of a mapping with the requirements that their values stand for. -/
def ofEntries : List (Yaml.Value × Yaml.Value) →
    List (Yaml.Value × Option (List (Requirement String)))
  | [] => []
  | (key, value) :: entries => (key, ofSequence? value) :: ofEntries entries

end

end Requirement

/-! ### Documents -/

/-- What a session document holds. -/
structure SessionOutline where
  /-- Name of the session. -/
  name : String := ""
  /-- A description for readers. -/
  description : String := ""
  /-- Values under the names of variables. -/
  schema : List (String × Yaml.Value) := []
  /-- Values under the names of requirements. -/
  requirements : List (String × Yaml.Value) := []
  /-- Assignments. -/
  results : List AssignmentDef := []

namespace SessionOutline

open Yaml (Node Reading Value)

/-- What a field holds that may be left out. -/
def ofField {α : Type} [Inhabited α] (fields : List (String × Node)) (name : String)
    (ofNode : Node → Reading α) : Reading α := do
  match ← Reading.field? fields name with
  | some node => ofNode node
  | none => return default

/-- Values by name. The mapping that holds them is nested in that of the document. -/
def valuesOf (node : Node) : Reading (List (String × Value)) := do
  (← Reading.named node).mapM fun (name, entry) =>
    return (name, ← Reading.value (Reading.depthLimit - 2) entry)

/-- An assignment. -/
def assignmentOf (node : Node) : Reading AssignmentDef := do
  let fields ← Reading.named node
  let target ← Reading.field fields "variable" >>= Reading.text
  let expression ← Reading.field fields "expression" >>= Reading.text
  return { target, expression }

/-- A list of assignments. -/
def assignmentsOf (node : Node) : Reading (List AssignmentDef) := do
  (← Reading.items node).mapM assignmentOf

/-- What a document with a given root holds. -/
def ofNode (root : Node) : Reading SessionOutline := do
  let fields ← Reading.named root
  return {
    name := ← ofField fields "name" Reading.text
    description := ← ofField fields "description" Reading.text
    schema := ← ofField fields "variables" valuesOf
    requirements := ← ofField fields "requirements" valuesOf
    results := ← ofField fields "results" assignmentsOf }

/-- The outline of a text. A text without a document holds nothing. -/
def read (text : String) : Except DocumentError SessionOutline :=
  match Yaml.Document.read? text with
  | .error error => .error (.yaml error)
  | .ok none => .ok {}
  | .ok (some document) => ((ofNode document.root).run document).mapError .content

/-- The definitions of named values; each value has to have one. -/
def definitions {α : Type} (ofValue? : Value → Option α) (error : String → DocumentError)
    (values : List (String × Value)) : Except DocumentError (List (String × α)) :=
  values.mapM fun (name, value) =>
    match ofValue? value with
    | some definition => .ok (name, definition)
    | none => .error (error name)

/-- What an outline means. Of several definitions for one name the last counts. -/
def definition (outline : SessionOutline) : Except DocumentError SessionDef := do
  let schema ← definitions VariableDef.ofValue? .variableDef outline.schema
  let requirements ← definitions Requirement.ofValue? .requirement outline.requirements
  return {
    name := outline.name
    description := outline.description
    schema := .ofBindings schema
    requirements := .ofBindings requirements
    results := outline.results }

end SessionOutline

/-- The session that a document defines. -/
def SessionDef.parse (text : String) : Except DocumentError SessionDef := do
  (← SessionOutline.read text).definition

end GateFormula
