import GateFormula.Builtin
import GateFormula.Proofs.CompilingRequirements
import GateFormula.Session

/-!
# Building sessions from definitions

The formulas of a definition are the leaves of its requirements and the expressions of its
results. `SessionDef.entries` lists them with their labels in the order in which they are
compiled. A session is built if each of them compiles by itself; otherwise every broken one is
reported once, in this order, with the diagnostics that it has by itself.
-/

namespace GateFormula

/-- A formula of a definition. -/
structure SessionDef.Entry where
  /-- Where it stands in the definition. -/
  label : String
  /-- Its text. -/
  source : String

namespace SessionDef

/-- The formulas of a requirement, from left to right, under one label. -/
def requirementEntries (requirement : String × Requirement String) : List Entry :=
  requirement.2.leaves.map fun source => ⟨"requirements." ++ requirement.1, source⟩

/-- The formula of a result, under its index. -/
def resultEntry (index : Nat) (result : AssignmentDef) : Entry :=
  ⟨"results[" ++ toString index ++ "]", result.expression⟩

/-- The formulas of a definition: those of the requirements in the order of their names, and
then those of the results. -/
def entries (definition : SessionDef) : List Entry :=
  definition.requirements.toList.flatMap requirementEntries ++
    definition.results.mapIdx resultEntry

/-- The failure of a formula that does not compile by itself. -/
def Entry.failure? (registry : Registry) (entry : Entry) : Option EntryFailure :=
  match (compileIn registry .empty entry.source).1 with
  | .ok _ => none
  | .error diagnostics => some ⟨entry.label, diagnostics⟩

end SessionDef

open SessionDef (Entry requirementEntries resultEntry)

/-! ### Adding one entry -/

/-- The diagnostics of a requirement, labelled, are the failures of its formulas. -/
theorem labelled_failures (registry : Registry) (name : String)
    (definition : Requirement String) :
    (definition.failures registry).map (EntryFailure.mk ("requirements." ++ name)) =
      (requirementEntries (name, definition)).filterMap (Entry.failure? registry) := by
  rw [Requirement.failures, requirementEntries, List.map_filterMap, List.filterMap_map]
  refine List.filterMap_congr fun source _ => ?_
  have hresult : (compileIn registry .empty source).1 = (compile registry source).result := rfl
  rw [Function.comp_apply, Entry.failure?, hresult, Requirement.failure?]
  cases (compile registry source).result <;> rfl

/-- Adding a requirement keeps the registry, and its failures are those of its formulas. -/
theorem addRequirement_failures (s : Session) (name : String)
    (definition : Requirement String) :
    (s.addRequirement name definition).2.registry = s.registry ∧
      (match (s.addRequirement name definition).1 with
        | .ok () => []
        | .error failures => failures.map (EntryFailure.mk ("requirements." ++ name))) =
      (requirementEntries (name, definition)).filterMap (Entry.failure? s.registry) := by
  have hcases := compileIn_cases s.registry s.store definition
  rw [← labelled_failures, Session.addRequirement]
  generalize definition.compileIn s.registry s.store = compiled at hcases
  obtain ⟨result, store⟩ := compiled
  rcases hcases with ⟨requirement, -, rfl, hnil⟩ | ⟨-, rfl, -⟩
  · exact ⟨rfl, hnil ▸ rfl⟩
  · exact ⟨rfl, rfl⟩

/-- Adding a result keeps the registry, and it fails if its formula does. -/
theorem addResult_failures (s : Session) (index : Nat) (definition : AssignmentDef) :
    (s.addResult definition).2.registry = s.registry ∧
      (match (s.addResult definition).1 with
        | .ok () => []
        | .error diagnostics =>
          [EntryFailure.mk ("results[" ++ toString index ++ "]") diagnostics]) =
      [resultEntry index definition].filterMap (Entry.failure? s.registry) := by
  have hself : (compileIn s.registry .empty (resultEntry index definition).source).1 =
      (compileIn s.registry s.store definition.expression).1 := rfl
  rw [List.filterMap_cons, Entry.failure?, hself, Session.addResult, Assignment.compileIn]
  rcases compileIn s.registry s.store definition.expression with ⟨_ | _, _⟩ <;>
    exact ⟨rfl, rfl⟩

/-! ### Adding all entries -/

/-- Adding requirements keeps the registry, and the failures are those of their formulas. -/
theorem addRequirements_failures (requirements : List (String × Requirement String))
    (s : Session) :
    (Session.addRequirements requirements s).2.registry = s.registry ∧
      (Session.addRequirements requirements s).1 =
        (requirements.flatMap requirementEntries).filterMap (Entry.failure? s.registry) := by
  induction requirements generalizing s with
  | nil => exact ⟨rfl, rfl⟩
  | cons requirement requirements ih =>
    obtain ⟨name, definition⟩ := requirement
    obtain ⟨hkept, hfirst⟩ := addRequirement_failures s name definition
    obtain ⟨hregistry, hrest⟩ := ih (s.addRequirement name definition).2
    rw [hkept] at hregistry hrest
    refine ⟨hregistry, ?_⟩
    rw [List.flatMap_cons, List.filterMap_append, ← hfirst, ← hrest]
    rfl

/-- The failures of adding results are those of their formulas. -/
theorem addResults_failures (results : List AssignmentDef) (index : Nat) (s : Session) :
    (Session.addResults index results s).1 =
      (results.mapIdx fun i result => resultEntry (index + i) result).filterMap
        (Entry.failure? s.registry) := by
  induction results generalizing index s with
  | nil => rfl
  | cons result results ih =>
    obtain ⟨hkept, hfirst⟩ := addResult_failures s index result
    have hrest := ih (index + 1) (s.addResult result).2
    have hindex : (fun i result => resultEntry (index + 1 + i) result) =
        fun i result => resultEntry (index + (i + 1)) result := by
      funext i result
      rw [Nat.add_right_comm index 1 i, Nat.add_assoc index i 1]
    have hentries : (result :: results).mapIdx (fun i result => resultEntry (index + i) result) =
        [resultEntry index result] ++
          results.mapIdx fun i result => resultEntry (index + (i + 1)) result := List.mapIdx_cons
    rw [hkept, hindex] at hrest
    rw [hentries, List.filterMap_append, ← hrest, ← hfirst]
    rfl

/-! ### Building -/

/-- The failures of building a session are those of the formulas of its definition. -/
theorem ofDefinition_eq (definition : SessionDef) (registry : Registry) :
    ∃ s, Session.ofDefinition definition registry =
      if definition.entries.filterMap (Entry.failure? registry) = [] then .ok s
      else .error (definition.entries.filterMap (Entry.failure? registry)) := by
  let start : Session :=
    { Session.new registry (.ofSchema definition.schema) with name := definition.name }
  obtain ⟨hregistry, hfirst⟩ := addRequirements_failures definition.requirements.toList start
  have hsecond := addResults_failures definition.results 0
    (Session.addRequirements definition.requirements.toList start).2
  rw [hregistry] at hsecond
  simp only [Nat.zero_add] at hsecond
  refine ⟨(Session.addResults 0 definition.results
    (Session.addRequirements definition.requirements.toList start).2).2, ?_⟩
  have hall : definition.entries.filterMap (Entry.failure? registry) =
      (Session.addRequirements definition.requirements.toList start).1 ++
        (Session.addResults 0 definition.results
          (Session.addRequirements definition.requirements.toList start).2).1 := by
    rw [SessionDef.entries, List.filterMap_append, hfirst, hsecond]
    rfl
  simp only [hall, ← List.isEmpty_iff]
  rfl

/-- A session is built if no formula of its definition has a failure. -/
theorem ofDefinition_isOk_iff {definition : SessionDef} {registry : Registry} :
    (∃ s, Session.ofDefinition definition registry = .ok s) ↔
      definition.entries.filterMap (Entry.failure? registry) = [] := by
  obtain ⟨s, hbuilt⟩ := ofDefinition_eq definition registry
  rw [hbuilt]
  split
  next hnil => exact iff_of_true ⟨s, rfl⟩ hnil
  next hne =>
    refine iff_of_false ?_ hne
    rintro ⟨other, h⟩
    cases h

/-- Otherwise the failures are reported. -/
theorem ofDefinition_eq_error_iff {definition : SessionDef} {registry : Registry}
    {failures : List EntryFailure} :
    Session.ofDefinition definition registry = .error failures ↔
      failures ≠ [] ∧ failures = definition.entries.filterMap (Entry.failure? registry) := by
  obtain ⟨s, hbuilt⟩ := ofDefinition_eq definition registry
  rw [hbuilt]
  split
  next hnil => simp [hnil]
  next hne =>
    rw [Except.error.injEq, eq_comm]
    exact ⟨fun h => ⟨h ▸ hne, h⟩, And.right⟩

/-- A formula has no failure if it compiles by itself. -/
theorem failure?_eq_none_iff {registry : Registry} {entry : Entry} :
    entry.failure? registry = none ↔
      ∃ program, (compileIn registry .empty entry.source).1 = .ok program := by
  rw [Entry.failure?]
  cases (compileIn registry .empty entry.source).1 <;> simp

/-- A session is built if every formula of its definition compiles by itself. Otherwise every
formula that does not is reported once: first the leaves of the requirements, which are taken in
the order of their names and from left to right, and then the expressions of the results, each
with its label and the diagnostics that it has by itself. -/
theorem ofDefinition_reports (definition : SessionDef) (registry : Registry) :
    ((∃ s, Session.ofDefinition definition registry = .ok s) ↔
      ∀ entry ∈ definition.entries,
        ∃ program, (compileIn registry .empty entry.source).1 = .ok program) ∧
    (∀ failures, Session.ofDefinition definition registry = .error failures ↔
      failures ≠ [] ∧ failures = definition.entries.filterMap (Entry.failure? registry)) ∧
    (definition.requirements.toList.map Prod.fst).Pairwise (compare · · = .lt) := by
  refine ⟨?_, fun failures => ofDefinition_eq_error_iff, ?_⟩
  · rw [ofDefinition_isOk_iff, List.filterMap_eq_nil_iff]
    simp only [failure?_eq_none_iff]
  · exact List.pairwise_map.mpr Std.ExtTreeMap.ordered_keys_toList

/-- Four broken formulas of six. -/
example :
    (match Session.ofDefinition
        { requirements := .ofBindings
            [("gate", .all [.single "nope", .any [.single "$key$", .single "1 +"]]),
              ("gap", .single "f($key$)")]
          results := [⟨"best", "$key$"⟩, ⟨"best", "($key$"⟩] } .builtin with
      | .ok _ => []
      | .error failures => failures.map EntryFailure.entry) =
      ["requirements.gap", "requirements.gate", "requirements.gate", "results[1]"] := by
  decide +kernel

end GateFormula
