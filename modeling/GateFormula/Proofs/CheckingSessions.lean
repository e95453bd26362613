import GateFormula.CommandLine.Execution
import GateFormula.Proofs.Faults

/-!
# The exit status of a check

A check reports on the requirements of a session document in plain text or in JSON. Both reports
show the same outcomes, yet only the plain one lets them decide the exit status: it is that of
failure exactly if some formula of a requirement has no value in the store that is reported on.
With JSON the status is that of success whatever the outcomes are, so that the two agree just
where no requirement fails. How documents are read and JSON is written does not matter: all this
holds of any `Formats`, those of the program among them.
-/

namespace GateFormula

/-- Some formula of a requirement has no value in the store of the session. -/
def Session.HasFault (s : Session) : Prop :=
  ∃ (name : String) (requirement : Requirement Program),
    s.requirements[name]? = some requirement ∧
      ∃ program ∈ requirement.leaves, ∃ fault, program.evaluate s.store = .error fault

/-- The session that a check reports on: after a visit that succeeds if one is asked for, and as
it is otherwise. -/
def Session.Reaches (s : Session) (visit : Bool) (reported : Session) : Prop :=
  (if visit then s.visit else (.ok (), s)) = (.ok (), reported)

/-! ### Outcomes -/

/-- The outcomes of a session are those of its requirements. -/
theorem mem_checkAll_iff {s : Session} {name : String} {outcome : Except Fault Bool} :
    (name, outcome) ∈ s.checkAll ↔
      ∃ requirement, s.requirements[name]? = some requirement ∧
        requirement.isMet s.store = outcome := by
  have hlisted : ∀ requirement,
      (name, requirement) ∈ s.requirements.toList ↔ s.requirements[name]? = some requirement :=
    fun requirement => Std.ExtTreeMap.mem_toList_iff_getElem?_eq_some
  rw [Session.checkAll, List.mem_map]
  constructor
  · intro h
    obtain ⟨⟨other, requirement⟩, hmem, heq⟩ := h
    obtain ⟨hname, houtcome⟩ := Prod.mk.inj heq
    exact ⟨requirement, (hlisted requirement).mp (hname ▸ hmem), houtcome⟩
  · intro h
    obtain ⟨requirement, hthere, houtcome⟩ := h
    exact ⟨(name, requirement), (hlisted requirement).mpr hthere, Prod.ext rfl houtcome⟩

/-- A requirement has a fault if some leaf has one. -/
theorem isMet_error_iff {requirement : Requirement Program} {store : Store} :
    (∃ fault, requirement.isMet store = .error fault) ↔
      ∃ program ∈ requirement.leaves, ∃ fault, program.evaluate store = .error fault := by
  constructor
  · intro h
    obtain ⟨fault, hfault⟩ := h
    obtain ⟨program, hleaf, hvalue⟩ := leaf_of_isMet hfault
    exact ⟨program, hleaf, fault, hvalue⟩
  · intro h
    obtain ⟨program, hleaf, fault, hvalue⟩ := h
    cases houtcome : requirement.isMet store with
    | error other => exact ⟨other, rfl⟩
    | ok met =>
      -- A requirement that has an outcome has no leaf without a value.
      have hnone : faultOf (requirement.isMet store) =
          requirement.leaves.findSome? fun program => faultOf (program.evaluate store) :=
        faultOf_isMet requirement
      rw [houtcome] at hnone
      have hvalues := List.findSome?_eq_none_iff.mp hnone.symm program hleaf
      rw [hvalue] at hvalues
      cases hvalues

/-- Some outcome of a session is a fault if some formula of a requirement has no value. -/
theorem hasFault_iff {s : Session} :
    s.HasFault ↔ ∃ name fault, (name, .error fault) ∈ s.checkAll := by
  constructor
  · intro h
    obtain ⟨name, requirement, hthere, hleaf⟩ := h
    obtain ⟨fault, hfault⟩ := isMet_error_iff.mpr hleaf
    exact ⟨name, fault, mem_checkAll_iff.mpr ⟨requirement, hthere, hfault⟩⟩
  · intro h
    obtain ⟨name, fault, hmem⟩ := h
    obtain ⟨requirement, hthere, hfault⟩ := mem_checkAll_iff.mp hmem
    exact ⟨name, requirement, hthere, isMet_error_iff.mp ⟨fault, hfault⟩⟩

namespace CommandLine

/-- A file holds a session: it can be read, it is a session document, and all formulas in it
compile with the standard registry. -/
def HoldsSession (formats : Formats) (readFile : String → Except FileError String) (path : String)
    (s : Session) : Prop :=
  ∃ text definition, readFile path = .ok text ∧ formats.readSession text = .ok definition ∧
    Session.ofDefinition definition .builtin = .ok s

variable {formats : Formats} {readFile : String → Except FileError String} {path : String}
  {s reported : Session} {visit : Bool}

/-! ### Reports -/

/-- A result that is kept as an option was a value. -/
theorem eq_ok_of_toOption {ε α : Type} {result : Except ε α} {value : α}
    (h : result.toOption = some value) : result = .ok value := by
  cases result with
  | error e => cases h
  | ok other =>
    cases h
    rfl

/-- An outcome that is none is a fault. -/
theorem hasOutcome_eq_false_iff {outcome : Except Fault Bool} :
    hasOutcome outcome = false ↔ ∃ fault, outcome = .error fault := by
  cases outcome with
  | ok met => simp [hasOutcome]
  | error fault => simp [hasOutcome]

/-- A plain report fails if some formula of a requirement has no value. -/
theorem plainReport_fails_iff : (plainReport s).success = false ↔ s.HasFault := by
  have hall : (plainReport s).success = s.checkAll.all fun entry => hasOutcome entry.2 := rfl
  rw [hall, hasFault_iff, List.all_eq_false]
  constructor
  · intro h
    obtain ⟨⟨name, outcome⟩, hmem, hfails⟩ := h
    obtain ⟨fault, hfault⟩ := hasOutcome_eq_false_iff.mp (eq_false_of_ne_true hfails)
    exact ⟨name, fault, hfault ▸ hmem⟩
  · intro h
    obtain ⟨name, fault, hmem⟩ := h
    exact ⟨(name, .error fault), hmem, Bool.false_ne_true⟩

/-- A check of a file that holds a session reports on that session, after a visit if one is asked
for. -/
theorem execute_check (held : HoldsSession formats readFile path s)
    (reaches : s.Reaches visit reported) (json : Bool) :
    executeWith formats readFile (.check path visit json) =
      if json then jsonReport formats reported else plainReport reported := by
  obtain ⟨text, definition, hread, hparse, hbuilt⟩ := held
  have hcheck : executeWith formats readFile (.check path visit json) =
      reportOn formats s visit json := by
    rw [executeWith, executeCheck, hread]
    simp only
    rw [hparse]
    simp only
    rw [hbuilt]
  rw [hcheck, reportOn, reaches]

/-- The exit status of a check of a file that holds a session whose visit succeeds if one is asked
for. In plain text it is that of failure exactly if some formula of a requirement has no value in
the store that is reported on. In JSON it is always that of success, and a requirement that fails
shows in the text alone; so the two modes have the same status exactly if no requirement fails.
This holds however documents are read and JSON is written, and so of the program's own formats,
with which `execute` runs a command. -/
theorem check_fails_iff (held : HoldsSession formats readFile path s)
    (reaches : s.Reaches visit reported) :
    ((executeWith formats readFile (.check path visit false)).success = false ↔
      reported.HasFault) ∧
    (executeWith formats readFile (.check path visit true)).success = true ∧
    (executeWith formats readFile (.check path visit true)).output =
      formats.writeJson reported.report ++ "\n" ∧
    ((executeWith formats readFile (.check path visit true)).success =
      (executeWith formats readFile (.check path visit false)).success ↔ ¬ reported.HasFault) := by
  have hplain : executeWith formats readFile (.check path visit false) = plainReport reported :=
    execute_check held reaches false
  have hjson : executeWith formats readFile (.check path visit true) =
      jsonReport formats reported :=
    execute_check held reaches true
  have hfails := plainReport_fails_iff (s := reported)
  have hsucceeds : (jsonReport formats reported).success = true := rfl
  rw [hplain, hjson]
  refine ⟨hfails, hsucceeds, rfl, ?_⟩
  rw [hsucceeds, ← hfails, Bool.not_eq_false, eq_comm]

/-- A requirement that divides by what the visit has left in a variable, in the program's own
formats. -/
theorem check_fails_iff_divided :
    let readFile : String → Except FileError String := fun _ =>
      .ok "requirements: \x7bopen: '1', gap: '1 / $d$'\x7d\nresults: [\x7bvariable: d, expression: '0'\x7d]"
    ∃ s reported, HoldsSession .standard readFile "session.yaml" s ∧ s.Reaches true reported ∧
      reported.HasFault ∧ (execute readFile (.check "session.yaml" true false)).success = false ∧
      (execute readFile (.check "session.yaml" true true)).success = true := by
  intro readFile
  let text : String :=
    "requirements: \x7bopen: '1', gap: '1 / $d$'\x7d\nresults: [\x7bvariable: d, expression: '0'\x7d]"
  have hfails : (execute readFile (.check "session.yaml" true false)).success = false := by
    decide +kernel
  have hvisits : ((Formats.standard.readSession text).toOption.bind fun definition =>
      (Session.ofDefinition definition .builtin).toOption.bind fun s =>
        s.visit.1.toOption).isSome = true := by
    decide +kernel
  obtain ⟨done, hdone⟩ := Option.isSome_iff_exists.mp hvisits
  obtain ⟨definition, hdefinition, hrest⟩ := Option.bind_eq_some_iff.mp hdone
  obtain ⟨s, hs, hvisit⟩ := Option.bind_eq_some_iff.mp hrest
  have hparse : Formats.standard.readSession text = .ok definition := eq_ok_of_toOption hdefinition
  have hbuilt : Session.ofDefinition definition .builtin = .ok s := eq_ok_of_toOption hs
  have held : HoldsSession .standard readFile "session.yaml" s :=
    ⟨text, definition, rfl, hparse, hbuilt⟩
  have reaches : s.Reaches true s.visit.2 := Prod.ext (eq_ok_of_toOption hvisit) rfl
  obtain ⟨hplain, hjson, -, -⟩ := check_fails_iff held reaches
  exact ⟨s, s.visit.2, held, reaches, hplain.mp hfails, hfails, hjson⟩

end CommandLine

end GateFormula
