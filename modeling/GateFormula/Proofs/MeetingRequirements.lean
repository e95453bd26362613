import GateFormula.Builtin
import GateFormula.Proofs.CompilingRequirements
import GateFormula.Proofs.Faults

/-!
# When requirements are met

`Requirement.Holds` says when a tree of conditions holds, from its shape and from the truth of
its leaves. Checking a requirement that has been compiled evaluates every leaf: if one has no
value, the fault of the leftmost of these is the answer, also where the others decide the outcome
already, and otherwise the requirement is met if its definition holds of the leaves whose values
are not zero.
-/

namespace GateFormula

/-- A tree of conditions holds. -/
inductive Requirement.Holds {α : Type} (truth : α → Prop) : Requirement α → Prop where
  /-- A leaf that is true. -/
  | single {leaf : α} (isTrue : truth leaf) : Holds truth (.single leaf)
  /-- A group all of whose parts hold; one without parts is such a group. -/
  | all {parts : List (Requirement α)} (every : ∀ part ∈ parts, Holds truth part) :
      Holds truth (.all parts)
  /-- A group some part of which holds. -/
  | any {parts : List (Requirement α)} {part : Requirement α} (known : part ∈ parts)
      (holds : Holds truth part) : Holds truth (.any parts)

/-- The outcome of a text in a store: the text compiles, and its program ends so there. -/
def HasOutcome (registry : Registry) (store : Store) (source : String)
    (outcome : Except Fault Float) : Prop :=
  ∃ program, (compile registry source).result = .ok program ∧ program.evaluate store = outcome

variable {registry : Registry} {store : Store}

/-! ### Checking every part -/

namespace Requirement

mutual

/-- Whether a requirement is met, where every part of a group is checked, also behind one that has
a fault and where the outcome is decided. -/
def isMetThroughout (store : Store) : Requirement Program → Except Fault Bool
  | .single program => program.test store
  | .all parts => foldParts store (· && ·) true none parts
  | .any parts => foldParts store (· || ·) false none parts

/-- Check further parts of a group, with the outcome of those before and the first fault so far. -/
def foldParts (store : Store) (combine : Bool → Bool → Bool) (met : Bool)
    (failure : Option Fault) : List (Requirement Program) → Except Fault Bool
  | [] =>
    match failure with
    | some fault => .error fault
    | none => .ok met
  | part :: parts =>
    match part.isMetThroughout store with
    | .ok other => foldParts store combine (combine met other) failure parts
    | .error fault => foldParts store combine met (failure.or (some fault)) parts

end

/-- Combining outcomes by conjunction asks for all of them. -/
theorem foldl_and (met : Bool) (others : List Bool) :
    others.foldl (· && ·) met = (met && others.all id) := by
  induction others generalizing met with
  | nil => simp
  | cons other others ih => rw [List.foldl_cons, ih, List.all_cons, Bool.and_assoc, id]

/-- Combining outcomes by disjunction asks for some of them. -/
theorem foldl_or (met : Bool) (others : List Bool) :
    others.foldl (· || ·) met = (met || others.any id) := by
  induction others generalizing met with
  | nil => simp
  | cons other others ih => rw [List.foldl_cons, ih, List.any_cons, Bool.or_assoc, id]

mutual

/-- Checking every part comes to the same as ending at the first fault. -/
theorem isMetThroughout_eq (requirement : Requirement Program) :
    requirement.isMetThroughout store = requirement.isMet store := by
  match requirement with
  | .single program => rw [isMetThroughout, isMet]
  | .all parts =>
    have hparts := foldParts_eq (· && ·) true none parts
    rw [isMetThroughout, isMet, hparts]
    exact congrArg (outcomes store parts).map (funext (foldl_and true))
  | .any parts =>
    have hparts := foldParts_eq (· || ·) false none parts
    rw [isMetThroughout, isMet, hparts]
    exact congrArg (outcomes store parts).map (funext (foldl_or false))

/-- The first fault so far stays; without one, the outcomes of the further parts are combined. -/
theorem foldParts_eq (combine : Bool → Bool → Bool) (met : Bool) (failure : Option Fault)
    (parts : List (Requirement Program)) :
    foldParts store combine met failure parts =
      match failure with
      | some fault => .error fault
      | none => (outcomes store parts).map (·.foldl combine met) := by
  match parts with
  | [] =>
    cases failure with
    | some fault => rw [foldParts]
    | none =>
      rw [foldParts, outcomes]
      rfl
  | part :: parts =>
    rw [foldParts, isMetThroughout_eq part, outcomes]
    cases part.isMet store with
    | error fault =>
      have hrest := foldParts_eq combine met (failure.or (some fault)) parts
      cases failure <;> exact hrest
    | ok other =>
      have hrest := foldParts_eq combine (combine met other) failure parts
      simp only
      rw [hrest]
      cases failure with
      | some fault => rfl
      | none => cases outcomes store parts <;> rfl

end

end Requirement

/-! ### Truth -/

section Shape

variable {α : Type} {truth : α → Prop}

/-- A leaf holds if it is true. -/
theorem holds_single_iff {leaf : α} : (Requirement.single leaf).Holds truth ↔ truth leaf := by
  constructor
  · intro h
    cases h with
    | single isTrue => exact isTrue
  · exact .single

/-- A group holds if every part does. -/
theorem holds_all_iff {parts : List (Requirement α)} :
    (Requirement.all parts).Holds truth ↔ ∀ part ∈ parts, part.Holds truth := by
  constructor
  · intro h
    cases h with
    | all every => exact every
  · exact .all

/-- A group of the other kind holds if some part does. -/
theorem holds_any_iff {parts : List (Requirement α)} :
    (Requirement.any parts).Holds truth ↔ ∃ part ∈ parts, part.Holds truth := by
  constructor
  · intro h
    cases h with
    | any known holds => exact ⟨_, known, holds⟩
  · rintro ⟨part, known, holds⟩
    exact .any known holds

end Shape

/-- A result that has been changed comes from a result. -/
theorem of_map_ok {ε α β : Type} {f : α → β} {x : Except ε α} {y : β} (h : x.map f = .ok y) :
    ∃ a, x = .ok a ∧ f a = y := by
  cases x with
  | error e => cases h
  | ok a =>
    cases h
    exact ⟨a, rfl, rfl⟩

section Truth

variable {program : String → Program} {truth : String → Prop}

mutual

/-- A requirement all of whose leaves have values is met if its definition holds. -/
theorem holds_of_isMet (definition : Requirement String) {met : Bool}
    (ht : ∀ source ∈ definition.leaves, (program source).test store = .ok true ↔ truth source)
    (h : (definition.map program).isMet store = .ok met) :
    met = true ↔ definition.Holds truth := by
  match definition with
  | .single source =>
    have hleaf := ht source (List.mem_singleton_self source)
    rw [Requirement.map, Requirement.isMet] at h
    rw [holds_single_iff, ← hleaf, h, Except.ok.injEq]
  | .all parts =>
    obtain ⟨each, heach, rfl⟩ := of_map_ok h
    rw [holds_all_iff]
    exact (holds_of_outcomes parts ht heach).1
  | .any parts =>
    obtain ⟨each, heach, rfl⟩ := of_map_ok h
    rw [holds_any_iff]
    exact (holds_of_outcomes parts ht heach).2

/-- Of several such requirements, all or some are met if all or some definitions hold. -/
theorem holds_of_outcomes (parts : List (Requirement String)) {each : List Bool}
    (ht : ∀ source ∈ Requirement.leavesOf parts,
      (program source).test store = .ok true ↔ truth source)
    (h : Requirement.outcomes store (Requirement.mapOf program parts) = .ok each) :
    (each.all id = true ↔ ∀ part ∈ parts, part.Holds truth) ∧
      (each.any id = true ↔ ∃ part ∈ parts, part.Holds truth) := by
  match parts with
  | [] =>
    rw [Requirement.mapOf, Requirement.outcomes] at h
    cases h
    simp
  | part :: parts =>
    obtain ⟨hfirst, hrest⟩ := List.forall_mem_append.mp ht
    rw [Requirement.mapOf, Requirement.outcomes] at h
    cases hc : (part.map program).isMet store with
    | error fault =>
      rw [hc] at h
      cases h
    | ok met =>
      cases hcs : Requirement.outcomes store (Requirement.mapOf program parts) with
      | error fault =>
        rw [hc, hcs] at h
        cases h
      | ok others =>
        rw [hc, hcs] at h
        cases h
        have hpart := holds_of_isMet part hfirst hc
        obtain ⟨hall, hany⟩ := holds_of_outcomes parts hrest hcs
        rw [List.all_cons, List.any_cons, Bool.and_eq_true, Bool.or_eq_true, id, hpart, hall,
          hany, List.forall_mem_cons, List.exists_mem_cons_iff]
        exact ⟨Iff.rfl, Iff.rfl⟩

end

end Truth

/-! ### Outcomes -/

/-- The outcome of a text that compiles is that of its program. -/
theorem hasOutcome_iff {source : String} {outcome : Except Fault Float}
    (h : (compile registry source).result = .ok (programOf registry source)) :
    HasOutcome registry store source outcome ↔
      (programOf registry source).evaluate store = outcome := by
  constructor
  · rintro ⟨program, hprogram, houtcome⟩
    rw [programOf_eq hprogram, houtcome]
  · exact fun houtcome => ⟨_, h, houtcome⟩

/-- A text has at most one outcome. -/
theorem HasOutcome.unique {source : String} {a b : Except Fault Float}
    (ha : HasOutcome registry store source a) (hb : HasOutcome registry store source b) :
    a = b := by
  obtain ⟨program, hprogram, rfl⟩ := ha
  obtain ⟨other, hother, rfl⟩ := hb
  rw [hprogram, Except.ok.injEq] at hother
  rw [hother]

section Outcome

variable {definition : Requirement String} {requirement : Requirement Program} {later : Store}

/-- The fault of a compiled requirement is that of the leftmost leaf of its definition that has
one. -/
theorem faultOf_compiled (h : (definition.compileIn registry store).1 = .ok requirement) :
    faultOf (requirement.isMet later) = definition.leaves.findSome? fun source =>
      faultOf ((programOf registry source).evaluate later) := by
  rw [eq_map_of_compileIn definition h, faultOf_isMet, leaves_map, List.findSome?_map]
  rfl

/-- Checking a compiled requirement ends with the fault of a leaf if no leaf before it has one. -/
theorem isMet_eq_error_iff (h : (definition.compileIn registry store).1 = .ok requirement)
    {fault : Fault} :
    requirement.isMet later = .error fault ↔
      ∃ before source after, definition.leaves = before ++ source :: after ∧
        (∀ other ∈ before, ∃ value, HasOutcome registry later other (.ok value)) ∧
          HasOutcome registry later source (.error fault) := by
  have hleaf := compile_leaf h
  rw [← faultOf_eq_some_iff, faultOf_compiled h, List.findSome?_eq_some_iff]
  constructor
  · rintro ⟨before, source, after, hleaves, hfault, hbefore⟩
    rw [hleaves, List.forall_mem_append, List.forall_mem_cons] at hleaf
    obtain ⟨hothers, hsource, -⟩ := hleaf
    refine ⟨before, source, after, hleaves, fun other ho => ?_,
      (hasOutcome_iff hsource).mpr (faultOf_eq_some_iff.mp hfault)⟩
    obtain ⟨value, hvalue⟩ := faultOf_eq_none_iff.mp (hbefore other ho)
    exact ⟨value, (hasOutcome_iff (hothers other ho)).mpr hvalue⟩
  · rintro ⟨before, source, after, hleaves, hbefore, hfault⟩
    rw [hleaves, List.forall_mem_append, List.forall_mem_cons] at hleaf
    obtain ⟨hothers, hsource, -⟩ := hleaf
    refine ⟨before, source, after, hleaves,
      faultOf_eq_some_iff.mpr ((hasOutcome_iff hsource).mp hfault), fun other ho => ?_⟩
    obtain ⟨value, hvalue⟩ := hbefore other ho
    exact faultOf_eq_none_iff.mpr ⟨value, (hasOutcome_iff (hothers other ho)).mp hvalue⟩

/-- It ends without a fault if every leaf has a value. -/
theorem isMet_isOk_iff (h : (definition.compileIn registry store).1 = .ok requirement) :
    (∃ met, requirement.isMet later = .ok met) ↔
      ∀ source ∈ definition.leaves, ∃ value, HasOutcome registry later source (.ok value) := by
  rw [← faultOf_eq_none_iff, faultOf_compiled h, List.findSome?_eq_none_iff]
  refine forall₂_congr fun source hsource => ?_
  rw [faultOf_eq_none_iff]
  exact exists_congr fun value => (hasOutcome_iff (compile_leaf h source hsource)).symm

/-- It is then met if the definition holds of the leaves whose values are not zero. -/
theorem holds_of_compiled (h : (definition.compileIn registry store).1 = .ok requirement)
    {met : Bool} (hm : requirement.isMet later = .ok met) :
    met = true ↔ definition.Holds fun source =>
      ∃ value, HasOutcome registry later source (.ok value) ∧ (value != 0) = true := by
  rw [eq_map_of_compileIn definition h] at hm
  refine holds_of_isMet definition (fun source hsource => ?_) hm
  rw [Program.test]
  constructor
  · intro htest
    obtain ⟨value, hvalue, htrue⟩ := of_map_ok htest
    exact ⟨value, (hasOutcome_iff (compile_leaf h source hsource)).mpr hvalue, htrue⟩
  · rintro ⟨value, hvalue, htrue⟩
    rw [(hasOutcome_iff (compile_leaf h source hsource)).mp hvalue]
    exact congrArg Except.ok htrue

end Outcome

/-- Checking a requirement that has been compiled, in any store. Going on behind a fault and where
the outcome is decided changes nothing. Every leaf of its definition has an outcome there. If some
outcome is a fault, so is the answer, and it is that of the leftmost of these leaves, whatever the
leaves before it decide. Otherwise the requirement is met if its definition holds of the leaves
whose values are not zero, where a group without parts holds if all of them have to. With a
registry that a host can build, a fault is never one of the code. -/
theorem isMet_of_compiled {definition : Requirement String} {requirement : Requirement Program}
    (h : (definition.compileIn registry store).1 = .ok requirement) (later : Store) :
    requirement.isMetThroughout later = requirement.isMet later ∧
    (∀ source ∈ definition.leaves, ∃! outcome, HasOutcome registry later source outcome) ∧
    ((∃ fault, requirement.isMet later = .error fault) ↔
      ∃ source ∈ definition.leaves, ∃ fault, HasOutcome registry later source (.error fault)) ∧
    (∀ fault, requirement.isMet later = .error fault ↔
      ∃ before source after, definition.leaves = before ++ source :: after ∧
        (∀ other ∈ before, ∃ value, HasOutcome registry later other (.ok value)) ∧
          HasOutcome registry later source (.error fault)) ∧
    (∀ met, requirement.isMet later = .ok met ↔
      (∀ source ∈ definition.leaves, ∃ value, HasOutcome registry later source (.ok value)) ∧
        (met = true ↔ definition.Holds fun source =>
          ∃ value, HasOutcome registry later source (.ok value) ∧ (value != 0) = true)) ∧
    (registry.Reachable → requirement.isMet later ≠ .error .unbalanced) := by
  have hleaf := compile_leaf h
  refine ⟨requirement.isMetThroughout_eq, fun source hsource => ?_, ⟨?_, ?_⟩,
    fun fault => isMet_eq_error_iff h,
    fun met => ⟨fun hm => ⟨(isMet_isOk_iff h).mp ⟨met, hm⟩, holds_of_compiled h hm⟩, ?_⟩, ?_⟩
  · have houtcome : HasOutcome registry later source _ :=
      (hasOutcome_iff (hleaf source hsource)).mpr rfl
    exact ⟨_, houtcome, fun _ hother => hother.unique houtcome⟩
  · rintro ⟨fault, hfault⟩
    obtain ⟨before, source, after, hleaves, -, hsource⟩ := (isMet_eq_error_iff h).mp hfault
    refine ⟨source, ?_, fault, hsource⟩
    rw [hleaves]
    exact List.mem_append_right _ List.mem_cons_self
  · rintro ⟨source, hsource, fault, hfault⟩
    cases hm : requirement.isMet later with
    | error other => exact ⟨other, rfl⟩
    | ok met =>
      obtain ⟨value, hvalue⟩ := (isMet_isOk_iff h).mp ⟨met, hm⟩ source hsource
      cases hvalue.unique hfault
  · rintro ⟨hvalues, hmet⟩
    obtain ⟨other, hother⟩ := (isMet_isOk_iff h).mpr hvalues
    have hsame : other = met := Bool.eq_iff_iff.mpr ((holds_of_compiled h hother).trans hmet.symm)
    rw [hother, hsame]
  · intro hr hfault
    obtain ⟨-, _, -, -, -, program, hprogram, hsource⟩ := (isMet_eq_error_iff h).mp hfault
    exact ne_unbalanced_of_compile hr hprogram hsource

/-- A group that its first part decides already, with two leaves behind it that fail. -/
theorem isMet_of_compiled_decided :
    ∃ requirement,
      ((Requirement.any [.all [], .all [.single "1 / $x$", .single "sqrt($x$ - 1)"]]).compileIn
        .builtin .empty).1 = .ok requirement ∧
      requirement.isMet (Store.empty.set "x" 0) = .error (.failed (.divisionByZero "/")) ∧
      requirement.isMetThroughout (Store.empty.set "x" 0) =
        .error (.failed (.divisionByZero "/")) := by
  let definition : Requirement String :=
    .any [.all [], .all [.single "1 / $x$", .single "sqrt($x$ - 1)"]]
  have hnil : (definition.failures .builtin).length = 0 := by decide +kernel
  have hfault : (compile .builtin "1 / $x$").result.toOption.bind
      (fun program => faultOf (program.evaluate (Store.empty.set "x" 0))) =
        some (.failed (.divisionByZero "/")) := by decide +kernel
  rcases compileIn_cases .builtin .empty definition with ⟨requirement, -, hok, -⟩ | ⟨-, -, hne⟩
  · obtain ⟨hthroughout, -, -, herror, -⟩ := isMet_of_compiled hok (Store.empty.set "x" 0)
    obtain ⟨program, hprogram, hvalue⟩ := Option.bind_eq_some_iff.mp hfault
    have hcompiles : (compile .builtin "1 / $x$").result = .ok program := by
      cases hc : (compile .builtin "1 / $x$").result with
      | error diagnostics =>
        rw [hc] at hprogram
        cases hprogram
      | ok other =>
        rw [hc] at hprogram
        cases hprogram
        rfl
    have hmet : requirement.isMet (Store.empty.set "x" 0) =
        .error (.failed (.divisionByZero "/")) :=
      (herror _).mpr ⟨[], "1 / $x$", ["sqrt($x$ - 1)"], rfl, by simp, program, hcompiles,
        faultOf_eq_some_iff.mp hvalue⟩
    exact ⟨requirement, hok, hmet, hthroughout.trans hmet⟩
  · exact absurd (List.length_eq_zero_iff.mp hnil) hne

end GateFormula
