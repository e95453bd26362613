import GateFormula.Proofs.Balance

/-!
# Evaluation of terms

How a term evaluates, said without a stack and without an order of steps: the operands of
a function from left to right, all of them unless one fails, then the function itself.
Running the postfix code of a term has the same outcome, be it a number or an error, if
every function in the term accepts its number of operands.
-/

namespace GateFormula

mutual

/-- The outcome of a term in a store. -/
inductive Term.Evaluates (store : Store) : Term → Except EvalError Float → Prop where
  /-- A number is its own value. -/
  | number {value} : Evaluates store (.number value) (.ok value)
  /-- A variable has the value that the store has for it. -/
  | reference {name value} (known : store.get? name = some value) :
      Evaluates store (.reference name) (.ok value)
  /-- A variable that the store lacks is an error. -/
  | undeclared {name} (unknown : store.get? name = none) :
      Evaluates store (.reference name) (.error (.undeclaredVariable name))
  /-- A function is given the values of its operands in order, as many fixed ones as it has and
  the others as the rest, and its answer is turned into a number. -/
  | answered {function operands fixed rest output}
      (values : EvaluatesAll store operands (.ok (Vector.toList fixed ++ rest)))
      (answer : Signature.call function ⟨fixed, rest⟩ = .ok output) :
      Evaluates store (.apply function operands) (.ok output.toNumber)
  /-- It may refuse them. -/
  | refused {function operands fixed rest cause}
      (values : EvaluatesAll store operands (.ok (Vector.toList fixed ++ rest)))
      (refusal : Signature.call function ⟨fixed, rest⟩ = .error cause) :
      Evaluates store (.apply function operands) (.error cause)
  /-- It is not called if an operand fails. -/
  | failed {function operands cause} (first : EvaluatesAll store operands (.error cause)) :
      Evaluates store (.apply function operands) (.error cause)

/-- The outcome of several terms in a store: their values, or the first error. -/
inductive Term.EvaluatesAll (store : Store) : List Term → Except EvalError (List Float) → Prop where
  /-- No term. -/
  | nil : EvaluatesAll store [] (.ok [])
  /-- All terms have values. -/
  | cons {t ts value values} (first : Evaluates store t (.ok value))
      (rest : EvaluatesAll store ts (.ok values)) :
      EvaluatesAll store (t :: ts) (.ok (value :: values))
  /-- The first term fails. -/
  | head {t ts cause} (first : Evaluates store t (.error cause)) :
      EvaluatesAll store (t :: ts) (.error cause)
  /-- A later one fails. -/
  | tail {t ts value cause} (first : Evaluates store t (.ok value))
      (rest : EvaluatesAll store ts (.error cause)) : EvaluatesAll store (t :: ts) (.error cause)

end

variable {store : Store}

/-- Fixed arguments and further ones, put together, are split again. -/
theorem ofList?_append {arity : Nat} (fixed : Vector Float arity) (rest : List Float) :
    Args.ofList? arity (fixed.toList ++ rest) = some ⟨fixed, rest⟩ := by
  have hlength : fixed.toList.length = arity := by rw [Vector.length_toList]
  have hle : arity ≤ (fixed.toList ++ rest).length := by
    rw [List.length_append]
    omega
  have htake : (fixed.toList ++ rest).take arity = fixed.toList := List.take_left' hlength
  have hdrop : (fixed.toList ++ rest).drop arity = rest := List.drop_left' hlength
  rw [Args.ofList?, dif_pos hle]
  simp only [htake, hdrop]
  simp only [Vector.toList, Array.toArray_toList]

mutual

/-- The value of a term is its outcome. -/
theorem Term.Evaluates.value_eq {t : Term} {result : Except EvalError Float}
    (h : t.Evaluates store result) : t.value store = result.mapError .failed := by
  match h with
  | .number => rw [Term.value]; rfl
  | .reference known => rw [Term.value, known]; rfl
  | .undeclared unknown => rw [Term.value, unknown]; rfl
  | .answered values answer =>
    rw [Term.value, values.values_eq]
    simp only [Except.mapError, Signature.answer, ofList?_append, answer]
  | .refused values refusal =>
    rw [Term.value, values.values_eq]
    simp only [Except.mapError, Signature.answer, ofList?_append, refusal]
  | .failed first =>
    rw [Term.value, first.values_eq]
    rfl

/-- The values of several terms are their outcome. -/
theorem Term.EvaluatesAll.values_eq {ts : List Term} {result : Except EvalError (List Float)}
    (h : Term.EvaluatesAll store ts result) : Term.values store ts = result.mapError .failed := by
  match h with
  | .nil => rw [Term.values]; rfl
  | .cons first rest =>
    rw [Term.values, first.value_eq, rest.values_eq]
    rfl
  | .head first =>
    rw [Term.values, first.value_eq]
    rfl
  | .tail first rest =>
    rw [Term.values, first.value_eq, rest.values_eq]
    rfl

end

mutual

/-- A term whose functions accept their operands has an outcome. -/
theorem evaluates_of_isAccepted (store : Store) (t : Term) (h : t.isAccepted = true) :
    ∃ result, t.Evaluates store result := by
  match t with
  | .number value => exact ⟨_, .number⟩
  | .reference name =>
    cases hs : store.get? name with
    | none => exact ⟨_, .undeclared hs⟩
    | some value => exact ⟨_, .reference hs⟩
  | .apply function operands =>
    rw [Term.isAccepted, Bool.and_eq_true] at h
    obtain ⟨result, hresult⟩ := evaluatesAll_of_areAccepted store operands h.2
    cases result with
    | error cause => exact ⟨_, .failed hresult⟩
    | ok values =>
      have hlength : values.length = operands.length := Term.values_length hresult.values_eq
      obtain ⟨⟨fixed, rest⟩, -, hall, -⟩ := args_of_accepts (hlength.symm ▸ h.1)
      subst hall
      cases hcall : function.call ⟨fixed, rest⟩ with
      | error cause => exact ⟨_, .refused hresult hcall⟩
      | ok output => exact ⟨_, .answered hresult hcall⟩

/-- So have several. -/
theorem evaluatesAll_of_areAccepted (store : Store) (ts : List Term)
    (h : Term.areAccepted ts = true) : ∃ result, Term.EvaluatesAll store ts result := by
  match ts with
  | [] => exact ⟨_, .nil⟩
  | t :: ts =>
    rw [Term.areAccepted, Bool.and_eq_true] at h
    obtain ⟨first, hfirst⟩ := evaluates_of_isAccepted store t h.1
    obtain ⟨rest, hrest⟩ := evaluatesAll_of_areAccepted store ts h.2
    cases first with
    | error cause => exact ⟨_, .head hfirst⟩
    | ok value =>
      cases rest with
      | error cause => exact ⟨_, .tail hfirst hrest⟩
      | ok values => exact ⟨_, .cons hfirst hrest⟩

end

end GateFormula
