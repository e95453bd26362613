import GateFormula.Machine

/-!
# Terms

A term is what a formula means once its names are looked up: numbers, variables, and
functions applied to terms. Its code lists it in postfix order, and its value is found
on the tree itself, without a stack. `run_code` says that the two agree: running the
code of a term pushes its value, or ends with its fault, whatever lies on the stack
and whatever code follows.
-/

namespace GateFormula

/-- A formula whose names are looked up. -/
inductive Term where
  /-- A number. -/
  | number (value : Float)
  /-- A variable of the store. -/
  | reference (name : String)
  /-- A function of terms. -/
  | apply (function : Signature) (operands : List Term)

/-- The answer of a function to the values of its arguments, as a number. -/
def Signature.answer (s : Signature) (values : List Float) : Except Fault Float :=
  match Args.ofList? s.arity values with
  | none => .error .unbalanced
  | some args =>
    match s.call args with
    | .error cause => .error (.failed cause)
    | .ok output => .ok output.toNumber

namespace Term

mutual

/-- The instructions of a term: those of its operands from left to right, then its own. -/
def code : Term → List Instruction
  | .number value => [.push value]
  | .reference name => [.load name]
  | .apply function operands => codeOf operands ++ [.call function operands.length]

/-- The instructions of several terms from left to right. -/
def codeOf : List Term → List Instruction
  | [] => []
  | term :: terms => term.code ++ codeOf terms

end

mutual

/-- The value of a term in a store. The operands are evaluated from left to right, all of
them, and the first fault is that of the term. -/
def value (store : Store) : Term → Except Fault Float
  | .number value => .ok value
  | .reference name =>
    match store.get? name with
    | some value => .ok value
    | none => .error (.failed (.undeclaredVariable name))
  | .apply function operands =>
    match values store operands with
    | .error fault => .error fault
    | .ok values => function.answer values

/-- The values of several terms. -/
def values (store : Store) : List Term → Except Fault (List Float)
  | [] => .ok []
  | term :: terms =>
    match term.value store with
    | .error fault => .error fault
    | .ok value =>
      match values store terms with
      | .error fault => .error fault
      | .ok values => .ok (value :: values)

end

mutual

/-- Whether every function accepts the number of its operands. -/
def isAccepted : Term → Bool
  | .number _ | .reference _ => true
  | .apply function operands => function.accepts operands.length && areAccepted operands

/-- Whether every function in several terms accepts the number of its operands. -/
def areAccepted : List Term → Bool
  | [] => true
  | term :: terms => term.isAccepted && areAccepted terms

end

/-! ### Running the code of a term -/

/-- There is a value for every term. -/
theorem values_length {store : Store} {terms : List Term} {found : List Float}
    (h : values store terms = .ok found) : found.length = terms.length := by
  induction terms generalizing found with
  | nil =>
    rw [values] at h
    cases h
    rfl
  | cons term terms ih =>
    rw [values] at h
    split at h
    · cases h
    · split at h
      · cases h
      next rest hrest =>
        cases h
        simp [ih hrest]

/-- A call takes the values on top of the stack and leaves the answer in their place. -/
theorem apply_reverse (function : Signature) (found stack : List Float) :
    Machine.apply function found.length (found.reverse ++ stack)
      = (function.answer found).map (· :: stack) := by
  have top : ((found.reverse ++ stack).take found.length).reverse = found := by
    rw [List.take_left' (by simp)]
    simp
  have below : (found.reverse ++ stack).drop found.length = stack :=
    List.drop_left' (by simp)
  simp only [Machine.apply, List.length_append, List.length_reverse, Nat.le_add_right, if_true,
    top, below, Signature.answer]
  cases Args.ofList? function.arity found with
  | none => rfl
  | some args =>
    simp only
    cases function.call args <;> rfl

mutual

/-- Running the code of a term pushes its value and goes on, or ends with its fault. -/
theorem run_code (store : Store) (stack : List Float) (code : List Instruction) (term : Term) :
    Machine.run store stack (term.code ++ code) =
      match term.value store with
      | .error fault => .error fault
      | .ok value => Machine.run store (value :: stack) code := by
  match term with
  | .number value => simp [Term.code, Term.value, Machine.run, Machine.step]
  | .reference name =>
    simp only [Term.code, Term.value, List.cons_append, List.nil_append, Machine.run,
      Machine.step]
    cases store.get? name <;> rfl
  | .apply function operands =>
    simp only [Term.code, Term.value, List.append_assoc]
    rw [run_codeOf store stack _ operands]
    cases hvalues : values store operands with
    | error fault => rfl
    | ok found =>
      simp only [List.cons_append, List.nil_append, Machine.run, Machine.step]
      rw [← values_length hvalues, apply_reverse]
      cases function.answer found <;> rfl

/-- Running the code of several terms pushes their values, the last one on top. -/
theorem run_codeOf (store : Store) (stack : List Float) (code : List Instruction)
    (terms : List Term) :
    Machine.run store stack (codeOf terms ++ code) =
      match values store terms with
      | .error fault => .error fault
      | .ok found => Machine.run store (found.reverse ++ stack) code := by
  match terms with
  | [] => simp [codeOf, values]
  | term :: terms =>
    simp only [codeOf, values, List.append_assoc]
    rw [run_code store stack _ term]
    cases term.value store with
    | error fault => rfl
    | ok value =>
      simp only
      rw [run_codeOf store (value :: stack) code terms]
      cases values store terms <;> simp

end

end Term

end GateFormula
