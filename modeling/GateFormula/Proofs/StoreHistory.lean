import GateFormula.Proofs.Declaring

/-!
# Histories of variables

A store keeps its values and its rules in two maps. What a host sees of a store is a history of
every variable by itself: what the variable holds is drawn from the schema and from the calls on
that variable, in their order, and from nothing else. `Store.history` is this fold, and
`performAll_history` says that a store answers by it after any calls on any variables.
-/

namespace GateFormula

namespace Store

/-- A call that may change a store. -/
inductive Call where
  /-- Declare a variable. -/
  | declare (name : String)
  /-- Give a variable a value. -/
  | set (name : String) (value : Float)
  /-- Merge a value into a variable. -/
  | update (name : String) (value : Float)

/-- What a call answers. -/
inductive Answer where
  /-- Whether the variable that is declared is new. -/
  | isNew (new : Bool)
  /-- The variable has its value. -/
  | done
  /-- What the variable holds once the value is merged. -/
  | holds (value : Float)

/-- The variable that a call is on. -/
def Call.name : Call → String
  | .declare name | .set name _ | .update name _ => name

/-- Carry out a call. -/
def perform (s : Store) : Call → Answer × Store
  | .declare name => (.isNew (s.declareNew name).1, (s.declareNew name).2)
  | .set name value => (.done, s.set name value)
  | .update name value => (.holds (s.merged name value), s.update name value)

/-- Carry out calls in order. -/
def performAll (s : Store) (calls : List Call) : Store :=
  calls.foldl (fun s call => (s.perform call).2) s

/-- What a variable holds after a call on it, by its rule and by what it held before. -/
def Call.effect (rule : Reducer) (held : Option Float) : Call → Option Float
  | .declare _ => some (held.getD 0)
  | .set _ value => some value
  | .update _ value =>
    match held with
    | some current => some (rule.merge current value)
    | none => some value

/-- The rule of a variable by a schema; a variable that the schema does not have is
overwritten. -/
def ruleOf (schema : Schema) (name : String) : Reducer :=
  match schema[name]? with
  | some definition => definition.reducer
  | none => .overwrite

/-- What a variable holds at the start, if the schema has it. -/
def startOf (schema : Schema) (name : String) : Option Float :=
  schema[name]?.map VariableDef.default

/-- What a variable holds after calls: those on it take effect in their order, from its value at
the start. -/
def history (schema : Schema) (name : String) (calls : List Call) : Option Float :=
  (calls.filter fun call => call.name = name).foldl (Call.effect (ruleOf schema name))
    (startOf schema name)

/-! ### One call -/

/-- The rules stay as they are. -/
@[simp] theorem reducers_perform (s : Store) (call : Call) :
    (s.perform call).2.reducers = s.reducers := by
  cases call with
  | declare name => rw [perform, declareNew_eq]; rfl
  | set name value => rfl
  | update name value => rfl

/-- Declaring leaves the store that has the variable declared, be it new or not. -/
@[simp] theorem perform_declare (s : Store) (name : String) :
    (s.perform (.declare name)).2 = s.declare name := by
  rw [perform, declareNew_eq]

/-- A call takes effect on its variable and leaves the others alone. -/
theorem get?_perform (s : Store) (call : Call) (name : String) :
    (s.perform call).2.get? name =
      if call.name = name then call.effect (s.reducer name) (s.get? name) else s.get? name := by
  cases call with
  | declare declared =>
    rw [perform_declare, get?_declare]
    by_cases hname : declared = name
    · simp only [Call.name, hname, if_true, Call.effect]
      cases s.get? name <;> rfl
    · simp only [Call.name, hname, if_false, Option.or_none]
  | set other value => exact s.get?_set other value name
  | update other value =>
    have hset : (s.perform (.update other value)).2 = s.set other (s.merged other value) := rfl
    rw [hset, get?_set]
    by_cases hname : other = name
    · simp only [Call.name, hname, if_true, Call.effect, merged]
      cases s.get? name <;> rfl
    · simp only [Call.name, hname, if_false]

/-- A variable is in the store behind a call if it was there before or the call is on it. -/
theorem contains_perform (s : Store) (call : Call) (name : String) :
    (s.perform call).2.contains name = (decide (call.name = name) || s.contains name) := by
  have heffect : ∀ rule held, (call.effect rule held).isSome = true := by
    intro rule held
    cases call with
    | declare name => rfl
    | set name value => rfl
    | update name value => cases held <;> rfl
  rw [contains_eq, contains_eq, get?_perform]
  by_cases hname : call.name = name
  · rw [if_pos hname, heffect, decide_eq_true hname, Bool.true_or]
  · rw [if_neg hname, decide_eq_false hname, Bool.false_or]

/-- A call adds its variable if it was not there before. -/
theorem size_perform (s : Store) (call : Call) :
    (s.perform call).2.size = s.size + if s.contains call.name then 0 else 1 := by
  have hcount : ∀ name, (if name ∈ s.values then s.size else s.size + 1) =
      s.size + if s.contains name then 0 else 1 := by
    intro name
    have hmem : name ∈ s.values ↔ s.contains name = true :=
      Std.ExtTreeMap.contains_iff_mem.symm
    simp only [hmem]
    split <;> omega
  cases call with
  | declare name =>
    have hsize : (s.declare name).size = if name ∈ s.values then s.size else s.size + 1 :=
      Std.ExtTreeMap.size_insertIfNew
    rw [perform_declare, hsize]
    exact hcount name
  | set name value =>
    have hsize : (s.set name value).size = if name ∈ s.values then s.size else s.size + 1 :=
      Std.ExtTreeMap.size_insert
    exact hsize.trans (hcount name)
  | update name value =>
    have hsize : (s.update name value).size = if name ∈ s.values then s.size else s.size + 1 :=
      Std.ExtTreeMap.size_insert
    exact hsize.trans (hcount name)

/-! ### Several calls -/

/-- The rules stay as they are throughout. -/
@[simp] theorem reducers_performAll (s : Store) (calls : List Call) :
    (s.performAll calls).reducers = s.reducers := by
  induction calls generalizing s with
  | nil => rfl
  | cons call calls ih => exact (ih (s.perform call).2).trans (s.reducers_perform call)

/-- The calls on a variable take effect on it in their order, and no others do. -/
theorem get?_performAll (s : Store) (calls : List Call) (name : String) :
    (s.performAll calls).get? name =
      (calls.filter fun call => call.name = name).foldl (Call.effect (s.reducer name))
        (s.get? name) := by
  induction calls generalizing s with
  | nil => rfl
  | cons call calls ih =>
    have hrule : (s.perform call).2.reducer name = s.reducer name := by
      simp [reducer]
    have hrest : ((s.perform call).2.performAll calls).get? name = _ := ih (s.perform call).2
    rw [hrule, get?_perform] at hrest
    rw [List.filter_cons]
    by_cases hname : call.name = name
    · simp only [hname, if_true] at hrest
      simp only [hname, decide_true, if_true, List.foldl_cons]
      exact hrest
    · simp only [hname, if_false] at hrest
      simp only [hname, decide_false, Bool.false_eq_true, if_false]
      exact hrest

/-- A variable is in the store in the end if it was there before or some call was on it. -/
theorem contains_performAll (s : Store) (calls : List Call) (name : String) :
    (s.performAll calls).contains name = true ↔
      s.contains name = true ∨ name ∈ calls.map Call.name := by
  induction calls generalizing s with
  | nil => simp [performAll]
  | cons call calls ih =>
    have hrest : ((s.perform call).2.performAll calls).contains name = true ↔ _ :=
      ih (s.perform call).2
    have hfirst : (s.perform call).2.contains name = true ↔
        s.contains name = true ∨ name = call.name := by
      rw [contains_perform, Bool.or_eq_true, decide_eq_true_iff, or_comm,
        eq_comm (a := call.name)]
    rw [List.map_cons, List.mem_cons, ← or_assoc, ← hfirst]
    exact hrest

/-- Every variable that was not there before and that some call was on has been added once. -/
theorem size_performAll (s : Store) (calls : List Call) :
    (s.performAll calls).size = s.size +
      (firstOccurrences ((calls.map Call.name).filter fun name => !s.contains name)).length := by
  induction calls using List.reverseRecOn with
  | nil => rfl
  | append_singleton calls call ih =>
    have hlast : s.performAll (calls ++ [call]) = ((s.performAll calls).perform call).2 := by
      rw [performAll, List.foldl_append]
      rfl
    rw [hlast, size_perform, ih, List.map_append, List.filter_append, List.map_singleton]
    by_cases hknown : s.contains call.name = true
    · have hstill : (s.performAll calls).contains call.name = true :=
        (s.contains_performAll calls call.name).mpr (.inl hknown)
      simp only [hknown, hstill, if_true, Nat.add_zero, List.filter_singleton, Bool.not_true,
        cond_false, List.append_nil]
    · have hseen : (s.performAll calls).contains call.name =
          (firstOccurrences ((calls.map Call.name).filter fun name => !s.contains name)).contains
            call.name := by
        rw [Bool.eq_iff_iff, contains_performAll, List.contains_iff_mem, mem_firstOccurrences,
          List.mem_filter]
        simp only [hknown, Bool.not_false, false_or, and_true, Bool.false_eq_true]
      have hnew : [call.name].filter (fun name => !s.contains name) = [call.name] := by
        rw [List.filter_singleton, eq_false_of_ne_true hknown]
        rfl
      rw [hnew, firstOccurrences_concat, ← hseen]
      by_cases hthere : (s.performAll calls).contains call.name = true
      · rw [if_pos hthere, if_pos hthere, Nat.add_zero]
      · rw [if_neg hthere, if_neg hthere, List.length_append, List.length_singleton, Nat.add_assoc]

/-! ### From a schema -/

/-- The rule of a variable in the store of a schema is that of the schema. -/
@[simp] theorem reducer_ofSchema (schema : Schema) (name : String) :
    (ofSchema schema).reducer name = ruleOf schema name := by
  have hrule : (ofSchema schema).reducers[name]? = schema[name]?.map VariableDef.reducer :=
    Std.ExtTreeMap.getElem?_map
  rw [reducer, hrule, ruleOf]
  cases schema[name]? <;> rfl

/-- A variable holds what the schema says at the start. -/
@[simp] theorem get?_ofSchema (schema : Schema) (name : String) :
    (ofSchema schema).get? name = startOf schema name :=
  Std.ExtTreeMap.getElem?_map

/-- The store of a schema has the variables of the schema. -/
@[simp] theorem contains_ofSchema (schema : Schema) (name : String) :
    (ofSchema schema).contains name = schema.contains name :=
  Std.ExtTreeMap.contains_map

/-- A store that has been made of a schema and changed by calls on any variables. Every variable
holds what its own history says, and its rule is that of the schema throughout. Declaring answers
that a variable is new if its history has left it without a value, and merging answers what the
variable holds then, which again is what its history says. Calls on other variables have no
influence: where two rows of calls have the same calls on a variable, the variable holds the same.
The variables are those of the schema and those that some call was on. -/
theorem performAll_history (schema : Schema) (calls : List Call) :
    let s := (ofSchema schema).performAll calls
    (∀ name, s.get? name = history schema name calls) ∧
    (∀ name, s.reducer name = ruleOf schema name) ∧
    (∀ name, (s.perform (.declare name)).1 = .isNew (history schema name calls).isNone) ∧
    (∀ name value, ∃ held, (s.perform (.update name value)).1 = .holds held ∧
      (s.perform (.update name value)).2.get? name = some held ∧
      history schema name (calls ++ [.update name value]) = some held) ∧
    (∀ name others,
      others.filter (fun call => call.name = name) = calls.filter (fun call => call.name = name) →
        ((ofSchema schema).performAll others).get? name = s.get? name) ∧
    s.size = schema.size +
      (firstOccurrences ((calls.map Call.name).filter fun name => !schema.contains name)).length := by
  have hget : ∀ (calls : List Call) (name : String),
      ((ofSchema schema).performAll calls).get? name = history schema name calls := by
    intro calls name
    rw [get?_performAll, history]
    simp
  intro s
  refine ⟨hget calls, fun name => ?rule, fun name => ?declare, fun name value => ?update,
    fun name others hothers => ?others, ?size⟩
  case rule => rw [← reducer_ofSchema, reducer, reducer, reducers_performAll]
  case declare =>
    rw [← hget calls name, ← Option.not_isSome, ← contains_eq, perform, declareNew_eq]
  case update =>
    have hlast : (ofSchema schema).performAll (calls ++ [.update name value]) =
        s.update name value := by
      rw [performAll, List.foldl_append]
      rfl
    have hheld : (s.update name value).get? name = some (s.merged name value) := by
      simp [update]
    refine ⟨s.merged name value, rfl, hheld, ?_⟩
    rw [← hget, hlast]
    exact hheld
  case others => rw [hget, hget, history, history, hothers]
  case size =>
    have hstart : (ofSchema schema).size = schema.size := Std.ExtTreeMap.size_map
    have hsize := (ofSchema schema).size_performAll calls
    rw [hstart] at hsize
    simpa using hsize

end Store

end GateFormula
