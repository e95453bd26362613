import GateFormula.Store

/-!
# What is in a store

A store is known by the values of its variables and by their rules. Declaring gives a variable
the value zero if it has none, and setting gives it a value whatever it had; either leaves the
other variables alone and takes none away, and the rules never change. Two stores with the same
values and rules are equal, so that of variables that are declared only the set of their names
matters.
-/

namespace GateFormula

/-- A variable is in a store if it has a value there. -/
theorem Store.contains_eq (store : Store) (name : String) :
    store.contains name = (store.get? name).isSome :=
  Std.ExtTreeMap.contains_eq_isSome_getElem?

/-- Stores with the same values and rules are equal. -/
theorem Store.ext_get? {a b : Store} (hv : ∀ name, a.get? name = b.get? name)
    (hr : a.reducers = b.reducers) : a = b := by
  obtain ⟨values, reducers⟩ := a
  obtain ⟨others, rules⟩ := b
  have hvalues : values = others := Std.ExtTreeMap.ext_getElem? hv
  cases hvalues
  cases hr
  rfl

/-! ### Giving values -/

/-- A variable that is given a value has it, and the others keep theirs. -/
@[simp] theorem Store.get?_set (store : Store) (name : String) (value : Float) (other : String) :
    (store.set name value).get? other = if name = other then some value else store.get? other := by
  simp only [Store.get?, Store.set, Std.ExtTreeMap.getElem?_insert, Std.compare_eq_iff_eq]

/-- Giving a variable of a store a value adds no variable. -/
theorem Store.contains_set {store : Store} {name : String}
    (h : store.contains name = true) (value : Float) (other : String) :
    (store.set name value).contains other = store.contains other := by
  rw [Store.contains_eq, Store.contains_eq, Store.get?_set]
  split
  next heq =>
    rw [← heq, ← Store.contains_eq, h]
    rfl
  · rfl

/-- Merging a value into a variable of a store gives it the merged value. -/
theorem Store.update_eq_set {store : Store} {name : String} {current : Float}
    (h : store.get? name = some current) (value : Float) :
    store.update name value = store.set name ((store.reducer name).merge current value) := by
  rw [Store.update, Store.merged, h]

/-! ### Declaring variables -/

/-- Declaring a variable gives it the value zero, if it has none, and changes no other one. -/
@[simp] theorem Store.get?_declare (store : Store) (declared name : String) :
    (store.declare declared).get? name =
      (store.get? name).or (if declared = name then some 0 else none) := by
  simp only [Store.get?, Store.declare, Std.ExtTreeMap.getElem?_insertIfNew]
  by_cases hname : declared = name
  · subst hname
    simp only [Std.ExtTreeMap.mem_iff_isSome_getElem?]
    cases store.values[declared]? <;> simp
  · have hne : compare declared name ≠ .eq := fun h => hname (Std.LawfulEqCmp.eq_of_compare h)
    simp [hne, hname]

/-- Declaring a variable tells whether it was missing, and leaves it declared be it new or not. -/
theorem Store.declareNew_eq (store : Store) (name : String) :
    store.declareNew name = (!store.contains name, store.declare name) := by
  rw [Store.declareNew]
  split
  next hknown =>
    have hsame : store.declare name = store := by
      refine Store.ext_get? (fun other => ?_) rfl
      rw [Store.contains_eq] at hknown
      by_cases hname : name = other
      · rw [Store.get?_declare, ← hname, Option.or_of_isSome hknown]
      · simp [hname]
    rw [hknown, hsame]
    rfl
  next hnew =>
    have hset : store.declare name = store.set name 0 := by
      refine Store.ext_get? (fun other => ?_) rfl
      rw [Store.contains_eq, Option.not_isSome_iff_eq_none] at hnew
      by_cases hname : name = other
      · simp [← hname, hnew]
      · simp [hname]
    rw [eq_false_of_ne_true hnew, hset]
    rfl

/-- Declaring several variables does so for each. -/
@[simp] theorem Store.get?_declareAll (store : Store) (names : List String) (name : String) :
    (store.declareAll names).get? name =
      (store.get? name).or (if name ∈ names then some 0 else none) := by
  induction names generalizing store with
  | nil => simp [Store.declareAll]
  | cons declared names ih =>
    change ((store.declare declared).declareAll names).get? name = _
    rw [ih]
    by_cases hname : declared = name
    · cases hheld : store.get? name <;> simp [hname, hheld]
    · simp [hname, Ne.symm hname]

/-- Declaring further variables goes on from the store that those before have left. -/
theorem Store.declareAll_append (store : Store) (names others : List String) :
    store.declareAll (names ++ others) = (store.declareAll names).declareAll others :=
  List.foldl_append

/-- The rules of variables stay. -/
@[simp] theorem Store.reducers_declareAll (store : Store) (names : List String) :
    (store.declareAll names).reducers = store.reducers := by
  induction names generalizing store with
  | nil => rfl
  | cons declared names ih => exact ih (store.declare declared)

/-- Declaring the same names, in whatever order and however often, leaves the same store. -/
theorem Store.declareAll_congr (store : Store) {names others : List String}
    (h : ∀ name, name ∈ names ↔ name ∈ others) :
    store.declareAll names = store.declareAll others := by
  refine Store.ext_get? (fun name => ?_) ?_
  · simp [h name]
  · simp

/-! ### Stores grow -/

/-- A store has all variables of another one. -/
def Store.Extends (larger smaller : Store) : Prop :=
  ∀ name, smaller.contains name = true → larger.contains name = true

/-- A store that extends one that extends another extends the latter. -/
theorem Store.Extends.trans {a b c : Store} (hab : a.Extends b) (hbc : b.Extends c) :
    a.Extends c :=
  fun name h => hab name (hbc name h)

/-- Declaring variables puts them into the store. -/
theorem contains_declareAll {store : Store} {names : List String} {name : String}
    (h : name ∈ names) : (store.declareAll names).contains name = true := by
  rw [Store.contains_eq]
  simp [h]

/-- Declaring variables keeps the others. -/
theorem extends_declareAll (store : Store) (names : List String) :
    (store.declareAll names).Extends store := by
  intro name h
  rw [Store.contains_eq] at h ⊢
  simp [h]

/-- Giving a variable a value keeps the others. -/
theorem extends_set (store : Store) (name : String) (value : Float) :
    (store.set name value).Extends store := by
  intro other h
  change (store.values.insert name value).contains other = true
  rw [Std.ExtTreeMap.contains_insert]
  exact Bool.or_eq_true_iff.mpr (.inr h)

end GateFormula
