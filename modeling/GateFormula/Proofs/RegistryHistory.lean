import GateFormula.Proofs.Registering
import Mathlib.Data.List.Induction

/-!
# Histories of registries

A host registers functions, operators and constants one after another, and a registry may refuse
an operator. What a registry holds is a history of every name and symbol by itself: a lookup
yields the last entry that was registered there and not refused, where the standard registry
counts as the outcome of registering its entries. `performAll_records` says so after any
registrations, and with it that every entry is listed under its own name or symbol and that a
refusal changes nothing.
-/

namespace GateFormula

/-- What a host asks a registry to list. -/
inductive Registration where
  /-- A function, under its own name. -/
  | function (s : Signature)
  /-- An operator, under its own symbol. -/
  | operator (o : Operator)
  /-- A constant, under a name. -/
  | constant (name : String) (value : Float)

namespace Registration

/-- What a registry answers. -/
inductive Answer where
  /-- The function that has been replaced, if there was one. -/
  | function (replaced : Option Signature)
  /-- Why the operator has been refused, if it has. -/
  | operator (refusal : Option OperatorError)
  /-- The constant that has been replaced, if there was one. -/
  | constant (replaced : Option Float)

end Registration

/-- An operator is allowed under a symbol if it has that symbol and passes every check. -/
theorem Operator.allowed_iff {symbol : String} {o : Operator} :
    o.Allowed symbol ↔ o.symbol = symbol ∧ o.symbol.toList ≠ [] ∧
      o.symbol.toList.all Registry.isSymbolChar = true ∧
      (o.function.arity = 1 ∨ o.function.arity = 2) ∧ o.function.variadic = false :=
  ⟨fun h => ⟨h.symbol_eq, h.nonempty, h.chars, h.arity, h.fixed⟩,
    fun h => ⟨h.1, h.2.1, h.2.2.1, h.2.2.2.1, h.2.2.2.2⟩⟩

instance (symbol : String) (o : Operator) : Decidable (o.Allowed symbol) :=
  decidable_of_iff' _ Operator.allowed_iff

/-- The first rule that an operator breaks. -/
inductive Operator.Breaks (o : Operator) : OperatorError → Prop where
  /-- Its symbol is empty or has a character that no symbol may have. -/
  | symbol (bad : o.symbol.toList = [] ∨ o.symbol.toList.all Registry.isSymbolChar = false) :
      Breaks o (.invalidSymbol o.symbol)
  /-- Its symbol is fine, and it takes any number of operands. -/
  | variadic (nonempty : o.symbol.toList ≠ [])
      (chars : o.symbol.toList.all Registry.isSymbolChar = true)
      (variadic : o.function.variadic = true) : Breaks o (.variadic o.symbol)
  /-- Its symbol is fine, and it takes a number of operands other than one and two. -/
  | arity (nonempty : o.symbol.toList ≠ [])
      (chars : o.symbol.toList.all Registry.isSymbolChar = true)
      (fixed : o.function.variadic = false)
      (arity : o.function.arity ≠ 1 ∧ o.function.arity ≠ 2) :
      Breaks o (.invalidArity o.symbol o.function.arity)

namespace Registry

/-- Carry out a registration. A registry that refuses an operator stays as it is. -/
def perform (r : Registry) : Registration → Registration.Answer × Registry
  | .function s => (.function (r.function? s.name), r.addFunction s)
  | .constant name value => (.constant (r.constant? name), r.addConstant name value)
  | .operator o =>
    match r.addOperator o with
    | .ok b => (.operator none, b)
    | .error refusal => (.operator (some refusal), r)

/-- Carry out registrations in order. -/
def performAll (r : Registry) (history : List Registration) : Registry :=
  history.foldl (fun r registration => (r.perform registration).2) r

end Registry

/-- The standard functions, operators and constants as registrations. -/
def Builtin.registrations : List Registration :=
  Builtin.functions.map .function ++ Builtin.operators.map .operator ++
    Builtin.constants.map fun binding => .constant binding.1 binding.2

namespace Registration

/-- The function that a registration lists under a name. -/
def functionUnder (name : String) : Registration → Option Signature
  | .function s => if s.name = name then some s else none
  | .operator _ | .constant _ _ => none

/-- The operator that a registration lists under a symbol, unless it is refused. -/
def operatorUnder (symbol : String) : Registration → Option Operator
  | .operator o => if o.Allowed symbol then some o else none
  | .function _ | .constant _ _ => none

/-- The constant that a registration lists under a name. -/
def constantUnder (name : String) : Registration → Option Float
  | .constant other value => if other = name then some value else none
  | .function _ | .operator _ => none

/-- The entry of the last registration that has one. -/
def latest {α : Type} (entry : Registration → Option α) (history : List Registration) : Option α :=
  history.reverse.findSome? entry

end Registration

open Registration (functionUnder operatorUnder constantUnder latest)

/-- What a registry holds after registrations from the empty registry on. -/
structure Registry.Records (history : List Registration) (r : Registry) : Prop where
  /-- Every operator is listed under its own symbol, and allowed there. -/
  operators : ∀ symbol o, r.operator? symbol = some o → o.Allowed symbol
  /-- Every function is listed under its own name. -/
  functions : ∀ name s, r.function? name = some s → s.name = name
  /-- The operator of a symbol is the last one that was not refused. -/
  latestOperator : ∀ symbol, r.operator? symbol = latest (operatorUnder symbol) history
  /-- The function of a name is the last one. -/
  latestFunction : ∀ name, r.function? name = latest (functionUnder name) history
  /-- The value of a constant is the last one. -/
  latestConstant : ∀ name, r.constant? name = latest (constantUnder name) history
  /-- Registering a function answers with the last one of its name. -/
  replacedFunction : ∀ s,
    (r.perform (.function s)).1 = .function (latest (functionUnder s.name) history)
  /-- Registering a constant answers with its last value. -/
  replacedConstant : ∀ name value,
    (r.perform (.constant name value)).1 = .constant (latest (constantUnder name) history)

/-! ### Checking an operator -/

/-- A symbol passes its check if it has characters and may have all of them. -/
theorem symbol_passes_iff {cs : List Char} :
    (cs.isEmpty || !cs.all Registry.isSymbolChar) = false ↔
      cs ≠ [] ∧ cs.all Registry.isSymbolChar = true := by
  simp only [Bool.or_eq_false_iff, List.isEmpty_eq_false_iff, Bool.not_eq_false']

/-- An operator is added if it is allowed, and it is put under its symbol. -/
theorem Registry.addOperator_eq_ok_iff {r b : Registry} {o : Operator} :
    r.addOperator o = .ok b ↔ o.Allowed o.symbol ∧ b = r.putOperator o := by
  constructor
  · intro h
    have hadded := allowed_of_addOperator h
    exact ⟨hadded.2, hadded.1⟩
  · intro h
    have hallowed : o.Allowed o.symbol := h.1
    have hpasses := symbol_passes_iff.mpr ⟨hallowed.nonempty, hallowed.chars⟩
    simp only [addOperator, hpasses, hallowed.fixed, hallowed.arity, h.2, Bool.false_eq_true,
      if_false, if_true]

/-- An operator is refused for the first rule that it breaks. -/
theorem Registry.addOperator_eq_error_iff {r : Registry} {o : Operator} {e : OperatorError} :
    r.addOperator o = .error e ↔ o.Breaks e := by
  constructor
  · intro h
    unfold addOperator at h
    split at h
    next hsymbol =>
      cases h
      simp only [Bool.or_eq_true, List.isEmpty_iff, Bool.not_eq_true'] at hsymbol
      exact .symbol hsymbol
    next hsymbol =>
      have hpasses := symbol_passes_iff.mp (eq_false_of_ne_true hsymbol)
      split at h
      next hvariadic =>
        cases h
        exact .variadic hpasses.1 hpasses.2 hvariadic
      next hfixed =>
        split at h
        next harity => cases h
        next harity =>
          cases h
          exact .arity hpasses.1 hpasses.2 (eq_false_of_ne_true hfixed) (not_or.mp harity)
  · intro h
    cases h with
    | symbol bad =>
      have hfails : (o.symbol.toList.isEmpty || !o.symbol.toList.all isSymbolChar) = true := by
        simpa only [Bool.or_eq_true, List.isEmpty_iff, Bool.not_eq_true'] using bad
      rw [addOperator, if_pos hfails]
    | variadic nonempty chars variadic =>
      have hpasses := symbol_passes_iff.mpr ⟨nonempty, chars⟩
      simp only [addOperator, hpasses, variadic, Bool.false_eq_true, if_false, if_true]
    | arity nonempty chars fixed arity =>
      have hpasses := symbol_passes_iff.mpr ⟨nonempty, chars⟩
      simp only [addOperator, hpasses, fixed, arity.1, arity.2, or_self, Bool.false_eq_true,
        if_false]

/-! ### One registration -/

section

variable {r : Registry}

/-- An allowed operator is put under its symbol. -/
theorem Registry.perform_of_allowed {o : Operator} (h : o.Allowed o.symbol) :
    r.perform (.operator o) = (.operator none, r.putOperator o) := by
  rw [perform, addOperator_eq_ok_iff.mpr ⟨h, rfl⟩]

/-- An operator that breaks a rule is refused for it, and the registry stays as it is. -/
theorem Registry.perform_of_breaks {o : Operator} {e : OperatorError} (h : o.Breaks e) :
    r.perform (.operator o) = (.operator (some e), r) := by
  rw [perform, addOperator_eq_error_iff.mpr h]

/-- An operator is allowed or breaks a rule. -/
theorem Operator.allowed_or_breaks (o : Operator) : o.Allowed o.symbol ∨ ∃ e, o.Breaks e := by
  cases h : Registry.empty.addOperator o with
  | ok b => exact .inl (Registry.addOperator_eq_ok_iff.mp h).1
  | error e => exact .inr ⟨e, Registry.addOperator_eq_error_iff.mp h⟩

/-- It does not do both. -/
theorem Operator.Allowed.not_breaks {o : Operator} (h : o.Allowed o.symbol) {e : OperatorError} :
    ¬ o.Breaks e := by
  intro hbreaks
  have hanswers := (Registry.perform_of_allowed (r := .empty) h).symm.trans
    (Registry.perform_of_breaks hbreaks)
  cases hanswers

/-- The function of a name behind a registration is the one that it lists, or the one before. -/
theorem Registry.function?_perform (r : Registry) (registration : Registration) (name : String) :
    (r.perform registration).2.function? name =
      (functionUnder name registration).or (r.function? name) := by
  cases registration with
  | function s =>
    by_cases hname : s.name = name <;> simp [functionUnder, perform, hname]
  | constant other value => rfl
  | operator o =>
    rcases o.allowed_or_breaks with h | ⟨e, h⟩
    · rw [perform_of_allowed h]; rfl
    · rw [perform_of_breaks h]; rfl

/-- The value of a constant behind a registration is the one that it lists, or the one before. -/
theorem Registry.constant?_perform (r : Registry) (registration : Registration) (name : String) :
    (r.perform registration).2.constant? name =
      (constantUnder name registration).or (r.constant? name) := by
  cases registration with
  | function s => rfl
  | constant other value =>
    by_cases hname : other = name <;> simp [constantUnder, perform, hname]
  | operator o =>
    rcases o.allowed_or_breaks with h | ⟨e, h⟩
    · rw [perform_of_allowed h]; rfl
    · rw [perform_of_breaks h]; rfl

/-- The operator of a symbol behind a registration is the one that it lists, or the one before. -/
theorem Registry.operator?_perform (r : Registry) (registration : Registration)
    (symbol : String) :
    (r.perform registration).2.operator? symbol =
      (operatorUnder symbol registration).or (r.operator? symbol) := by
  cases registration with
  | function s => rfl
  | constant name value => rfl
  | operator o =>
    rcases o.allowed_or_breaks with h | ⟨e, h⟩
    · rw [perform_of_allowed h, operatorUnder]
      by_cases hsymbol : o.symbol = symbol
      · have hthere : o.Allowed symbol := hsymbol ▸ h
        simp [hsymbol, hthere]
      · have hnot : ¬ o.Allowed symbol := fun hother => hsymbol hother.symbol_eq
        simp [hsymbol, hnot]
    · have hnot : ¬ o.Allowed symbol := by
        intro hallowed
        have hsymbol : o.symbol = symbol := hallowed.symbol_eq
        rw [← hsymbol] at hallowed
        exact hallowed.not_breaks h
      rw [perform_of_breaks h, operatorUnder, if_neg hnot, Option.none_or]

end

/-! ### Several registrations -/

/-- The last registration comes first. -/
theorem latest_concat {α : Type} (entry : Registration → Option α) (history : List Registration)
    (registration : Registration) :
    latest entry (history ++ [registration]) = (entry registration).or (latest entry history) := by
  rw [latest, List.reverse_append, List.reverse_singleton, List.singleton_append,
    List.findSome?_cons]
  cases entry registration <;> rfl

/-- One more registration is carried out behind the others. -/
theorem Registry.performAll_concat (r : Registry) (history : List Registration)
    (registration : Registration) :
    r.performAll (history ++ [registration]) = ((r.performAll history).perform registration).2 := by
  rw [performAll, List.foldl_append]
  rfl

/-- What a lookup yields behind registrations is the entry of the last one that has one, or what
it yielded before, if that holds of every single one. -/
theorem Registry.lookup_performAll {α : Type} (lookup : Registry → Option α)
    (entry : Registration → Option α)
    (step : ∀ r registration,
      lookup (r.perform registration).2 = (entry registration).or (lookup r))
    (r : Registry) (history : List Registration) :
    lookup (r.performAll history) = (latest entry history).or (lookup r) := by
  induction history using List.reverseRecOn with
  | nil => rfl
  | append_singleton history registration ih =>
    rw [performAll_concat, step, ih, latest_concat, Option.or_assoc]

/-- A host can build the registries that come from registrations, and no others. -/
theorem Registry.reachable_iff {r : Registry} :
    r.Reachable ↔
      ∃ history,
        r = Registry.empty.performAll history ∨ r = Registry.builtin.performAll history := by
  constructor
  · intro h
    have hfurther : ∀ {r b : Registry} (registration : Registration),
        (r.perform registration).2 = b →
        (∃ history, r = Registry.empty.performAll history ∨
          r = Registry.builtin.performAll history) →
        ∃ history, b = Registry.empty.performAll history ∨
          b = Registry.builtin.performAll history := by
      intro r b registration hperform hhistory
      obtain ⟨history, hempty | hbuiltin⟩ := hhistory
      · refine ⟨history ++ [registration], .inl ?_⟩
        rw [performAll_concat, ← hempty, hperform]
      · refine ⟨history ++ [registration], .inr ?_⟩
        rw [performAll_concat, ← hbuiltin, hperform]
    induction h with
    | empty => exact ⟨[], .inl rfl⟩
    | builtin => exact ⟨[], .inr rfl⟩
    | addFunction before s ih => exact hfurther (.function s) rfl ih
    | addConstant before name value ih => exact hfurther (.constant name value) rfl ih
    | @addOperator r b before o checked ih =>
      have hperform : (r.perform (.operator o)).2 = b := by rw [perform, checked]
      exact hfurther (.operator o) hperform ih
  · have hrun : ∀ {r : Registry}, r.Reachable → ∀ history, (r.performAll history).Reachable := by
      intro r h history
      induction history using List.reverseRecOn with
      | nil => exact h
      | append_singleton history registration ih =>
        rw [performAll_concat]
        cases registration with
        | function s => exact ih.addFunction s
        | constant name value => exact ih.addConstant name value
        | operator o =>
          rcases o.allowed_or_breaks with hallowed | ⟨e, hbreaks⟩
          · rw [perform_of_allowed hallowed]
            exact ih.addOperator o (addOperator_eq_ok_iff.mpr ⟨hallowed, rfl⟩)
          · rw [perform_of_breaks hbreaks]
            exact ih
    intro h
    obtain ⟨history, hempty | hbuiltin⟩ := h
    · rw [hempty]
      exact hrun .empty history
    · rw [hbuiltin]
      exact hrun .builtin history

/-! ### The standard registry -/

/-- A map with the bindings of a list, of which a later one wins. -/
def NameMap.insertAll {α : Type} (map : NameMap α) (bindings : List (String × α)) : NameMap α :=
  bindings.foldl (fun map binding => map.insert binding.1 binding.2) map

/-- Functions are listed in their order. -/
theorem Registry.performAll_functions (r : Registry) (functions : List Signature) :
    r.performAll (functions.map .function) =
      { r with functions := r.functions.insertAll (functions.map fun s => (s.name, s)) } := by
  induction functions generalizing r with
  | nil => rfl
  | cons s functions ih => exact ih (r.addFunction s)

/-- Constants are listed in their order. -/
theorem Registry.performAll_constants (r : Registry) (constants : List (String × Float)) :
    r.performAll (constants.map fun binding => .constant binding.1 binding.2) =
      { r with constants := r.constants.insertAll constants } := by
  induction constants generalizing r with
  | nil => rfl
  | cons binding constants ih => exact ih (r.addConstant binding.1 binding.2)

/-- Allowed operators are listed in their order. -/
theorem Registry.performAll_operators (r : Registry) (operators : List Operator)
    (h : ∀ o ∈ operators, o.Allowed o.symbol) :
    r.performAll (operators.map .operator) =
      { r with operators := r.operators.insertAll (operators.map fun o => (o.symbol, o)) } := by
  induction operators generalizing r with
  | nil => rfl
  | cons o operators ih =>
    have hfirst : (r.perform (.operator o)).2 = r.putOperator o := by
      rw [perform_of_allowed (h o List.mem_cons_self)]
    have hrest := ih (r.putOperator o) fun other ho => h other (List.mem_cons_of_mem o ho)
    rw [List.map_cons, performAll, List.foldl_cons, hfirst]
    exact hrest

/-- The standard registry is what the registrations of its entries make of the empty one, none of
which is refused. -/
theorem Registry.builtin_eq :
    Registry.builtin = Registry.empty.performAll Builtin.registrations := by
  rw [Builtin.registrations, performAll, List.foldl_append, List.foldl_append, ← performAll,
    ← performAll, ← performAll, performAll_functions,
    performAll_operators _ _ Builtin.operators_allowed, performAll_constants]
  rfl

/-! ### Histories -/

/-- What a registry holds behind registrations from the empty one on. -/
theorem Registry.records_performAll (history : List Registration) :
    (Registry.empty.performAll history).Records history := by
  have hreachable : (Registry.empty.performAll history).Reachable :=
    reachable_iff.mpr ⟨history, .inl rfl⟩
  have hoperator : ∀ symbol, (Registry.empty.performAll history).operator? symbol =
      latest (operatorUnder symbol) history := by
    intro symbol
    have hlookup := lookup_performAll (fun r => r.operator? symbol) (operatorUnder symbol)
      (fun r registration => r.operator?_perform registration symbol) .empty history
    have hnone : Registry.empty.operator? symbol = none := Std.ExtTreeMap.getElem?_empty
    rw [hlookup, hnone, Option.or_none]
  have hfunction : ∀ name, (Registry.empty.performAll history).function? name =
      latest (functionUnder name) history := by
    intro name
    have hlookup := lookup_performAll (fun r => r.function? name) (functionUnder name)
      (fun r registration => r.function?_perform registration name) .empty history
    have hnone : Registry.empty.function? name = none := Std.ExtTreeMap.getElem?_empty
    rw [hlookup, hnone, Option.or_none]
  have hconstant : ∀ name, (Registry.empty.performAll history).constant? name =
      latest (constantUnder name) history := by
    intro name
    have hlookup := lookup_performAll (fun r => r.constant? name) (constantUnder name)
      (fun r registration => r.constant?_perform registration name) .empty history
    have hnone : Registry.empty.constant? name = none := Std.ExtTreeMap.getElem?_empty
    rw [hlookup, hnone, Option.or_none]
  refine ⟨fun symbol o ho => hreachable.allowed ho, fun name s hs => ?_, hoperator, hfunction,
    hconstant, fun s => ?_, fun name value => ?_⟩
  · rw [hfunction, latest] at hs
    obtain ⟨registration, -, hentry⟩ := List.exists_of_findSome?_eq_some hs
    unfold functionUnder at hentry
    split at hentry
    · split at hentry
      next hname =>
        cases hentry
        exact hname
      · cases hentry
    · cases hentry
    · cases hentry
  · rw [perform, hfunction]
  · rw [perform, hconstant]

/-- A registry behind any registrations, of which it may have refused some, from the empty
registry or the standard one on. Every operator is listed under its own symbol, which is not empty
and consists of characters that a symbol may have, and takes one operand or two and no further
ones; every function is listed under its own name; and a lookup yields the entry that was last
registered there and not refused. An operator is refused exactly for the first rule that it
breaks, whatever the registry holds, and then the registry stays as it is; one that breaks no rule
is taken. -/
theorem Registry.performAll_records (history : List Registration) :
    (Registry.empty.performAll history).Records history ∧
    (Registry.builtin.performAll history).Records (Builtin.registrations ++ history) ∧
    ∀ (r : Registry) (o : Operator),
      (∀ e, (r.perform (.operator o)).1 = .operator (some e) ↔ o.Breaks e) ∧
      (∀ e, o.Breaks e → (r.perform (.operator o)).2 = r) ∧
      ((r.perform (.operator o)).1 = .operator none ↔ o.Allowed o.symbol) := by
  refine ⟨records_performAll history, ?_, fun r o => ?_⟩
  · have hstart : Registry.builtin.performAll history =
        Registry.empty.performAll (Builtin.registrations ++ history) := by
      rw [builtin_eq, performAll, performAll, performAll, List.foldl_append]
    rw [hstart]
    exact records_performAll (Builtin.registrations ++ history)
  · rcases o.allowed_or_breaks with h | ⟨e, h⟩
    · rw [perform_of_allowed h]
      refine ⟨fun e => ⟨fun hanswer => ?_, fun hbreaks => absurd hbreaks h.not_breaks⟩,
        fun e hbreaks => absurd hbreaks h.not_breaks, fun _ => h, fun _ => rfl⟩
      cases hanswer
    · rw [perform_of_breaks h]
      refine ⟨fun other => ⟨fun hanswer => ?_, fun hother => ?_⟩, fun _ _ => rfl,
        fun hanswer => ?_, fun hallowed => absurd h hallowed.not_breaks⟩
      · cases hanswer
        exact h
      · have hsame := (perform_of_breaks (r := r) h).symm.trans (perform_of_breaks hother)
        exact congrArg Prod.fst hsame
      · cases hanswer

/-- A constant that is registered anew, and an operator that is refused for a letter in its
symbol although it takes three operands as well. -/
theorem Registry.performAll_records_refused :
    let choice : Signature := ⟨"choice", 3, false, fun _ => .ok (.number 0)⟩
    (Registry.builtin.performAll [.constant "pi" 3]).constant? "pi" = some 3 ∧
      Operator.Breaks ⟨"<x", 1, choice⟩ (.invalidSymbol "<x") ∧
      Registry.builtin.perform (.operator ⟨"<x", 1, choice⟩) =
        (.operator (some (.invalidSymbol "<x")), .builtin) := by
  intro choice
  have hconstant := (performAll_records [.constant "pi" 3]).2.1.latestConstant "pi"
  have hletter : "<x".toList.all isSymbolChar = false := by decide
  have hbreaks : Operator.Breaks ⟨"<x", 1, choice⟩ (.invalidSymbol "<x") := .symbol (.inr hletter)
  obtain ⟨hanswers, hstays, -⟩ := (performAll_records []).2.2 .builtin ⟨"<x", 1, choice⟩
  exact ⟨hconstant.trans rfl, hbreaks,
    Prod.ext ((hanswers _).mpr hbreaks) (hstays _ hbreaks)⟩

end GateFormula
