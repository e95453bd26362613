import GateFormula.Builtin

/-!
# Registries that a host can build

A host starts from the empty registry or the standard one and adds functions, constants
and operators. Whatever it adds, every operator is listed under its own symbol, has a
symbol of characters that no name or grouping has, and takes one operand or two and no
further ones.
-/

namespace GateFormula

/-- The registries that a host can build. -/
inductive Registry.Reachable : Registry → Prop where
  /-- Nothing is there yet. -/
  | empty : Reachable .empty
  /-- The standard registry. -/
  | builtin : Reachable .builtin
  /-- A function more. -/
  | addFunction {r} (before : Reachable r) (s : Signature) : Reachable (r.addFunction s)
  /-- A constant more. -/
  | addConstant {r} (before : Reachable r) (name : String) (value : Float) :
      Reachable (r.addConstant name value)
  /-- An operator more, which has been checked. -/
  | addOperator {r b} (before : Reachable r) (o : Operator) (checked : r.addOperator o = .ok b) :
      Reachable b

/-- An operator that may be listed under a symbol. -/
structure Operator.Allowed (symbol : String) (o : Operator) : Prop where
  /-- It is its own symbol. -/
  symbol_eq : o.symbol = symbol
  /-- The symbol is not empty. -/
  nonempty : o.symbol.toList ≠ []
  /-- It consists of characters that a symbol may have. -/
  chars : o.symbol.toList.all Registry.isSymbolChar = true
  /-- It takes one operand or two. -/
  arity : o.function.arity = 1 ∨ o.function.arity = 2
  /-- It takes no further ones. -/
  fixed : o.function.variadic = false

/-- An allowed operator that stands before its operand takes just it. -/
theorem Operator.Allowed.accepts_one {symbol : String} {o : Operator} (h : o.Allowed symbol)
    (hu : o.isUnary = true) : o.function.accepts 1 = true := by
  have ha : o.function.arity = 1 := of_decide_eq_true hu
  rw [Signature.accepts, h.fixed, if_neg Bool.false_ne_true, ha]
  rfl

/-- Any other takes just two operands. -/
theorem Operator.Allowed.accepts_two {symbol : String} {o : Operator} (h : o.Allowed symbol)
    (hu : o.isUnary = false) : o.function.accepts 2 = true := by
  have ha : o.function.arity = 2 := h.arity.resolve_left (of_decide_eq_false hu)
  rw [Signature.accepts, h.fixed, if_neg Bool.false_ne_true, ha]
  rfl

/-- What a map of bindings holds is one of the bindings. -/
theorem mem_of_ofBindings {α : Type} {bindings : List (String × α)} {name : String} {value : α}
    (h : (NameMap.ofBindings bindings)[name]? = some value) : (name, value) ∈ bindings := by
  have hfold : ∀ (rest : List (String × α)) (map : NameMap α),
      (rest.foldl (fun map binding => map.insert binding.1 binding.2) map)[name]? = some value →
        (name, value) ∈ rest ∨ map[name]? = some value := by
    intro rest
    induction rest with
    | nil => exact fun _ h => .inr h
    | cons binding rest ih =>
      intro map h
      rcases ih _ h with hmem | hmap
      · exact .inl (List.mem_cons_of_mem _ hmem)
      · rw [Std.ExtTreeMap.getElem?_insert] at hmap
        split at hmap
        next heq =>
          cases hmap
          have hname := Std.LawfulEqCmp.eq_of_compare heq
          exact .inl (List.mem_cons.mpr (.inl (Prod.ext hname.symm rfl)))
        · exact .inr hmap
  rcases hfold bindings ∅ h with hmem | hnone
  · exact hmem
  · rw [Std.ExtTreeMap.getElem?_empty] at hnone
    cases hnone

/-- A checked operator is allowed, and nothing else in the registry has changed. -/
theorem Registry.allowed_of_addOperator {r b : Registry} {o : Operator}
    (h : r.addOperator o = .ok b) : b = r.putOperator o ∧ o.Allowed o.symbol := by
  unfold addOperator at h
  split at h
  · cases h
  next hs =>
    split at h
    · cases h
    next hv =>
      split at h
      next ha =>
        cases h
        simp only [Bool.or_eq_true, Bool.not_eq_true', not_or, List.isEmpty_iff,
          Bool.not_eq_false] at hs
        exact ⟨rfl, rfl, hs.1, hs.2, ha, eq_false_of_ne_true hv⟩
      · cases h

/-- The standard operators are allowed. -/
theorem Builtin.operators_allowed : ∀ o ∈ Builtin.operators, o.Allowed o.symbol := by
  intro o ho
  simp only [Builtin.operators, List.mem_cons, List.not_mem_nil, or_false] at ho
  rcases ho with rfl | rfl | rfl | rfl | rfl | rfl | rfl | rfl | rfl | rfl | rfl | rfl | rfl |
    rfl | rfl
  all_goals exact ⟨rfl, by decide, by decide, by decide, rfl⟩

/-- A function that is added is found under its name, and every other one as before. -/
@[simp] theorem Registry.function?_addFunction (r : Registry) (f : Signature) (name : String) :
    (r.addFunction f).function? name = if f.name = name then some f else r.function? name := by
  simp only [function?, addFunction, Std.ExtTreeMap.getElem?_insert, Std.compare_eq_iff_eq]

/-- A constant that is added is found under its name, and every other one as before. -/
@[simp] theorem Registry.constant?_addConstant (r : Registry) (added : String) (value : Float)
    (name : String) :
    (r.addConstant added value).constant? name =
      if added = name then some value else r.constant? name := by
  simp only [constant?, addConstant, Std.ExtTreeMap.getElem?_insert, Std.compare_eq_iff_eq]

/-- Where a constant is added every other name means what it meant before. -/
theorem Registry.constant?_addConstant_of_ne (r : Registry) {added name : String} (value : Float)
    (h : added ≠ name) : (r.addConstant added value).constant? name = r.constant? name := by
  simp [h]

/-- An operator that is put into a registry is found under its symbol, and every other one as
before. -/
@[simp] theorem Registry.operator?_putOperator (r : Registry) (o : Operator) (symbol : String) :
    (r.putOperator o).operator? symbol =
      if o.symbol = symbol then some o else r.operator? symbol := by
  simp only [operator?, putOperator, Std.ExtTreeMap.getElem?_insert, Std.compare_eq_iff_eq]

/-- A text starts a symbol if it is a prefix of the symbol of some operator. -/
theorem Registry.hasOperatorStarting_iff {r : Registry} {start : List Char} :
    r.hasOperatorStarting start = true ↔
      ∃ symbol, (r.operator? symbol).isSome = true ∧ start <+: symbol.toList := by
  have hlisted : ∀ symbol,
      symbol ∈ r.operators.keys ↔ (r.operator? symbol).isSome = true := by
    intro symbol
    rw [Std.ExtTreeMap.mem_keys, Std.ExtTreeMap.mem_iff_isSome_getElem?]
    rfl
  simp only [hasOperatorStarting, List.any_eq_true, hlisted, List.isPrefixOf_iff_prefix]

/-- Every operator of a registry that a host can build is allowed. -/
theorem Registry.Reachable.allowed {r : Registry} (h : r.Reachable) {symbol : String}
    {o : Operator} (ho : r.operator? symbol = some o) : o.Allowed symbol := by
  induction h with
  | empty =>
    change (∅ : NameMap Operator)[symbol]? = some o at ho
    rw [Std.ExtTreeMap.getElem?_empty] at ho
    cases ho
  | builtin =>
    have hmem := mem_of_ofBindings ho
    obtain ⟨p, hp, he⟩ := List.mem_map.mp hmem
    cases he
    exact Builtin.operators_allowed _ hp
  | addFunction before s ih => exact ih ho
  | addConstant before name value ih => exact ih ho
  | addOperator before p checked ih =>
    obtain ⟨rfl, hp⟩ := allowed_of_addOperator checked
    rw [operator?_putOperator] at ho
    split at ho
    next heq =>
      cases ho
      exact heq ▸ hp
    · exact ih ho

/-- The characters of a registered symbol. -/
theorem Registry.Reachable.symbol_chars {r : Registry} (h : r.Reachable) {symbol : String}
    {o : Operator} (ho : r.operator? symbol = some o) :
    symbol.toList ≠ [] ∧ ∀ c ∈ symbol.toList, isSymbolChar c = true := by
  have hallowed : o.Allowed symbol := h.allowed ho
  rw [← hallowed.symbol_eq]
  exact ⟨hallowed.nonempty, List.all_eq_true.mp hallowed.chars⟩

/-- A character with which a symbol starts is one that a symbol may have. -/
theorem Registry.Reachable.isSymbolChar_of_startsOperator {r : Registry} (h : r.Reachable)
    {c : Char} (hc : r.startsOperator c = true) : isSymbolChar c = true := by
  obtain ⟨symbol, hsome, hfront⟩ := hasOperatorStarting_iff.mp hc
  obtain ⟨o, ho⟩ := Option.isSome_iff_exists.mp hsome
  have hmem : c ∈ symbol.toList := hfront.subset (List.mem_singleton_self c)
  exact (h.symbol_chars ho).2 c hmem

/-- A character of a class is none outside it. -/
theorem ne_of_charClass {p : Char → Bool} {c d : Char} (h : p c = true) (hd : p d = false) :
    c ≠ d := by
  rintro rfl
  rw [h] at hd
  cases hd

end GateFormula
