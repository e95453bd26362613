import GateFormula.Builtin
import GateFormula.Proofs.Declaring

/-!
# Compiling in any order

Formulas share a store, and each that is compiled may declare variables in it, before its
end or its first error. `Assembly.runIn` assembles a text with the store at hand and declares
every variable as soon as its token is taken. What comes of the text does not depend on the
store, since the store is only written, and declaring on the way leaves the same store as
declaring all that the text mentions in the end. Declaring keeps what is there and adds zeros,
so that only the set of the names matters. Texts can therefore be compiled in any order and
as often as one likes.
-/

namespace GateFormula

/-- Take a token for a store: a variable that it reads is declared there. -/
def Assembly.takeIn (registry : Registry) (a : Assembly) (store : Store) (located : Located) :
    Except SyntaxError (Assembly × Store) :=
  match a.take registry located with
  | .error error => .error error
  | .ok b =>
    match located.token.reads? registry with
    | some name => .ok (b, store.declare name)
    | none => .ok (b, store)

/-- Scan and assemble for a store from a cursor to the end or to the first error, which is
returned with the state and the store before it. -/
def Assembly.runIn (registry : Registry) (cursor : Cursor) (a : Assembly) (store : Store) :
    Assembly × Store × Option SyntaxError :=
  match _step : cursor.next registry a.expectsOperand with
  | (.error error, _) => (a, store, some error)
  | (.ok located, after) =>
    match a.takeIn registry store located with
    | .error error => (a, store, some error)
    | .ok (b, store) =>
      if _last : located.token = .finish then (b, store, none)
      else Assembly.runIn registry after b store
termination_by cursor.rest.length
decreasing_by exact Cursor.next_shortens _step _last

/-- What a text yields that has been assembled. -/
def Assembly.outcome (source : String) (final : Assembly) (error? : Option SyntaxError) :
    Except Diagnostics Program :=
  match error? with
  | some error => .error ⟨source, .malformed error⟩
  | none =>
    if final.problems.isEmpty then .ok ⟨source, final.code.toList⟩
    else .error ⟨source, .unsupported final.problems.toList⟩

/-- Compile a text for a store in which each variable is declared as soon as it is read. -/
def compileStepwise (registry : Registry) (store : Store) (source : String) :
    Except Diagnostics Program × Store :=
  let (final, store, error?) := Assembly.runIn registry (.start source) .initial store
  (final.outcome source error?, store)

/-- Compile texts one after another for a store: what each of them yields, and the store in
the end. -/
def compileAllIn (registry : Registry) (store : Store) :
    List String → List (Except Diagnostics Program) × Store
  | [] => ([], store)
  | source :: sources =>
    let (result, store) := compileIn registry store source
    let (results, store) := compileAllIn registry store sources
    (result :: results, store)

variable {registry : Registry} {cursor : Cursor}

/-! ### Declaring on the way -/

/-- Assembling for a store, one step at a time. -/
theorem Assembly.runIn_next (a : Assembly) (store : Store) :
    Assembly.runIn registry cursor a store =
      match cursor.next registry a.expectsOperand with
      | (.error error, _) => (a, store, some error)
      | (.ok located, after) =>
        match a.takeIn registry store located with
        | .error error => (a, store, some error)
        | .ok (b, store) =>
          if located.token = .finish then (b, store, none)
          else Assembly.runIn registry after b store := by
  rw [Assembly.runIn]
  split
  next h => rw [h]
  next located after h =>
    simp only [h]
    cases a.takeIn registry store located with
    | error error => rfl
    | ok b => exact dite_eq_ite

/-- A token that is taken leaves a store that has the variables mentioned before with those
mentioned now. -/
theorem takeIn_eq {a b : Assembly} {located : Located} (store : Store)
    (h : a.take registry located = .ok b) :
    a.takeIn registry (store.declareAll a.mentioned.toList) located =
      .ok (b, store.declareAll b.mentioned.toList) := by
  have hmentioned : b.mentioned.toList =
      a.mentioned.toList ++ (located.token.reads? registry).toList := (takes_of_take h).mentioned
  rw [hmentioned, Store.declareAll_append, Assembly.takeIn, h]
  cases located.token.reads? registry <;> rfl

/-- Assembling for a store ends as assembling does, in a store that has the variables
mentioned. -/
theorem runIn_eq {a final : Assembly} {error? : Option SyntaxError} (store : Store)
    (h : Assembly.run registry cursor a = (final, error?)) :
    Assembly.runIn registry cursor a (store.declareAll a.mentioned.toList) =
      (final, store.declareAll final.mentioned.toList, error?) := by
  generalize he : a.expectsOperand = expectOperand
  induction expectOperand, cursor using scan_induction registry generalizing a with
  | error expectOperand cursor e after hs =>
    rw [Assembly.run_next, he, hs] at h
    cases h
    rw [Assembly.runIn_next, he, hs]
  | finish expectOperand cursor located after hs ht =>
    rw [Assembly.run_next, he, hs] at h
    rw [Assembly.runIn_next, he, hs]
    cases hb : a.take registry located with
    | error error =>
      simp only [hb] at h
      cases h
      simp only [Assembly.takeIn, hb]
    | ok b =>
      simp only [hb, ht, if_true] at h
      cases h
      simp only [takeIn_eq store hb, ht, if_true]
  | token expectOperand cursor located after hs ht ih =>
    rw [Assembly.run_next, he, hs] at h
    rw [Assembly.runIn_next, he, hs]
    cases hb : a.take registry located with
    | error error =>
      simp only [hb] at h
      cases h
      simp only [Assembly.takeIn, hb]
    | ok b =>
      simp only [hb, ht, if_false] at h
      simp only [takeIn_eq store hb, ht, if_false]
      exact ih h (Assembly.expectsOperand_of_take hb)

/-- Declaring each variable when it is read comes to the same as declaring them in the end. -/
theorem compileStepwise_eq (registry : Registry) (store : Store) (source : String) :
    compileStepwise registry store source = compileIn registry store source := by
  have hrun : Assembly.runIn registry (.start source) .initial store = _ :=
    runIn_eq (a := .initial) store rfl
  rw [compileStepwise, hrun]
  rfl

/-! ### Several texts -/

/-- Each text yields what it yields by itself. -/
theorem compileAllIn_results (store : Store) (sources : List String) :
    (compileAllIn registry store sources).1 =
      sources.map fun source => (compile registry source).result := by
  induction sources generalizing store with
  | nil => rfl
  | cons source sources ih => exact congrArg (_ :: ·) (ih _)

/-- In the end the variables of all texts are declared. -/
theorem compileAllIn_store (store : Store) (sources : List String) :
    (compileAllIn registry store sources).2 =
      store.declareAll (sources.flatMap fun source => (compile registry source).mentioned) := by
  induction sources generalizing store with
  | nil => rfl
  | cons source sources ih =>
    rw [List.flatMap_cons, Store.declareAll_append]
    exact ih _

/-- What a text yields depends neither on the store, in which its variables may be declared
while it is read, nor on the texts that have been compiled for the store before. Two lists of
the same texts, in whatever order and with whatever repetitions, broken texts among them, leave
the same store. -/
theorem compileAllIn_anyOrder (registry : Registry) (store : Store) {sources others : List String}
    (h : ∀ source, source ∈ sources ↔ source ∈ others) :
    (∀ source, compileStepwise registry store source = compileIn registry store source) ∧
    (∀ (other : Store) (source : String),
      (compileIn registry store source).1 = (compileIn registry other source).1) ∧
    (∀ other : Store,
      (compileAllIn registry store sources).1 =
        sources.map fun source => (compileIn registry other source).1) ∧
    (compileAllIn registry store sources).2 = (compileAllIn registry store others).2 := by
  refine ⟨compileStepwise_eq registry store, fun _ _ => rfl,
    fun _ => compileAllIn_results store sources, ?_⟩
  rw [compileAllIn_store, compileAllIn_store]
  refine store.declareAll_congr fun name => ?_
  simp only [List.mem_flatMap, h]

/-- Two broken texts among three, one of which is compiled twice. -/
theorem compileAllIn_anyOrder_broken :
    (∀ source, source ∈ ["$a$ + 1", "$b$ *", "nope($c$)", "$a$ + 1"] ↔
      source ∈ ["nope($c$)", "$a$ + 1", "$b$ *"]) ∧
    (compileAllIn .builtin .empty ["$a$ + 1", "$b$ *", "nope($c$)", "$a$ + 1"]).1 =
      ["$a$ + 1", "$b$ *", "nope($c$)", "$a$ + 1"].map
        (fun source => (compileIn .builtin (Store.empty.set "b" 2) source).1) ∧
    (compileAllIn .builtin .empty ["$a$ + 1", "$b$ *", "nope($c$)", "$a$ + 1"]).2 =
      (compileAllIn .builtin .empty ["nope($c$)", "$a$ + 1", "$b$ *"]).2 ∧
    (compileAllIn .builtin .empty ["nope($c$)", "$a$ + 1", "$b$ *"]).2.toList.map Prod.fst =
      ["a", "b", "c"] := by
  have h : ∀ source, source ∈ ["$a$ + 1", "$b$ *", "nope($c$)", "$a$ + 1"] ↔
      source ∈ ["nope($c$)", "$a$ + 1", "$b$ *"] := by
    intro source
    simp only [List.mem_cons, List.not_mem_nil, or_false]
    tauto
  obtain ⟨-, -, hresults, hstore⟩ := compileAllIn_anyOrder .builtin .empty h
  exact ⟨h, hresults _, hstore, by decide +kernel⟩

end GateFormula
