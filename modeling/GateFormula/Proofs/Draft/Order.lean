import GateFormula.Proofs.Draft

/-!
# Drafts keep the order of operators

Every tree in a draft is ordered, and the operators that wait in a layer bind less
tightly the longer they wait. `Moves.ordered` carries this through any row of tokens
before the end of a text; `Moves.formula` reads off it that a draft which takes the end
is a single ordered formula.
-/

namespace GateFormula

open Draft Formula

/-! ### Rows of tokens -/

/-- Taking a row of tokens, one successful step after another. -/
inductive Draft.Moves (registry : Registry) : Draft → List Located → Draft → Prop where
  /-- No token. -/
  | nil {d} : Moves registry d [] d
  /-- A token and further ones. -/
  | cons {d c b located row} (first : Move registry d located c) (rest : Moves registry c row b) :
      Moves registry d (located :: row) b

/-- One row after another. -/
theorem Draft.Moves.append {registry : Registry} {d c b : Draft} {xs ys : List Located}
    (hx : Moves registry d xs c) (hy : Moves registry c ys b) : Moves registry d (xs ++ ys) b := by
  induction hx with
  | nil => exact hy
  | cons first _ ih => exact .cons first (ih hy)

/-- A single token. -/
theorem Draft.Move.moves {registry : Registry} {d b : Draft} {located : Located}
    (h : Move registry d located b) : Moves registry d [located] b :=
  .cons h .nil

/-- A row of tokens leads to one draft. -/
theorem Draft.Moves.unique {registry : Registry} {d b c : Draft} {row : List Located}
    (hb : Moves registry d row b) (hc : Moves registry d row c) : b = c := by
  induction hb with
  | nil => cases hc; rfl
  | cons first _ ih =>
    cases hc with
    | cons second rest =>
      have he := (take_eq_ok_iff.mpr first).symm.trans (take_eq_ok_iff.mpr second)
      cases he
      exact ih rest

/-- A draft holds the tokens of a row behind those it held before. -/
theorem Draft.Moves.tokens {registry : Registry} {d b : Draft} {row : List Located}
    (h : Moves registry d row b) (unfinished : ∀ located ∈ row, located.token ≠ .finish) :
    b.tokens = d.tokens ++ row.map Located.token := by
  induction h with
  | nil => rw [List.map_nil, List.append_nil]
  | cons first _ ih =>
    rw [ih fun x hx => unfinished x (List.mem_cons_of_mem _ hx),
      first.tokens (unfinished _ List.mem_cons_self), List.map_cons, List.append_assoc,
      List.singleton_append]

/-! ### Ordered layers -/

/-- A left operand that fits its operator. -/
structure FitsLeft (registry : Registry) (left : Formula × String) : Prop where
  /-- The operator stands between operands. -/
  binary : isBinary registry left.2 = true
  /-- The operand may stand to its left. -/
  fits : left.1.fitsLeft registry (rankOf registry left.2) = true
  /-- The operand is ordered. -/
  ordered : left.1.isOrdered registry = true

/-- What a layer keeps while it is open. -/
structure Layer.Ordered (registry : Registry) (l : Layer) : Prop where
  /-- Every complete argument is ordered. -/
  operands : ∀ f ∈ l.operands, f.isOrdered registry = true
  /-- Every left operand fits its operator. -/
  lefts : ∀ left ∈ l.lefts, FitsLeft registry left
  /-- An operator binds less tightly than those that came after it. -/
  descending : l.lefts.Pairwise fun a b => rankOf registry a.2 < rankOf registry b.2

/-- What the end of a layer keeps. -/
def Focus.Ordered (registry : Registry) : Focus → Prop
  | .awaiting us | .callee us _ => ∀ symbol ∈ us, isUnary registry symbol = true
  | .filled f => f.isOrdered registry = true ∧ f.topmost? = none

/-- The outermost layer is the whole formula. -/
def Rooted : Layer → List (Layer × List String) → Prop
  | l, [] => l.kind = .root
  | _, (l, _) :: ls => Rooted l ls

/-- What a draft keeps from token to token. -/
structure Draft.Ordered (registry : Registry) (d : Draft) : Prop where
  /-- The innermost layer is ordered. -/
  current : d.current.Ordered registry
  /-- So is its end. -/
  focus : d.focus.Ordered registry
  /-- The layers around it are ordered, and their ends with them. -/
  enclosing : ∀ outer ∈ d.enclosing,
    outer.1.Ordered registry ∧ ∀ symbol ∈ outer.2, isUnary registry symbol = true
  /-- The outermost layer is the whole formula. -/
  rooted : Rooted d.current d.enclosing

/-- A formula with no outermost operator between operands fits everywhere. -/
theorem fits_of_topmost {registry : Registry} {f : Formula} (h : f.topmost? = none) (rank : Nat) :
    f.fitsLeft registry rank = true ∧ f.fitsRight registry rank = true := by
  simp only [Formula.fitsLeft, Formula.fitsRight, h, Option.all_none, and_self]

/-- The outermost operator of a formula to the left of another binds at least as tightly. -/
theorem rank_le_of_fitsLeft {registry : Registry} {f : Formula} {rank : Nat} {top : String}
    (h : f.fitsLeft registry rank = true) (ht : f.topmost? = some top) :
    rankOf registry top ≤ rank := by
  simpa only [Formula.fitsLeft, ht, Option.all_some, decide_eq_true_eq] using h

/-- The outermost operator of a formula to the right of another binds more tightly. -/
theorem rank_lt_of_fitsRight {registry : Registry} {f : Formula} {rank : Nat} {top : String}
    (h : f.fitsRight registry rank = true) (ht : f.topmost? = some top) :
    rankOf registry top < rank := by
  simpa only [Formula.fitsRight, ht, Option.all_some, decide_eq_true_eq] using h

/-- Operators of one operand leave an ordered formula ordered. -/
theorem wrap_ordered {registry : Registry} {us : List String} {f : Formula}
    (hu : ∀ symbol ∈ us, isUnary registry symbol = true) (hf : f.isOrdered registry = true)
    (ht : f.topmost? = none) :
    (f.wrap us).isOrdered registry = true ∧ (f.wrap us).topmost? = none := by
  induction us generalizing f with
  | nil => exact ⟨hf, ht⟩
  | cons symbol us ih =>
    apply ih (f := .unary symbol f) fun s hs => hu s (List.mem_cons_of_mem _ hs)
    · simp only [isOrdered, hu symbol List.mem_cons_self, ht, hf, Option.isNone_none,
        Bool.and_self]
    · rfl

/-- Joining waiting operators of falling tightness to an operand that fits gives an ordered
formula, which fits to the left of whatever binds no more tightly than all of them. -/
theorem join_ordered {registry : Registry} {lefts : List (Formula × String)} {f : Formula}
    (hl : ∀ left ∈ lefts, FitsLeft registry left)
    (hd : lefts.Pairwise fun a b => rankOf registry a.2 < rankOf registry b.2)
    (hf : f.isOrdered registry = true)
    (hr : ∀ left ∈ lefts, f.fitsRight registry (rankOf registry left.2) = true) :
    (f.join lefts).isOrdered registry = true ∧
      ∀ rank, f.fitsLeft registry rank = true →
        (∀ left ∈ lefts, rankOf registry left.2 ≤ rank) →
        (f.join lefts).fitsLeft registry rank = true := by
  induction lefts generalizing f with
  | nil => exact ⟨hf, fun _ h _ => h⟩
  | cons left lefts ih =>
    obtain ⟨hfirst, hrest⟩ := List.pairwise_cons.mp hd
    have hleft := hl left List.mem_cons_self
    have hg : (Formula.binary left.2 left.1 f).isOrdered registry = true := by
      simp only [isOrdered, hleft.binary, hleft.fits, hleft.ordered, hf,
        hr left List.mem_cons_self, Bool.and_self]
    obtain ⟨ho, hfit⟩ := ih (f := .binary left.2 left.1 f)
      (fun x hx => hl x (List.mem_cons_of_mem _ hx)) hrest hg
      (fun x hx => by
        simp only [Formula.fitsRight, topmost?, Option.all_some, decide_eq_true_eq]
        exact hfirst x hx)
    refine ⟨ho, fun rank _ hle => ?_⟩
    apply hfit rank
    · simp only [Formula.fitsLeft, topmost?, Option.all_some, decide_eq_true_eq]
      exact hle left List.mem_cons_self
    · exact fun x hx => hle x (List.mem_cons_of_mem _ hx)

/-- All operators of a layer can be joined to a complete operand. -/
theorem Layer.Ordered.join {registry : Registry} {l : Layer} (h : l.Ordered registry) {f : Formula}
    (hf : f.isOrdered registry = true) (ht : f.topmost? = none) :
    (f.join l.lefts).isOrdered registry = true :=
  (join_ordered h.lefts h.descending hf fun _ _ => (fits_of_topmost ht _).2).1

/-- Where ranks rise, what is left behind the ranks up to a bound lies above the bound. -/
theorem lt_of_mem_dropWhile {α : Type} {rank : α → Nat} {bound : Nat} {xs : List α}
    (h : xs.Pairwise fun x y => rank x < rank y) :
    ∀ x ∈ xs.dropWhile (rank · ≤ bound), bound < rank x := by
  induction xs with
  | nil => simp
  | cons x xs ih =>
    obtain ⟨hfirst, hrest⟩ := List.pairwise_cons.mp h
    by_cases hb : rank x ≤ bound
    · simp only [List.dropWhile_cons, hb, decide_true, if_true]
      exact ih hrest
    · simp only [List.dropWhile_cons, hb, decide_false, Bool.false_eq_true, if_false]
      have hlt : bound < rank x := Nat.lt_of_not_le hb
      intro y hy
      rcases List.mem_cons.mp hy with rfl | hy
      · exact hlt
      · exact Nat.lt_trans hlt (hfirst y hy)

/-- A layer stays ordered when an operator of two operands comes after an operand. -/
theorem Layer.Ordered.extend {registry : Registry} {l : Layer} (h : l.Ordered registry)
    {symbol : String} {f : Formula} (known : isBinary registry symbol = true)
    (hf : f.isOrdered registry = true) (ht : f.topmost? = none) :
    (l.extend registry symbol f).Ordered registry := by
  have hsub : (l.lefts.takeWhile (Layer.bindsBefore registry symbol)).Sublist l.lefts :=
    List.takeWhile_sublist _
  have hjoin := join_ordered (fun x hx => h.lefts x (hsub.mem hx)) (h.descending.sublist hsub) hf
    fun left _ => (fits_of_topmost ht (rankOf registry left.2)).2
  have hfit : (f.join (l.lefts.takeWhile (Layer.bindsBefore registry symbol))).fitsLeft registry
      (rankOf registry symbol) = true := by
    refine hjoin.2 _ (fits_of_topmost ht _).1 fun x hx => ?_
    simpa only [Layer.bindsBefore, decide_eq_true_eq] using
      List.all_eq_true.mp List.all_takeWhile x hx
  have hdrop : (l.lefts.dropWhile (Layer.bindsBefore registry symbol)).Sublist l.lefts :=
    List.dropWhile_sublist _
  refine ⟨h.operands, ?_, ?_⟩
  · intro left hleft
    rcases List.mem_cons.mp hleft with rfl | hx
    · exact ⟨known, hfit, hjoin.1⟩
    · exact h.lefts left (hdrop.mem hx)
  · exact List.pairwise_cons.mpr
      ⟨lt_of_mem_dropWhile h.descending, h.descending.sublist hdrop⟩

/-- A layer that has just been opened is ordered. -/
theorem Layer.Ordered.fresh {registry : Registry} {l : Layer} (hl : l.lefts = [])
    (ho : l.operands = []) : l.Ordered registry := by
  refine ⟨?_, ?_, ?_⟩ <;> simp [hl, ho]

/-- Ordered formulas in a list. -/
theorem areOrdered_iff {registry : Registry} {fs : List Formula} :
    areOrdered registry fs = true ↔ ∀ f ∈ fs, f.isOrdered registry = true := by
  induction fs with
  | nil => simp [areOrdered]
  | cons f fs ih => simp only [areOrdered, Bool.and_eq_true, ih, List.forall_mem_cons]

/-! ### Every row of tokens keeps the order -/

/-- What surrounds the layer that closes: the layer that takes the operand `f` next. -/
theorem Draft.Ordered.closed {registry : Registry} {l outer : Layer} {focus : Focus}
    {us : List String} {ls : List (Layer × List String)} {f : Formula}
    (h : Draft.Ordered registry ⟨l, focus, (outer, us) :: ls⟩)
    (hf : f.isOrdered registry = true) (ht : f.topmost? = none) :
    Draft.Ordered registry ⟨outer, .filled (f.wrap us), ls⟩ := by
  obtain ⟨ho, hu⟩ := h.enclosing _ List.mem_cons_self
  exact ⟨ho, wrap_ordered hu hf ht, fun x hx => h.enclosing x (List.mem_cons_of_mem _ hx),
    h.rooted⟩

/-- A layer that opens leaves the order of those around it. -/
theorem Draft.Ordered.opened {registry : Registry} {l : Layer} {focus : Focus} {us : List String}
    {ls : List (Layer × List String)} (h : Draft.Ordered registry ⟨l, focus, ls⟩)
    (hu : ∀ symbol ∈ us, isUnary registry symbol = true) {kind : LayerKind} (index : Nat)
    (hk : Layer.operands ⟨kind, index, []⟩ = []) :
    Draft.Ordered registry ⟨⟨kind, index, []⟩, .awaiting [], (l, us) :: ls⟩ := by
  refine ⟨.fresh rfl hk, by simp [Focus.Ordered], ?_, h.rooted⟩
  intro outer ho
  rcases List.mem_cons.mp ho with rfl | ho
  · exact ⟨h.current, hu⟩
  · exact h.enclosing outer ho

/-- A successful step keeps a draft ordered. -/
theorem Draft.Move.ordered {registry : Registry} {d b : Draft} {located : Located}
    (h : Move registry d located b) (unfinished : located.token ≠ .finish)
    (hd : d.Ordered registry) : b.Ordered registry := by
  cases h with
  | @leaf l us ls index token f leaf =>
    have hf : f.isOrdered registry = true ∧ f.topmost? = none := by
      cases token <;> simp only [Token.leaf?, Option.some.injEq, reduceCtorEq] at leaf <;>
        rw [← leaf] <;> exact ⟨by rw [isOrdered], rfl⟩
    exact ⟨hd.current, wrap_ordered hd.focus hf.1 hf.2, hd.enclosing, hd.rooted⟩
  | callee => exact ⟨hd.current, hd.focus, hd.enclosing, hd.rooted⟩
  | unary known =>
    exact ⟨hd.current, List.forall_mem_cons.mpr ⟨known, hd.focus⟩, hd.enclosing, hd.rooted⟩
  | @binary l f ls index symbol known =>
    refine ⟨hd.current.extend known hd.focus.1 hd.focus.2, by simp [Focus.Ordered], hd.enclosing,
      ?_⟩
    have hr := hd.rooted
    cases ls <;> exact hr
  | openCall => exact hd.opened hd.focus _ rfl
  | openGroup => exact hd.opened hd.focus _ rfl
  | @comma name operands start lefts f ls index =>
    have hj := hd.current.join hd.focus.1 hd.focus.2
    refine ⟨⟨?_, by simp, by simp⟩, by simp [Focus.Ordered], hd.enclosing, ?_⟩
    · intro g hg
      rcases List.mem_append.mp hg with hg | hg
      · exact hd.current.operands g hg
      · rwa [List.mem_singleton.mp hg]
    · have hr := hd.rooted
      cases ls with
      | nil => cases hr
      | cons outer ls => exact hr
  | closeGroup =>
    refine hd.closed ?_ rfl
    rw [isOrdered]
    exact hd.current.join hd.focus.1 hd.focus.2
  | closeCall =>
    refine hd.closed ?_ rfl
    rw [isOrdered, areOrdered_iff]
    intro g hg
    rcases List.mem_append.mp hg with hg | hg
    · exact hd.current.operands g hg
    · rw [List.mem_singleton.mp hg]
      exact hd.current.join hd.focus.1 hd.focus.2
  | closeBare => exact hd.closed (by rw [isOrdered, areOrdered]) rfl
  | finish => exact absurd rfl unfinished

/-- A row of tokens keeps a draft ordered. -/
theorem Draft.Moves.ordered {registry : Registry} {d b : Draft} {row : List Located}
    (h : Moves registry d row b) (unfinished : ∀ located ∈ row, located.token ≠ .finish)
    (hd : d.Ordered registry) : b.Ordered registry := by
  induction h with
  | nil => exact hd
  | cons first _ ih =>
    exact ih (fun x hx => unfinished x (List.mem_cons_of_mem _ hx))
      (first.ordered (unfinished _ List.mem_cons_self) hd)

/-- The first draft is ordered. -/
theorem Draft.initial_ordered (registry : Registry) : Draft.initial.Ordered registry :=
  ⟨.fresh rfl rfl, by simp [Draft.initial, Focus.Ordered], by simp [Draft.initial], rfl⟩

/-- A text whose end is taken is the text of one ordered formula, which is what the draft has
become. -/
theorem Draft.Moves.formula {registry : Registry} {d b : Draft} {row : List Located}
    {located : Located} (h : Moves registry .initial row d)
    (unfinished : ∀ located ∈ row, located.token ≠ .finish)
    (last : Move registry d located b) (finished : located.token = .finish) :
    ∃ f : Formula, f.isOrdered registry = true ∧ f.tokens = row.map Located.token ∧
      b = ⟨⟨.root, d.current.index, []⟩, .filled f, []⟩ := by
  have hd := h.ordered unfinished (initial_ordered registry)
  have ht := h.tokens unfinished
  cases last with
  | @finish l f index =>
    obtain ⟨kind, start, lefts⟩ := l
    have hk : kind = .root := hd.rooted
    subst hk
    refine ⟨f.join lefts, hd.current.join hd.focus.1 hd.focus.2, ?_, rfl⟩
    rw [join_tokens]
    simpa [Draft.tokens, Draft.initial, layerTokens, Layer.tokens, LayerKind.opening,
      Layer.operands, operandTokens, Focus.tokens, unaryTokens, leftTokens] using ht
  | leaf leaf => cases finished; cases leaf
  | callee | unary | binary | openCall | openGroup | comma | closeGroup | closeCall | closeBare =>
    cases finished

end GateFormula
