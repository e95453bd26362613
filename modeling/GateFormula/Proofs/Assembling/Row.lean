import GateFormula.Proofs.Assembling.Step
import GateFormula.Proofs.Draft.Order
import GateFormula.Proofs.Scanning

/-!
# Rows of tokens on both sides

What one token keeps, a row of tokens keeps: an assembly and a draft that take the same
tokens stay together up to the first error, which is the same on both sides, unless a
hollow group closes before it. A hollow group leaves a problem in its draft, and problems
never vanish, so that none closes on the way to a draft without problems.
-/

namespace GateFormula

open Formula

variable {registry : Registry} {place : Nat → Nat}

/-! ### Places of tokens -/

/-- The tokens of a row stand at the places from the number `n` on. -/
def Placed (place : Nat → Nat) : Nat → List Located → Prop
  | _, [] => True
  | n, located :: row => located.index = place n ∧ Placed place (n + 1) row

/-- A row whose tokens have the right indices is placed. -/
theorem placed_of_getElem? {n : Nat} {row : List Located}
    (h : ∀ i located, row[i]? = some located → located.index = place (n + i)) :
    Placed place n row := by
  induction row generalizing n with
  | nil => trivial
  | cons located row ih =>
    refine ⟨h 0 located rfl, ih fun i x hx => ?_⟩
    rw [Nat.add_assoc, Nat.add_comm 1 i]
    exact h (i + 1) x hx

/-- The index of every token of a scan, and then that of its end. -/
def Scan.indexAt (s : Scan) (n : Nat) : Nat :=
  match s.tokens[n]?, s.ending with
  | some located, _ => located.index
  | none, .ok index => index
  | none, .error error => error.index

/-- The tokens of a scan stand where it says. -/
theorem Scan.placed (s : Scan) : Placed s.indexAt 0 s.tokens := by
  refine placed_of_getElem? fun i located h => ?_
  rw [Scan.indexAt, Nat.zero_add, h]

/-- So does its end. -/
theorem Scan.indexAt_ending {s : Scan} {n : Nat} (h : s.ending = .ok n) :
    n = s.indexAt s.tokens.length := by
  rw [Scan.indexAt, List.getElem?_eq_none (Nat.le_refl _), h]

/-! ### Rows of tokens -/

/-- Taking a row of tokens successfully is moving along it. -/
theorem takeAll_eq_ok_iff {d b : Draft} {row : List Located} :
    takeAll (Draft.take registry) d row = (b, none) ↔ Draft.Moves registry d row b := by
  induction row generalizing d with
  | nil =>
    constructor
    · intro h
      cases h
      exact .nil
    · intro h
      cases h
      rfl
  | cons located row ih =>
    rw [takeAll]
    constructor
    · intro h
      cases hc : d.take registry located with
      | error e => rw [hc] at h; cases h
      | ok c =>
        rw [hc] at h
        exact .cons (Draft.take_eq_ok_iff.mp hc) (ih.mp h)
    · intro h
      cases h with
      | cons first rest =>
        rw [Draft.take_eq_ok_iff.mpr first]
        exact ih.mpr rest

/-- The first hollow group that closes in a row of tokens: the index of its opening
parenthesis. -/
def Draft.hollowGroup? (registry : Registry) : Draft → List Located → Option Nat
  | _, [] => none
  | d, located :: row =>
    if located.token = .closing ∧ d.isHollow registry = true then some d.current.index
    else
      match d.take registry located with
      | .error _ => none
      | .ok b => b.hollowGroup? registry row

/-- Two answers are one error, or an assembly that holds a draft. -/
theorem Answers.cases {x : Except SyntaxError Assembly} {y : Except SyntaxError Draft}
    (h : Answers registry place x y) :
    (∃ e, x = .error e ∧ y = .error e) ∨
      ∃ a d, x = .ok a ∧ y = .ok d ∧ a.Holds registry place d := by
  cases x with
  | error e =>
    cases y with
    | error f => exact .inl ⟨e, rfl, congrArg Except.error (Eq.symm h)⟩
    | ok d => exact h.elim
  | ok a =>
    cases y with
    | error f => exact h.elim
    | ok d => exact .inr ⟨a, d, rfl, rfl, h⟩

/-- The first error of assembling is that of drafting, or else that of the first hollow group,
as if the group were empty. Up to that error an assembly stays at its draft, if no hollow
group closes. -/
theorem takeAll_answers {a : Assembly} {d : Draft} {row : List Located}
    (h : a.Holds registry place d) (hp : Placed place d.tokens.length row)
    (hu : ∀ located ∈ row, located.token ≠ .finish) :
    (takeAll (Assembly.take registry) a row).2 =
        (d.hollowGroup? registry row).elim (takeAll (Draft.take registry) d row).2
          (fun index => some ⟨index, .emptyGroup⟩) ∧
      (d.hollowGroup? registry row = none →
        (takeAll (Assembly.take registry) a row).1.Holds registry place
          (takeAll (Draft.take registry) d row).1) := by
  induction row generalizing a d with
  | nil => exact ⟨rfl, fun _ => h⟩
  | cons located row ih =>
    rw [Draft.hollowGroup?, takeAll, takeAll]
    by_cases hh : located.token = .closing ∧ d.isHollow registry = true
    -- Here assembling ends, wherever drafting goes on.
    · rw [if_pos hh, take_hollow h hh.1 hh.2]
      exact ⟨rfl, fun hn => by cases hn⟩
    · rw [if_neg hh]
      rcases (take_answers h hp.1 hh).cases with ⟨e, ha, hd⟩ | ⟨c, b, ha, hd, hb⟩
      · rw [ha, hd]
        exact ⟨rfl, fun _ => h⟩
      · rw [ha, hd]
        refine ih hb ?_ fun x hx => hu x (List.mem_cons_of_mem _ hx)
        rw [(Draft.take_eq_ok_iff.mp hd).tokens (hu _ List.mem_cons_self), List.length_append]
        exact hp.2

/-! ### Problems never vanish -/

/-- Leaving a layer keeps the problems before those of its last operand. -/
theorem closed_noted {l outer : Layer} {f g : Formula} {us : List String}
    {ls : List (Layer × List String)}
    (h : l.kind.noted registry place (layerTokens ((outer, us) :: ls)).length ++
      notedOf registry place ((layerTokens ((outer, us) :: ls)).length + l.kind.opening.length)
        (l.operands ++ [f.join l.lefts]) <+:
      g.noted registry place (layerTokens ((outer, us) :: ls)).length) :
    Draft.noted registry place ⟨l, .filled f, (outer, us) :: ls⟩ <+:
      Draft.noted registry place ⟨outer, .filled (g.wrap us), ls⟩ := by
  rw [filled_noted]
  simp only [Draft.noted, Focus.noted, wrap_noted, Draft.position, layersNoted]
  rw [layerTokens_length] at h ⊢
  exact (List.prefix_append_right_inj _).mpr h

/-- Taking a token keeps the problems that were noted before. -/
theorem Draft.Move.noted {d b : Draft} {located : Located} (h : Draft.Move registry d located b) :
    d.noted registry place <+: b.noted registry place := by
  cases h with
  | leaf leaf =>
    rw [Draft.noted, Focus.noted, List.append_nil]
    exact List.prefix_append _ _
  | callee =>
    rw [Draft.noted, Focus.noted, List.append_nil]
    exact List.prefix_append _ _
  | unary known => exact List.prefix_rfl
  | @binary l f ls index symbol known =>
    simp only [Draft.noted, Focus.noted, extend_noted, Draft.position, List.append_nil,
      List.append_assoc]
    exact List.prefix_rfl
  | @openCall l us name ls index =>
    simp only [Draft.noted, Focus.noted, layersNoted, Layer.noted, Layer.pieces_nil,
      Layer.operands, LayerKind.noted, layerTokens_length, Draft.position, notedOf,
      List.append_nil]
    exact List.prefix_rfl
  | @openGroup l us ls index =>
    simp only [Draft.noted, Focus.noted, layersNoted, Layer.noted, Layer.pieces_nil,
      Layer.operands, LayerKind.noted, notedOf, List.append_nil]
    exact List.prefix_rfl
  | @comma name operands start lefts f ls index =>
    rw [filled_noted]
    simp only [Draft.noted, Focus.noted, Layer.noted, Layer.pieces_nil, Layer.operands,
      LayerKind.noted, LayerKind.opening, List.append_nil]
    exact List.prefix_rfl
  | @closeGroup start lefts f outer us ls index =>
    refine closed_noted ?_
    simp only [LayerKind.noted, LayerKind.opening, Layer.operands, List.nil_append,
      notedOf_singleton, List.length_singleton, Formula.noted]
    exact List.prefix_rfl
  | @closeCall name operands start lefts f outer us ls index =>
    refine closed_noted ?_
    simp only [LayerKind.noted, LayerKind.opening, Layer.operands, Formula.noted]
    exact List.prefix_append _ _
  | @closeBare name start outer us ls index =>
    simp only [Draft.noted, Focus.noted, layersNoted, Layer.noted, Layer.pieces_nil,
      Layer.operands, LayerKind.noted, Draft.position, wrap_noted, layerTokens_length,
      Formula.noted, notedOf, List.append_nil]
    exact (List.prefix_append_right_inj _).mpr (List.prefix_append _ _)
  | @finish l f index =>
    rw [filled_noted, filled_noted]
    exact List.prefix_rfl

/-- A row of tokens keeps the problems that were noted before. -/
theorem Draft.Moves.noted {d b : Draft} {row : List Located} (h : Draft.Moves registry d row b) :
    d.noted registry place <+: b.noted registry place := by
  induction h with
  | nil => exact List.prefix_rfl
  | cons first _ ih => exact first.noted.trans ih

/-- A hollow group has a problem. -/
theorem noted_of_isHollow {d : Draft} (hd : d.Ordered registry) (h : d.isHollow registry = true) :
    d.noted registry place ≠ [] := by
  obtain ⟨l, focus, ls⟩ := d
  obtain ⟨-, f, rfl, -, hf⟩ := isHollow_iff.mp h
  intro hn
  have hnoted : f.noted registry place (Draft.position ⟨l, .filled f, ls⟩) = [] :=
    (List.append_eq_nil_iff.mp hn).2
  -- Without problems the operand would have a term, and the code of a term is never empty.
  obtain ⟨t, ht⟩ := term_of_noted f hd.focus.1 hnoted
  rw [written_of_term f ht] at hf
  exact code_ne_nil t hf

/-- On the way to a draft without problems no hollow group closes. -/
theorem hollowGroup?_eq_none {d b : Draft} {row : List Located} (hd : d.Ordered registry)
    (h : Draft.Moves registry d row b) (hu : ∀ located ∈ row, located.token ≠ .finish)
    (hn : b.noted registry place = []) : d.hollowGroup? registry row = none := by
  induction h with
  | nil => rfl
  | @cons d c b located row first rest ih =>
    have hnone : d.noted registry place = [] :=
      List.prefix_nil.mp (hn ▸ first.noted.trans rest.noted)
    rw [Draft.hollowGroup?, if_neg fun hh => noted_of_isHollow hd hh.2 hnone,
      Draft.take_eq_ok_iff.mpr first]
    exact ih (first.ordered (hu _ List.mem_cons_self) hd)
      (fun x hx => hu x (List.mem_cons_of_mem _ hx)) hn

/-! ### Whole texts -/

/-- Reading a whole scan, an assembly and a draft stay together, and the first error of one is
that of the other, or else that of the first hollow group. -/
theorem read_answers {a : Assembly} {d : Draft} {s : Scan} (h : a.Holds registry place d)
    (hp : Placed place d.tokens.length s.tokens)
    (he : ∀ n, s.ending = .ok n → n = place (d.tokens.length + s.tokens.length))
    (hu : ∀ located ∈ s.tokens, located.token ≠ .finish) :
    (s.read (Assembly.take registry) a).2 =
        (d.hollowGroup? registry s.tokens).elim (s.read (Draft.take registry) d).2
          (fun index => some ⟨index, .emptyGroup⟩) ∧
      (d.hollowGroup? registry s.tokens = none →
        (s.read (Assembly.take registry) a).1.Holds registry place
          (s.read (Draft.take registry) d).1) := by
  obtain ⟨row, ending⟩ := s
  obtain ⟨hanswer, hholds⟩ := takeAll_answers h hp hu
  cases hh : d.hollowGroup? registry row with
  | some index =>
    rw [hh] at hanswer
    have hr : takeAll (Assembly.take registry) a row =
        ((takeAll (Assembly.take registry) a row).1, some ⟨index, .emptyGroup⟩) :=
      Prod.ext rfl hanswer
    simp only [Scan.read]
    rw [hr]
    exact ⟨rfl, fun hn => by cases hn⟩
  | none =>
    replace hholds := hholds hh
    rw [hh] at hanswer
    simp only [Scan.read]
    generalize takeAll (Assembly.take registry) a row = x at hanswer hholds ⊢
    obtain ⟨c, e⟩ := x
    rcases hy : takeAll (Draft.take registry) d row with ⟨b, f⟩
    rw [hy] at hanswer hholds
    change e = f at hanswer
    subst hanswer
    cases e with
    | some e => exact ⟨rfl, fun _ => hholds⟩
    | none =>
      cases ending with
      | error e => exact ⟨rfl, fun _ => hholds⟩
      | ok n =>
        have hb : b.tokens.length = d.tokens.length + row.length := by
          rw [(takeAll_eq_ok_iff.mp hy).tokens hu, List.length_append, List.length_map]
        have hs : Answers registry place (c.take registry ⟨n, .finish⟩)
            (b.take registry ⟨n, .finish⟩) :=
          take_answers hholds (hb ▸ he n rfl) (fun hc => by cases hc.1)
        rcases hs.cases with ⟨e, ha, hd⟩ | ⟨c, b, ha, hd, hf⟩
        · simp only [ha, hd]
          exact ⟨rfl, fun _ => hholds⟩
        · simp only [ha, hd]
          exact ⟨rfl, fun _ => hf⟩

end GateFormula
