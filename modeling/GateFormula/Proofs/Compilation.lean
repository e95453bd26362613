import GateFormula.Proofs.Assembling.Row
import GateFormula.Proofs.Draft.Reading

/-!
# Compiling against the grammar

A text compiles exactly when its tokens are those of an ordered formula whose names the
registry supports, and the program is then the postfix code of the term of that formula.
The formula is the only one with these tokens.
-/

namespace GateFormula

open Formula

/-- The scan of a whole text. -/
def scanOf (registry : Registry) (source : String) : Scan :=
  scan registry true (.start source)

/-- Tokens, the end of the text with them, that an ordered formula has. -/
structure Formula.Yields (registry : Registry) (f : Formula) (tokens : List Located) : Prop where
  /-- Every operator stands where its rank lets it. -/
  ordered : f.isOrdered registry = true
  /-- The tokens are those of the formula and the end. -/
  tokens_eq : tokens.map Located.token = f.tokens ++ [.finish]

variable {registry : Registry}

/-- Tokens are those of at most one formula. -/
theorem Formula.Yields.unique {tokens : List Located} {f g : Formula}
    (hf : f.Yields registry tokens) (hg : g.Yields registry tokens) : f = g :=
  eq_of_tokens hf.ordered hg.ordered
    (List.append_cancel_right (hf.tokens_eq.symm.trans hg.tokens_eq))

/-- The tokens of a text are those of its scan, and the end. -/
theorem tokenize_eq_ok_iff {source : String} {tokens : List Located} :
    tokenize registry source = .ok tokens ↔
      ∃ n, (scanOf registry source).ending = .ok n ∧
        tokens = (scanOf registry source).tokens ++ [⟨n, .finish⟩] := by
  rw [tokenize, tokensFrom_eq]
  change ((scanOf registry source).ending.map fun n => (scanOf registry source).tokens ++ _) = _ ↔ _
  cases (scanOf registry source).ending with
  | error e => simp [Except.map]
  | ok n => simp [Except.map, eq_comm]

/-- Assembling a text is reading its scan. -/
theorem run_source (registry : Registry) (source : String) :
    Assembly.run registry (.start source) .initial =
      (scanOf registry source).read (Assembly.take registry) .initial :=
  Assembly.run_eq _ _ _

/-- A text compiles if it is read to its end without a problem. -/
theorem compile_eq_ok_iff {source : String} {program : Program} :
    (compile registry source).result = .ok program ↔
      ∃ final, (scanOf registry source).read (Assembly.take registry) .initial = (final, none) ∧
        final.problems.toList = [] ∧ program = ⟨source, final.code.toList⟩ := by
  simp only [compile, run_source]
  rcases (scanOf registry source).read (Assembly.take registry) .initial with ⟨final, e | error⟩
  · by_cases hp : final.problems.toList = []
    · simp [Array.toList_eq_nil_iff.mp hp, eq_comm]
    · have hne : ¬final.problems = #[] := fun h => hp (Array.toList_eq_nil_iff.mpr h)
      simp [hne]
  · simp

/-- Drafts read a text to its end exactly if the text has a formula. -/
theorem read_drafts_iff {source : String} {b : Draft} :
    (scanOf registry source).read (Draft.take registry) .initial = (b, none) ↔
      ∃ tokens f, tokenize registry source = .ok tokens ∧ f.Yields registry tokens ∧
        b = ⟨⟨.root, 0, []⟩, .filled f, []⟩ := by
  have hu := scan_unfinished registry true (.start source)
  rw [Scan.read_eq_ok_iff]
  constructor
  · rintro ⟨d, n, hrow, hn, hlast⟩
    have hm := takeAll_eq_ok_iff.mp hrow
    obtain ⟨f, hf, ht, -⟩ := hm.formula hu (Draft.take_eq_ok_iff.mp hlast) rfl
    obtain ⟨c, hc, hb⟩ := f.moves hf ht.symm n
    have hd := hm.unique hc
    subst hd
    refine ⟨_, f, tokenize_eq_ok_iff.mpr ⟨n, hn, rfl⟩, ⟨hf, ?_⟩, ?_⟩
    · rw [List.map_append, ht]
      rfl
    · rw [Draft.take_eq_ok_iff.mpr hb] at hlast
      cases hlast
      rfl
  · rintro ⟨tokens, f, ht, hf, rfl⟩
    obtain ⟨n, hn, rfl⟩ := tokenize_eq_ok_iff.mp ht
    have hrow : (scanOf registry source).tokens.map Located.token = f.tokens := by
      have he := hf.tokens_eq
      rw [List.map_append] at he
      exact List.append_cancel_right he
    obtain ⟨d, hm, hlast⟩ := f.moves hf.ordered hrow n
    exact ⟨d, n, takeAll_eq_ok_iff.mpr hm, hn, Draft.take_eq_ok_iff.mpr hlast⟩

/-- What is left of a draft that has read a whole text is a formula by itself. -/
theorem whole_written (f : Formula) :
    Draft.written registry ⟨⟨.root, 0, []⟩, .filled f, []⟩ = f.written registry := rfl

/-- Its problems are those of the formula. -/
theorem whole_noted (place : Nat → Nat) (f : Formula) :
    Draft.noted registry place ⟨⟨.root, 0, []⟩, .filled f, []⟩ = f.noted registry place 0 := rfl

/-- Assembling a text. -/
theorem read_source (registry : Registry) (source : String) :
    ((scanOf registry source).read (Assembly.take registry) .initial).2 =
        (Draft.initial.hollowGroup? registry (scanOf registry source).tokens).elim
          ((scanOf registry source).read (Draft.take registry) .initial).2
          (fun index => some ⟨index, .emptyGroup⟩) ∧
      (Draft.initial.hollowGroup? registry (scanOf registry source).tokens = none →
        ((scanOf registry source).read (Assembly.take registry) .initial).1.Holds registry
          (scanOf registry source).indexAt
          ((scanOf registry source).read (Draft.take registry) .initial).1) := by
  refine read_answers initial_holds (Scan.placed _) (fun n hn => ?_)
    (scan_unfinished registry true (.start source))
  exact (Scan.indexAt_ending hn).trans (congrArg _ (Nat.zero_add _).symm)

/-- A text that compiles has a formula with a term, whose code is the program. -/
theorem formula_of_compile {source : String} {program : Program}
    (h : (compile registry source).result = .ok program) :
    ∃ (tokens : List Located) (f : Formula) (t : Term), tokenize registry source = .ok tokens ∧
      f.Yields registry tokens ∧ f.term? registry = some t ∧ program = ⟨source, t.code⟩ := by
  obtain ⟨final, hread, hproblems, rfl⟩ := compile_eq_ok_iff.mp h
  obtain ⟨herror, hholds⟩ := read_source registry source
  rw [hread] at herror hholds
  cases hh : Draft.initial.hollowGroup? registry (scanOf registry source).tokens with
  | some index =>
    rw [hh] at herror
    cases herror
  | none =>
    rw [hh] at herror
    have hdraft : (scanOf registry source).read (Draft.take registry) .initial =
      (((scanOf registry source).read (Draft.take registry) .initial).1, none) :=
      Prod.ext rfl herror.symm
    obtain ⟨tokens, f, ht, hf, hb⟩ := read_drafts_iff.mp hdraft
    have hfinal := hholds hh
    rw [hb] at hfinal
    obtain ⟨t, hterm⟩ := term_of_noted f hf.ordered (hfinal.problems.symm.trans hproblems)
    refine ⟨tokens, f, t, ht, hf, hterm, ?_⟩
    rw [hfinal.code, whole_written, written_of_term f hterm]

/-- A text that has a formula with a term compiles to the code of the term. -/
theorem compile_of_formula {source : String} {tokens : List Located} {f : Formula} {t : Term}
    (ht : tokenize registry source = .ok tokens) (hf : f.Yields registry tokens)
    (hterm : f.term? registry = some t) :
    (compile registry source).result = .ok ⟨source, t.code⟩ := by
  have hdraft := read_drafts_iff.mpr ⟨tokens, f, ht, hf, rfl⟩
  obtain ⟨herror, hholds⟩ := read_source registry source
  have hnoted := noted_of_term (scanOf registry source).indexAt 0 f hterm
  -- A hollow group on the way would have left a problem in the formula.
  have hhollow : Draft.initial.hollowGroup? registry (scanOf registry source).tokens = none := by
    obtain ⟨d, n, hrow, -, hlast⟩ := Scan.read_eq_ok_iff.mp hdraft
    have hprefix : d.noted registry (scanOf registry source).indexAt <+:
        f.noted registry (scanOf registry source).indexAt 0 :=
      (Draft.take_eq_ok_iff.mp hlast).noted
    rw [hnoted] at hprefix
    exact hollowGroup?_eq_none (Draft.initial_ordered registry) (takeAll_eq_ok_iff.mp hrow)
      (scan_unfinished registry true (.start source)) (List.prefix_nil.mp hprefix)
  rw [hhollow, hdraft] at herror
  replace hholds := hholds hhollow
  rw [hdraft] at hholds
  refine compile_eq_ok_iff.mpr ⟨_, Prod.ext rfl herror, ?_, ?_⟩
  · rw [hholds.problems, whole_noted, hnoted]
  · rw [hholds.code, whole_written, written_of_term f hterm]

/-- A text compiles to a program if and only if its tokens are those of an ordered formula
whose names the registry supports and the program is the postfix code of its term. There is
no other ordered formula with these tokens. -/
theorem compileIn_eq_ok_iff (registry : Registry) (store : Store) (source : String)
    (program : Program) :
    ((compileIn registry store source).1 = .ok program ↔
      ∃ (tokens : List Located) (f : Formula) (t : Term), tokenize registry source = .ok tokens ∧
        f.Yields registry tokens ∧ f.term? registry = some t ∧ program = ⟨source, t.code⟩) ∧
    ∀ (tokens : List Located) (f g : Formula),
      f.Yields registry tokens → g.Yields registry tokens → f = g := by
  refine ⟨⟨formula_of_compile, ?_⟩, fun _ _ _ hf hg => hf.unique hg⟩
  rintro ⟨tokens, f, t, ht, hf, hterm, rfl⟩
  exact compile_of_formula ht hf hterm

end GateFormula
