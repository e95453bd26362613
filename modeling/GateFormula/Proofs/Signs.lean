import GateFormula.Builtin
import GateFormula.Proofs.Scanning
import Mathlib.Data.List.Basic

/-!
# The sign of a number

A minus in front of a number may be its sign or an operator. `next_minus_literal_iff` says when it
is the sign. Where an operand is expected, it is if a digit or a point follows and the word spells
a finite number. Where none is expected, it is an operator if the registry has one that starts with
a minus; without one the minus starts a bare word, which is tried as a number all the same.
-/

namespace GateFormula

/-! ### Numbers that start with a minus -/

/-- None of the special values is finite, whatever its sign. -/
theorem isFinite_of_readSpecial {text : List Char} {value : Float}
    (h : Number.readSpecial text = some value) : (-value).isFinite = false := by
  have hinfinite : (-(1 / 0 : Float)).isFinite = false := by decide +kernel
  have hnone : (-(0 / 0 : Float)).isFinite = false := by decide +kernel
  unfold Number.readSpecial at h
  split at h
  · cases h
    exact hinfinite
  · cases h
    exact hinfinite
  · cases h
    exact hnone
  · cases h

/-- A magnitude starts with a digit or a point. -/
theorem startsNumber_of_readMagnitude {text : List Char} {value : Float}
    (h : Number.readMagnitude text = some value) :
    text.head?.any Lexeme.startsNumber = true := by
  cases text with
  | nil => cases h
  | cons c cs =>
    change Lexeme.startsNumber c = true
    by_cases hdigit : c.isDigit = true
    · simp only [Lexeme.startsNumber, hdigit, Bool.true_or]
    · by_cases hpoint : c = '.'
      · simp only [Lexeme.startsNumber, hpoint, decide_true, Bool.or_true]
      · simp [Number.readMagnitude, hdigit, hpoint] at h

/-- Behind the minus of a finite number stands a digit or a point. -/
theorem startsNumber_of_read {tail : List Char} {value : Float}
    (h : Number.read ('-' :: tail) = .ok value) (finite : value.isFinite = true) :
    tail.head?.any Lexeme.startsNumber = true := by
  simp only [Number.read, List.isEmpty_cons, Bool.false_eq_true, if_false, Number.readSign,
    if_true] at h
  split at h
  next magnitude hmagnitude =>
    cases h
    cases hspecial : Number.readSpecial tail with
    | some special =>
      rw [hspecial, Option.some_or] at hmagnitude
      cases hmagnitude
      rw [isFinite_of_readSpecial hspecial] at finite
      cases finite
    | none =>
      rw [hspecial, Option.none_or] at hmagnitude
      exact startsNumber_of_readMagnitude hmagnitude
  · cases h

/-! ### Words that start with a minus -/

/-- Whether the characters of a word spell a finite number, and no sigil follows them. -/
def Lexeme.spellsNumber (word : Lexeme) : Bool :=
  (match Number.read word.text with
    | .ok value => value.isFinite
    | .error _ => false) && word.rest.head? ≠ some '$'

variable {registry : Registry} {expectOperand : Bool}

/-- A word that starts with a minus is tried as a number. -/
theorem ofWord_minus (registry : Registry) (cs : List Char) :
    ∃ tail rest, tail ++ rest = cs ∧ Lexeme.ofWord registry '-' cs =
      ⟨'-' :: tail, Lexeme.wordToken true ('-' :: tail) rest, rest⟩ :=
  ⟨_, _, Lexeme.wordTail_append registry true '-' cs, rfl⟩

/-- A word that is tried as a number is one if its characters spell it and it is finite. -/
theorem wordToken_literal_iff {word rest : List Char} {value : Float} :
    Lexeme.wordToken true word rest = .literal value ↔
      Number.read word = .ok value ∧ value.isFinite = true := by
  have hnamed : (if Lexeme.opensCall rest then Token.call (.ofList word)
      else .constant (.ofList word)) ≠ .literal value := by
    split <;> exact Token.noConfusion
  simp only [Lexeme.wordToken, if_true]
  cases Number.read word with
  | error e =>
    refine ⟨fun h => absurd h hnamed, fun h => ?_⟩
    cases h.1
  | ok other =>
    by_cases hfinite : other.isFinite = true
    · simp only [hfinite, if_true, Token.literal.injEq, Except.ok.injEq]
      exact ⟨fun h => ⟨h, h ▸ hfinite⟩, And.left⟩
    · simp only [hfinite, Bool.false_eq_true, if_false, Except.ok.injEq]
      exact ⟨fun h => absurd h hnamed, fun h => absurd (h.1 ▸ h.2) hfinite⟩

/-- A word that starts with a minus is a number if its characters spell a finite one and no sigil
follows. -/
theorem ofWord_minus_literal_iff (registry : Registry) (cs : List Char) :
    (∃ value, (Lexeme.ofWord registry '-' cs).token = .literal value ∧
      (Lexeme.ofWord registry '-' cs).hasSigilAttached = false) ↔
        (Lexeme.ofWord registry '-' cs).spellsNumber = true := by
  obtain ⟨tail, rest, -, hword⟩ := ofWord_minus registry cs
  simp only [hword, Lexeme.spellsNumber, Bool.and_eq_true, decide_eq_true_eq]
  constructor
  · rintro ⟨value, htoken, hapart⟩
    obtain ⟨hread, hfinite⟩ := wordToken_literal_iff.mp htoken
    simp only [Lexeme.hasSigilAttached, htoken, Token.isWord, Bool.true_and,
      decide_eq_false_iff_not] at hapart
    rw [hread]
    exact ⟨hfinite, hapart⟩
  · rintro ⟨hnumber, hapart⟩
    split at hnumber
    next value hread =>
      refine ⟨value, wordToken_literal_iff.mpr ⟨hread, hnumber⟩, ?_⟩
      simp only [Lexeme.hasSigilAttached, hapart, decide_false, Bool.and_false]
    · cases hnumber

/-- Behind the minus of such a word stands a digit or a point. -/
theorem startsNumber_of_spellsNumber {cs : List Char}
    (h : (Lexeme.ofWord registry '-' cs).spellsNumber = true) :
    cs.head?.any Lexeme.startsNumber = true := by
  obtain ⟨tail, rest, rfl, hword⟩ := ofWord_minus registry cs
  rw [hword] at h
  simp only [Lexeme.spellsNumber, Bool.and_eq_true] at h
  obtain ⟨hnumber, -⟩ := h
  split at hnumber
  next value hread =>
    have hstarts := startsNumber_of_read hread hnumber
    cases tail with
    | nil => cases hstarts
    | cons d tail => exact hstarts
  · cases hnumber

/-! ### Reading a minus -/

/-- A minus starts a word where it is the sign of an operand or no operator starts with one. -/
theorem read_minus (registry : Registry) (expectOperand : Bool) (cs : List Char) :
    Lexeme.read registry expectOperand '-' cs =
      if (expectOperand && cs.head?.any Lexeme.startsNumber) = true ∨
          registry.startsOperator '-' = false then
        .ok (Lexeme.ofWord registry '-' cs)
      else Lexeme.ofOperator registry ('-' :: cs) := by
  unfold Lexeme.read
  cases hsign : expectOperand && cs.head?.any Lexeme.startsNumber <;>
    cases registry.startsOperator '-' <;> simp [hsign]

/-- What a step yields at a minus that starts a word. -/
theorem next_minus_word {cursor : Cursor} {cs : List Char}
    (minus : cursor.skipBlanks.rest = '-' :: cs)
    (read : Lexeme.read registry expectOperand '-' cs = .ok (Lexeme.ofWord registry '-' cs)) :
    (∃ value after, cursor.next registry expectOperand =
      (.ok ⟨cursor.skipBlanks.position, .literal value⟩, after)) ↔
        (Lexeme.ofWord registry '-' cs).spellsNumber = true := by
  rw [← ofWord_minus_literal_iff]
  cases hapart : (Lexeme.ofWord registry '-' cs).hasSigilAttached with
  | true =>
    rw [Cursor.steps_iff.mp (.attached minus read hapart)]
    refine ⟨fun ⟨value, after, h⟩ => ?_, fun ⟨value, _, h⟩ => ?_⟩
    · cases h
    · cases h
  | false =>
    rw [Cursor.steps_iff.mp (.token minus read hapart)]
    constructor
    · rintro ⟨value, after, h⟩
      simp only [Prod.mk.injEq, Except.ok.injEq, Located.mk.injEq, true_and] at h
      exact ⟨value, h.1, rfl⟩
    · rintro ⟨value, htoken, -⟩
      rw [htoken]
      exact ⟨value, _, rfl⟩

/-- A step that meets a minus reads a number that starts with it exactly if the characters of the
word there spell a finite number, to which no sigil is attached, and an operand is expected or no
operator of the registry starts with a minus. A digit or a point stands behind the minus then. So
a minus where no operand is expected is the sign of a number only under a registry in which no
operator starts with it. -/
theorem next_minus_literal_iff (registry : Registry) (expectOperand : Bool) (cursor : Cursor)
    (cs : List Char) (minus : cursor.skipBlanks.rest = '-' :: cs) :
    ((∃ value after, cursor.next registry expectOperand =
        (.ok ⟨cursor.skipBlanks.position, .literal value⟩, after)) ↔
      (expectOperand = true ∨ registry.startsOperator '-' = false) ∧
        (Lexeme.ofWord registry '-' cs).spellsNumber = true) ∧
    ((Lexeme.ofWord registry '-' cs).spellsNumber = true →
      cs.head?.any Lexeme.startsNumber = true) := by
  refine ⟨?_, startsNumber_of_spellsNumber⟩
  by_cases hword : (expectOperand && cs.head?.any Lexeme.startsNumber) = true ∨
      registry.startsOperator '-' = false
  · have hread : Lexeme.read registry expectOperand '-' cs =
        .ok (Lexeme.ofWord registry '-' cs) := by
      rw [read_minus, if_pos hword]
    have hexpects : expectOperand = true ∨ registry.startsOperator '-' = false :=
      hword.imp_left fun h => (Bool.and_eq_true_iff.mp h).1
    rw [next_minus_word minus hread]
    exact ⟨fun h => ⟨hexpects, h⟩, And.right⟩
  · have hread : Lexeme.read registry expectOperand '-' cs =
        Lexeme.ofOperator registry ('-' :: cs) := by
      rw [read_minus, if_neg hword]
    refine ⟨fun ⟨value, after, h⟩ => ?_, fun ⟨hexpects, hnumber⟩ => ?_⟩
    · -- What is read is an operator or an error about one.
      cases hoperator : Lexeme.ofOperator registry ('-' :: cs) with
      | error fault =>
        rw [Cursor.steps_iff.mp (.fault minus (hread.trans hoperator))] at h
        cases h
      | ok lexeme =>
        obtain ⟨symbol, hsymbol⟩ := Lexeme.ofOperator_token hoperator
        have hapart : lexeme.hasSigilAttached = false := by
          rw [Lexeme.hasSigilAttached, hsymbol]
          rfl
        rw [Cursor.steps_iff.mp (.token minus (hread.trans hoperator) hapart), hsymbol] at h
        cases h
    · have hstarts := startsNumber_of_spellsNumber hnumber
      refine absurd (hexpects.imp_left fun h => ?_) hword
      rw [h, hstarts]
      rfl

/-- Behind a variable a minus is the sign of a number if the registry has no operators, and it is
an operator under the standard registry. -/
theorem next_minus_literal_without_operator :
    ((∃ value after, (Cursor.mk 3 ['-', '1']).next .empty false =
        (.ok ⟨3, .literal value⟩, after)) ∧
      tokenize .empty "$x$-1" = .ok [⟨0, .reference "x"⟩, ⟨3, .literal (-1)⟩, ⟨5, .finish⟩]) ∧
    ¬ (∃ value after, (Cursor.mk 3 ['-', '1']).next .builtin false =
        (.ok ⟨3, .literal value⟩, after)) := by
  have hnone : Registry.empty.startsOperator '-' = false := by decide +kernel
  have hstandard : Registry.builtin.startsOperator '-' = true := by decide +kernel
  have hnumber : (Lexeme.ofWord .empty '-' ['1']).spellsNumber = true := by decide +kernel
  have htokens : tokenize .empty "$x$-1" =
      .ok [⟨0, .reference "x"⟩, ⟨3, .literal (-1)⟩, ⟨5, .finish⟩] := by
    decide +kernel
  refine ⟨⟨?_, htokens⟩, fun h => ?_⟩
  · exact (next_minus_literal_iff .empty false ⟨3, ['-', '1']⟩ ['1'] rfl).1.mpr
      ⟨.inr hnone, hnumber⟩
  · obtain ⟨hexpects, -⟩ :=
      (next_minus_literal_iff .builtin false ⟨3, ['-', '1']⟩ ['1'] rfl).1.mp h
    rw [hstandard] at hexpects
    rcases hexpects with hexpects | hexpects <;> cases hexpects

end GateFormula
