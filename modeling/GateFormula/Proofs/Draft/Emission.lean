import GateFormula.Assembly
import GateFormula.Proofs.Draft
import Mathlib.Data.List.Forall2

/-!
# What assembling makes of a tree

The code that assembling writes for a tree and the problems that it notes, whether the
registry supports the tree or not. A call that is not supported writes no code of its
own, and how many arguments a call has is seen from the code between its parentheses: a
single argument without code is not seen. `noted_of_term` and `term_of_noted` say that no
problem is noted exactly when there is a term, and `written_of_term` that the code of the
term is then what is written.
-/

namespace GateFormula

namespace Formula

/-! ### Code -/

/-- The call of an operator. -/
def operatorCode (registry : Registry) (symbol : String) (operands : Nat) : List Instruction :=
  match registry.operator? symbol with
  | some o => [.call o.function operands]
  | none => []

/-- The number of arguments that a call is seen to have, if there are `count` of them with
this code: a single one that writes nothing is not seen. -/
def seenOperands (code : List Instruction) (count : Nat) : Nat :=
  if code.isEmpty && count ≤ 1 then 0 else count

/-- The call of a function, which is written only if the registry supports it. -/
def callCode (registry : Registry) (name : String) (count : Nat) : List Instruction :=
  match registry.function? name with
  | none => []
  | some function => if function.accepts count then [.call function count] else []

mutual

/-- The code that assembling writes for a formula. -/
def written (registry : Registry) : Formula → List Instruction
  | .literal value => [.push value]
  | .reference name =>
    match registry.constant? name with
    | some value => [.push value]
    | none => [.load name]
  | .constant name =>
    match registry.constant? name with
    | some value => [.push value]
    | none => [.push 0]
  | .group inner => inner.written registry
  | .call name operands =>
    let inside := writtenOf registry operands
    inside ++ callCode registry name (seenOperands inside operands.length)
  | .unary symbol operand => operand.written registry ++ operatorCode registry symbol 1
  | .binary symbol left right =>
    left.written registry ++ right.written registry ++ operatorCode registry symbol 2

/-- The code that assembling writes for several formulas. -/
def writtenOf (registry : Registry) : List Formula → List Instruction
  | [] => []
  | f :: fs => f.written registry ++ writtenOf registry fs

end

/-! ### Problems -/

/-- The problem with the name of a function. -/
def calleeNoted (registry : Registry) (place : Nat → Nat) (start : Nat) (name : String) :
    List Problem :=
  match registry.function? name with
  | none => [.unknownFunction name (place start)]
  | some _ => []

/-- The problem with the number of arguments that a call is seen to have. -/
def countNoted (registry : Registry) (place : Nat → Nat) (start : Nat) (name : String)
    (count : Nat) : List Problem :=
  match registry.function? name with
  | none => []
  | some function =>
    if function.accepts count then [] else [.arityMismatch name (place start) count function]

mutual

/-- The problems that assembling notes in a formula which starts at the token number `start`,
if `place` gives the index of every token. -/
def noted (registry : Registry) (place : Nat → Nat) (start : Nat) : Formula → List Problem
  | .literal _ | .reference _ => []
  | .constant name =>
    match registry.constant? name with
    | some _ => []
    | none => [.unknownConstant name (place start)]
  | .group inner => inner.noted registry place (start + 1)
  | .call name operands =>
    calleeNoted registry place start name ++ notedOf registry place (start + 2) operands
      ++ countNoted registry place start name
        (seenOperands (writtenOf registry operands) operands.length)
  | .unary _ operand => operand.noted registry place (start + 1)
  | .binary _ left right =>
    left.noted registry place start
      ++ right.noted registry place (start + left.tokens.length + 1)

/-- The problems that assembling notes in formulas each of which one token follows. -/
def notedOf (registry : Registry) (place : Nat → Nat) (start : Nat) : List Formula → List Problem
  | [] => []
  | f :: fs =>
    f.noted registry place start ++ notedOf registry place (start + f.tokens.length + 1) fs

end

/-! ### Several formulas -/

/-- The code of two rows of formulas. -/
theorem writtenOf_append (registry : Registry) (xs ys : List Formula) :
    writtenOf registry (xs ++ ys) = writtenOf registry xs ++ writtenOf registry ys := by
  induction xs with
  | nil => rfl
  | cons f xs ih => rw [List.cons_append, writtenOf, writtenOf, ih, List.append_assoc]

/-- The code of a single formula. -/
theorem writtenOf_singleton (registry : Registry) (f : Formula) :
    writtenOf registry [f] = f.written registry := by
  rw [writtenOf, writtenOf, List.append_nil]

/-- The problems of two rows of formulas. -/
theorem notedOf_append (registry : Registry) (place : Nat → Nat) (start : Nat)
    (xs ys : List Formula) :
    notedOf registry place start (xs ++ ys) =
      notedOf registry place start xs ++
        notedOf registry place (start + (operandTokens xs).length) ys := by
  induction xs generalizing start with
  | nil => rfl
  | cons f xs ih =>
    have hl : start + f.tokens.length + 1 + (operandTokens xs).length =
        start + (operandTokens (f :: xs)).length := by
      simp only [operandTokens, List.flatMap_cons, List.length_append, List.length_singleton]
      omega
    rw [List.cons_append, notedOf, notedOf, ih, hl, List.append_assoc]

/-- The problems of a single formula. -/
theorem notedOf_singleton (registry : Registry) (place : Nat → Nat) (start : Nat) (f : Formula) :
    notedOf registry place start [f] = f.noted registry place start := by
  rw [notedOf, notedOf, List.append_nil]

/-! ### Waiting operators -/

/-- Operators and the symbols by which the registry has them. -/
abbrev Named (registry : Registry) : List String → List Operator → Prop :=
  List.Forall₂ fun symbol o => registry.operator? symbol = some o

/-- The left operands of waiting operators, in the order in which they were read. -/
def leftOperands (lefts : List (Formula × String)) : List Formula :=
  lefts.reverse.map Prod.fst

/-- Left operands take as many tokens as arguments do. -/
theorem operandTokens_leftOperands (lefts : List (Formula × String)) :
    (operandTokens (leftOperands lefts)).length = (leftTokens lefts).length := by
  simp only [operandTokens, leftOperands, leftTokens, List.flatMap_map, List.length_flatMap,
    List.length_append, List.length_singleton]

/-- Left operands of operators that came one after another. -/
theorem leftOperands_cons (left : Formula × String) (lefts : List (Formula × String)) :
    leftOperands (left :: lefts) = leftOperands lefts ++ [left.1] := by
  simp only [leftOperands, List.reverse_cons, List.map_append, List.map_cons, List.map_nil]

/-- Left operands of operators that came in two rounds. -/
theorem leftOperands_append (xs ys : List (Formula × String)) :
    leftOperands (xs ++ ys) = leftOperands ys ++ leftOperands xs := by
  simp only [leftOperands, List.reverse_append, List.map_append]

/-- Operators of one operand are written behind it. -/
theorem wrap_written {registry : Registry} {us : List String} {os : List Operator}
    (h : Named registry us os) (f : Formula) :
    (f.wrap us).written registry = f.written registry ++ Assembly.callsOf os 1 := by
  induction h generalizing f with
  | nil => exact (List.append_nil _).symm
  | @cons symbol o us os hs _ ih =>
    change (Formula.wrap (.unary symbol f) us).written registry = _
    rw [ih, written, operatorCode, hs]
    exact List.append_assoc _ _ _

/-- Operators of two operands are written behind the right one, the latest first. -/
theorem join_written {registry : Registry} {lefts : List (Formula × String)} {os : List Operator}
    (h : Named registry (lefts.map Prod.snd) os) (f : Formula) :
    (f.join lefts).written registry =
      writtenOf registry (leftOperands lefts) ++ f.written registry ++
        Assembly.callsOf os 2 := by
  induction lefts generalizing f os with
  | nil =>
    cases h
    simp only [join, List.foldl_nil, leftOperands, List.reverse_nil, List.map_nil, writtenOf,
      Assembly.callsOf, List.nil_append, List.append_nil]
  | cons left lefts ih =>
    cases h with
    | @cons _ o _ os hs ht =>
      change (Formula.join (.binary left.2 left.1 f) lefts).written registry = _
      rw [ih ht, written, operatorCode, hs, leftOperands_cons, writtenOf_append,
        writtenOf_singleton]
      simp only [Assembly.callsOf, List.map_cons, List.append_assoc, List.singleton_append]

/-- Operators of one operand have no problems of their own. -/
theorem wrap_noted (registry : Registry) (place : Nat → Nat) (start : Nat) (us : List String)
    (f : Formula) :
    (f.wrap us).noted registry place start = f.noted registry place (start + us.length) := by
  induction us generalizing f with
  | nil => rfl
  | cons symbol us ih =>
    change (Formula.wrap (.unary symbol f) us).noted registry place start = _
    rw [ih, noted, List.length_cons, Nat.add_assoc]

/-- Operators of two operands have no problems of their own. -/
theorem join_noted (registry : Registry) (place : Nat → Nat) (start : Nat)
    (lefts : List (Formula × String)) (f : Formula) :
    (f.join lefts).noted registry place start =
      notedOf registry place start (leftOperands lefts) ++
        f.noted registry place (start + (leftTokens lefts).length) := by
  induction lefts generalizing f with
  | nil => rfl
  | cons left lefts ih =>
    change (Formula.join (.binary left.2 left.1 f) lefts).noted registry place start = _
    have hl : leftTokens (left :: lefts) = leftTokens lefts ++ leftTokens [left] :=
      leftTokens_append [left] lefts
    rw [ih, noted, leftOperands_cons, notedOf_append, notedOf_singleton,
      operandTokens_leftOperands, hl, leftTokens_singleton]
    simp only [List.length_append, List.length_singleton, List.append_assoc, Nat.add_assoc]

/-! ### Supported formulas -/

/-- Arguments that write code are seen. -/
theorem seenOperands_of_ne_nil {code : List Instruction} {count : Nat}
    (h : count = 0 ∨ code ≠ []) : seenOperands code count = count := by
  unfold seenOperands
  split
  next hs =>
    simp only [Bool.and_eq_true, List.isEmpty_iff] at hs
    rcases h with h | h
    · exact h.symm
    · exact absurd hs.1 h
  · rfl

/-- The code of a term is never empty. -/
theorem code_ne_nil (t : Term) : t.code ≠ [] := by
  cases t with
  | number | reference => rw [Term.code]; exact List.cons_ne_nil _ _
  | apply function operands =>
    rw [Term.code]
    exact List.append_ne_nil_of_right_ne_nil _ (List.cons_ne_nil _ _)

/-- There is a term for every one of several formulas. -/
theorem termsOf_length {registry : Registry} {fs : List Formula} {ts : List Term}
    (h : termsOf? registry fs = some ts) : ts.length = fs.length := by
  induction fs generalizing ts with
  | nil => rw [termsOf?] at h; cases h; rfl
  | cons f fs ih =>
    rw [termsOf?] at h
    split at h
    next hrest => cases h; rw [List.length_cons, List.length_cons, ih hrest]
    · cases h

/-- Several formulas with terms are seen in the code of these. -/
theorem seenOperands_codeOf {registry : Registry} {fs : List Formula} {ts : List Term}
    (h : termsOf? registry fs = some ts) : seenOperands (Term.codeOf ts) fs.length = fs.length := by
  apply seenOperands_of_ne_nil
  have hl := termsOf_length h
  cases ts with
  | nil => exact .inl hl.symm
  | cons t ts =>
    rw [Term.codeOf]
    exact .inr (List.append_ne_nil_of_left_ne_nil (code_ne_nil t) _)

mutual

/-- What is written for a formula with a term is the code of the term. -/
theorem written_of_term {registry : Registry} (f : Formula) {t : Term}
    (h : f.term? registry = some t) : f.written registry = t.code := by
  match f with
  | .literal value => rw [term?] at h; cases h; rw [written, Term.code]
  | .reference name =>
    rw [term?] at h
    rw [written]
    cases hc : registry.constant? name with
    | none =>
      simp only [hc] at h
      cases h
      rw [Term.code]
    | some value =>
      simp only [hc] at h
      cases h
      rw [Term.code]
  | .constant name =>
    rw [term?, Option.map_eq_some_iff] at h
    obtain ⟨value, hc, rfl⟩ := h
    rw [written, hc, Term.code]
  | .group inner =>
    rw [term?] at h
    rw [written, inner.written_of_term h]
  | .call name operands =>
    rw [term?] at h
    split at h
    next function ts hn hts =>
      split at h
      next ha =>
        cases h
        rw [written, writtenOf_of_terms operands hts, seenOperands_codeOf hts, callCode, hn,
          Term.code, termsOf_length hts]
        rw [termsOf_length hts] at ha
        simp only [ha, if_true]
      · cases h
    · cases h
  | .unary symbol operand =>
    rw [term?] at h
    split at h
    next o t ho ht =>
      cases h
      rw [written, operand.written_of_term ht, operatorCode, ho, Term.code, Term.codeOf,
        Term.codeOf, List.append_nil]
      rfl
    · cases h
  | .binary symbol left right =>
    rw [term?] at h
    split at h
    next o t u ho ht hu =>
      cases h
      rw [written, left.written_of_term ht, right.written_of_term hu, operatorCode, ho, Term.code,
        Term.codeOf, Term.codeOf, Term.codeOf, List.append_nil]
      rfl
    · cases h

/-- What is written for several formulas with terms is the code of the terms. -/
theorem writtenOf_of_terms {registry : Registry} (fs : List Formula) {ts : List Term}
    (h : termsOf? registry fs = some ts) : writtenOf registry fs = Term.codeOf ts := by
  match fs with
  | [] => rw [termsOf?] at h; cases h; rw [writtenOf, Term.codeOf]
  | f :: fs =>
    rw [termsOf?] at h
    split at h
    next t ts ht hts =>
      cases h
      rw [writtenOf, Term.codeOf, f.written_of_term ht, writtenOf_of_terms fs hts]
    · cases h

end

mutual

/-- Nothing is noted in a formula with a term. -/
theorem noted_of_term {registry : Registry} (place : Nat → Nat) (start : Nat) (f : Formula)
    {t : Term} (h : f.term? registry = some t) : f.noted registry place start = [] := by
  match f with
  | .literal value | .reference name => rw [noted]
  | .constant name =>
    rw [term?, Option.map_eq_some_iff] at h
    obtain ⟨value, hc, rfl⟩ := h
    rw [noted, hc]
  | .group inner =>
    rw [term?] at h
    rw [noted, noted_of_term place _ inner h]
  | .call name operands =>
    rw [term?] at h
    split at h
    next function ts hn hts =>
      split at h
      next ha =>
        rw [termsOf_length hts] at ha
        rw [noted, notedOf_of_terms place _ operands hts, writtenOf_of_terms operands hts,
          seenOperands_codeOf hts, calleeNoted, countNoted, hn]
        simp only [ha, if_true, List.append_nil]
      · cases h
    · cases h
  | .unary symbol operand =>
    rw [term?] at h
    split at h
    next ht => rw [noted, noted_of_term place _ operand ht]
    · cases h
  | .binary symbol left right =>
    rw [term?] at h
    split at h
    next ht hu =>
      rw [noted, noted_of_term place _ left ht, noted_of_term place _ right hu, List.append_nil]
    · cases h

/-- Nothing is noted in several formulas with terms. -/
theorem notedOf_of_terms {registry : Registry} (place : Nat → Nat) (start : Nat)
    (fs : List Formula) {ts : List Term} (h : termsOf? registry fs = some ts) :
    notedOf registry place start fs = [] := by
  match fs with
  | [] => rw [notedOf]
  | f :: fs =>
    rw [termsOf?] at h
    split at h
    next ht hts =>
      rw [notedOf, noted_of_term place _ f ht, notedOf_of_terms place _ fs hts, List.append_nil]
    · cases h

end

mutual

/-- An ordered formula in which nothing is noted has a term. -/
theorem term_of_noted {registry : Registry} {place : Nat → Nat} {start : Nat} (f : Formula)
    (hf : f.isOrdered registry = true) (h : f.noted registry place start = []) :
    ∃ t, f.term? registry = some t := by
  match f with
  | .literal value => exact ⟨.number value, by rw [term?]⟩
  | .reference name =>
    rw [term?]
    split <;> exact ⟨_, rfl⟩
  | .constant name =>
    rw [noted] at h
    split at h
    next value hc => exact ⟨.number value, by rw [term?, hc]; rfl⟩
    · cases h
  | .group inner =>
    rw [isOrdered] at hf
    rw [noted] at h
    obtain ⟨t, ht⟩ := inner.term_of_noted hf h
    exact ⟨t, by rw [term?, ht]⟩
  | .call name operands =>
    rw [isOrdered] at hf
    rw [noted, List.append_eq_nil_iff, List.append_eq_nil_iff] at h
    obtain ⟨⟨hn, hi⟩, hc⟩ := h
    obtain ⟨ts, hts⟩ := terms_of_noted operands hf hi
    rw [calleeNoted] at hn
    rw [countNoted, writtenOf_of_terms operands hts, seenOperands_codeOf hts] at hc
    split at hn
    · cases hn
    next function hfunction =>
      rw [hfunction] at hc
      refine ⟨.apply function ts, ?_⟩
      rw [term?, hfunction, hts]
      simp only [termsOf_length hts]
      by_cases ha : function.accepts operands.length = true
      · rw [if_pos ha]
      · simp only [ha, Bool.false_eq_true, if_false, List.cons_ne_nil] at hc
  | .unary symbol operand =>
    rw [isOrdered, Bool.and_eq_true, Bool.and_eq_true] at hf
    rw [noted] at h
    obtain ⟨t, ht⟩ := operand.term_of_noted hf.2 h
    obtain ⟨o, ho, _⟩ := (Option.any_eq_true _ _).mp hf.1.1
    exact ⟨.apply o.function [t], by rw [term?, ht, ho]⟩
  | .binary symbol left right =>
    simp only [isOrdered, Bool.and_eq_true] at hf
    rw [noted, List.append_eq_nil_iff] at h
    obtain ⟨t, ht⟩ := left.term_of_noted hf.1.2 h.1
    obtain ⟨u, hu⟩ := right.term_of_noted hf.2 h.2
    obtain ⟨o, ho, _⟩ := (Option.any_eq_true _ _).mp hf.1.1.1.1
    exact ⟨.apply o.function [t, u], by rw [term?, ht, hu, ho]⟩

/-- Several ordered formulas in which nothing is noted have terms. -/
theorem terms_of_noted {registry : Registry} {place : Nat → Nat} {start : Nat} (fs : List Formula)
    (hf : areOrdered registry fs = true) (h : notedOf registry place start fs = []) :
    ∃ ts, termsOf? registry fs = some ts := by
  match fs with
  | [] => exact ⟨[], by rw [termsOf?]⟩
  | f :: fs =>
    rw [areOrdered, Bool.and_eq_true] at hf
    rw [notedOf, List.append_eq_nil_iff] at h
    obtain ⟨t, ht⟩ := f.term_of_noted hf.1 h.1
    obtain ⟨ts, hts⟩ := terms_of_noted fs hf.2 h.2
    exact ⟨t :: ts, by rw [termsOf?, ht, hts]⟩

end

end Formula

end GateFormula
