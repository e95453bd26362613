import GateFormula.Formula.Spelling
import GateFormula.Proofs.Phrases

/-!
# Sketches compile to their terms

A sketch is spelled with the parentheses that ranks demand, or with parentheses around every
operator and its operands. Both texts compile, and to the same program: the postfix code of the
term of the sketch. Each sketch is followed by its words, which are a phrase when a blank stands
before each. What the phrase has for its outermost operator between two operands is what decides
whether it may go without parentheses.
-/

namespace GateFormula

variable {registry : Registry}

/-! ### Words -/

/-- Words with a blank before each. -/
def spaced (words : List String) : List Char :=
  words.flatMap fun word => ' ' :: word.toList

/-- Words behind words. -/
theorem spaced_append (words further : List String) :
    spaced (words ++ further) = spaced words ++ spaced further :=
  List.flatMap_append

/-- A word before words. -/
theorem spaced_cons (word : String) (words : List String) :
    spaced (word :: words) = ' ' :: (word.toList ++ spaced words) :=
  List.flatMap_cons

/-- Words start apart from what stands before them. -/
theorem startsApart_spaced (words : List String) : startsApart (spaced words) = true := by
  cases words <;> rfl

/-- A text of words with single blanks between them has these words, but for blanks at its
start. -/
theorem dropWhile_text (words : List String) :
    (" ".intercalate words).toList.dropWhile Text.isBlank =
      (spaced words).dropWhile Text.isBlank := by
  cases words with
  | nil => rfl
  | cons word words =>
    have hspaced : spaced (word :: words) =
        [' '] ++ (" ".intercalate (word :: words)).toList := by
      rw [String.toList_intercalate, List.map_cons, intercalate_cons, List.flatMap_map]
      rfl
    rw [hspaced, dropWhile_padding all_isBlank_space]

/-- Operands with a comma before each but the first. -/
theorem spaced_operands (print : Sketch → List String) (s : Sketch) (others : List Sketch) :
    spaced (print s ++ others.flatMap fun other => "," :: print other) =
      [' ', ','].intercalate ((s :: others).map fun other => spaced (print other)) := by
  rw [List.map_cons, intercalate_cons, spaced_append, List.flatMap_map, spaced, spaced,
    List.flatMap_assoc]
  rfl

namespace Sketch

/-- The further words of operands, operand by operand. -/
theorem furtherWords_eq (registry : Registry) (operands : List Sketch) :
    furtherWords registry operands = operands.flatMap fun s => "," :: s.words registry := by
  induction operands with
  | nil => rfl
  | cons s operands ih => rw [furtherWords, ih, List.flatMap_cons]

/-- All further words of operands, operand by operand. -/
theorem furtherAllWords_eq (operands : List Sketch) :
    furtherAllWords operands = operands.flatMap fun s => "," :: s.allWords := by
  induction operands with
  | nil => rfl
  | cons s operands ih => rw [furtherAllWords, ih, List.flatMap_cons]

/-- The words of operands are separated by commas. -/
theorem spaced_wordsOf (registry : Registry) (operands : List Sketch) :
    spaced (wordsOf registry operands) =
      [' ', ','].intercalate (operands.map fun s => spaced (s.words registry)) := by
  cases operands with
  | nil => rfl
  | cons s operands => rw [wordsOf, furtherWords_eq, spaced_operands]

/-- All words of operands are separated by commas. -/
theorem spaced_allWordsOf (operands : List Sketch) :
    spaced (allWordsOf operands) =
      [' ', ','].intercalate (operands.map fun s => spaced s.allWords) := by
  cases operands with
  | nil => rfl
  | cons s operands => rw [allWordsOf, furtherAllWords_eq, spaced_operands]

/-! ### Induction over a sketch -/

/-- What holds of leaves and is inherited from operands holds of every sketch. -/
theorem induction {motive : Sketch → Prop} (leaf : ∀ text, motive (.leaf text))
    (unary : ∀ symbol operand, motive operand → motive (.unary symbol operand))
    (binary : ∀ symbol left right, motive left → motive right →
      motive (.binary symbol left right))
    (call : ∀ name operands, (∀ s ∈ operands, motive s) → motive (.call name operands)) :
    ∀ s, motive s
  | .leaf text => leaf text
  | .unary symbol operand => unary symbol operand (induction leaf unary binary call operand)
  | .binary symbol left right =>
    binary symbol left right (induction leaf unary binary call left)
      (induction leaf unary binary call right)
  | .call name operands =>
    call name operands fun s _ => induction leaf unary binary call s

mutual

/-- Whether a registry supports a sketch: every leaf is a single number or name, every symbol an
operator of its kind, and every function has a plain name and accepts the number of its
operands. -/
def isSupported (registry : Registry) : Sketch → Bool
  | .leaf text => (leafTerm? registry text).isSome
  | .unary symbol operand => Formula.isUnary registry symbol && operand.isSupported registry
  | .binary symbol left right =>
    Formula.isBinary registry symbol && left.isSupported registry && right.isSupported registry
  | .call name operands =>
    isPlainName name && (registry.function? name).any (·.accepts operands.length)
      && areSupported registry operands

/-- Whether a registry supports several sketches. -/
def areSupported (registry : Registry) : List Sketch → Bool
  | [] => true
  | s :: rest => s.isSupported registry && areSupported registry rest

end

/-- Sketches are supported if each of them is. -/
theorem areSupported_iff {operands : List Sketch} :
    areSupported registry operands = true ↔ ∀ s ∈ operands, s.isSupported registry = true := by
  induction operands with
  | nil => simp [areSupported]
  | cons s operands ih => simp [areSupported, ih]

end Sketch

/-! ### Words of phrases -/

/-- Words that are a phrase of some term when a blank stands before each. The operator between two
operands that is outermost in its formula is given, if there is one. -/
def Worded (registry : Registry) (words : List String) (term : Term)
    (topmost? : Option String) : Prop :=
  ∃ p : Phrase registry, p.chars = spaced words ∧ p.term = term ∧
    p.formula.topmost? = topmost?

/-- The text of a leaf is a word. -/
theorem worded_leaf {text : String} {t : Term} (h : Sketch.leafTerm? registry text = some t) :
    Worded registry [text] t none := by
  have hsingle : ∀ (f : Formula) (token : Token) (first last : Located),
      tokenize registry text = .ok [first, last] → first.token = token →
      f.tokens = [token] → f.isOrdered registry = true → f.term? registry = some t →
      f.topmost? = none → Worded registry [text] t none := by
    intro f token first last htokens hfirst hf hordered hmeaning htop
    obtain ⟨tokens, expectsAfter, hrow, hspells⟩ := spells_of_tokensFrom htokens
    have heq : tokens = f.tokens := by
      have hlength := congrArg List.length hrow
      cases tokens with
      | nil => cases hlength
      | cons u us =>
        cases us with
        | nil =>
          have hu : first.token = u := (List.cons.inj hrow).1
          rw [hf, ← hfirst, hu]
        | cons v vs => simp at hlength
    rw [heq] at hspells
    let p : Phrase registry := ⟨text.toList, f, t, hordered, ⟨_, hspells⟩, hmeaning⟩
    exact ⟨p.indent, by simp [spaced, p, Phrase.indent], rfl, htop⟩
  unfold Sketch.leafTerm? at h
  split at h
  next i value last htokens =>
    exact hsingle (.literal value) _ _ _ htokens rfl rfl rfl h rfl
  next i name last htokens =>
    exact hsingle (.reference name) _ _ _ htokens rfl rfl rfl h rfl
  · cases h

section

variable (reachable : registry.Reachable)

include reachable

/-- Parentheses around words leave no operator outermost. -/
theorem Worded.enclose {words : List String} {t : Term} {topmost? : Option String}
    (h : Worded registry words t topmost?) (needed : Bool) :
    Worded registry (Sketch.enclose needed words) t (if needed then none else topmost?) := by
  cases needed with
  | false => exact h
  | true =>
    obtain ⟨p, hchars, rfl, -⟩ := h
    refine ⟨(p.group reachable [' '] all_isBlank_space).indent, ?_, rfl, rfl⟩
    simp [Phrase.indent, Phrase.group, hchars, Sketch.enclose, spaced]

/-- An operator before words. -/
theorem Worded.unary {symbol : String} {o : Operator} (ho : registry.operator? symbol = some o)
    (hunary : o.isUnary = true) {words : List String} {t : Term}
    (h : Worded registry words t none) :
    Worded registry (symbol :: words) (.apply o.function [t]) none := by
  obtain ⟨p, hchars, rfl, htop⟩ := h
  have hapart : startsApart p.chars = true := hchars ▸ startsApart_spaced words
  refine ⟨(Phrase.unary reachable ho hunary p hapart htop).indent, ?_, rfl, rfl⟩
  rw [spaced_cons, ← hchars]
  rfl

/-- An operator between words, if its rank lets it stand there. -/
theorem Worded.binary {symbol : String} {o : Operator} (ho : registry.operator? symbol = some o)
    (hbinary : o.isUnary = false) {left right : List String} {u v : Term}
    {leftmost? rightmost? : Option String} (hl : Worded registry left u leftmost?)
    (hr : Worded registry right v rightmost?)
    (hleft : leftmost?.all fun other => Formula.rankOf registry other ≤
      Formula.rankOf registry symbol)
    (hright : rightmost?.all fun other => Formula.rankOf registry other <
      Formula.rankOf registry symbol) :
    Worded registry (left ++ symbol :: right) (.apply o.function [u, v]) (some symbol) := by
  obtain ⟨p, hpchars, rfl, rfl⟩ := hl
  obtain ⟨q, hqchars, rfl, rfl⟩ := hr
  rw [rankOf_of_operator ho] at hleft hright
  have hapart : startsApart q.chars = true := hqchars ▸ startsApart_spaced right
  refine ⟨Phrase.binary reachable ho hbinary p q hapart hleft hright, ?_, rfl, rfl⟩
  rw [spaced_append, spaced_cons, ← hpchars, ← hqchars]
  rfl

omit reachable in
/-- Operands whose words are phrases. -/
theorem phrases_of_worded {print : Sketch → List String} {operands : List Sketch}
    {ts : List Term} (h : List.Forall₂ (fun s t => ∃ topmost?, Worded registry (print s) t topmost?)
      operands ts) :
    ∃ ps : List (Phrase registry), ps.map Phrase.chars = operands.map (fun s => spaced (print s)) ∧
      ps.map Phrase.term = ts := by
  induction h with
  | nil => exact ⟨[], rfl, rfl⟩
  | cons hs _ ih =>
    obtain ⟨topmost?, p, hchars, hterm, -⟩ := hs
    obtain ⟨ps, hallChars, hallTerms⟩ := ih
    exact ⟨p :: ps, congrArg₂ List.cons hchars hallChars, congrArg₂ List.cons hterm hallTerms⟩

/-- A call with words for its operands. -/
theorem worded_call {name : String} (plain : isPlainName name = true) {function : Signature}
    (hf : registry.function? name = some function) {print : Sketch → List String}
    {operands : List Sketch} {ts : List Term}
    (h : List.Forall₂ (fun s t => ∃ topmost?, Worded registry (print s) t topmost?) operands ts)
    (accepts : function.accepts ts.length = true) {words : List String}
    (hwords : spaced words = [' ', ','].intercalate (operands.map fun s => spaced (print s))) :
    Worded registry (("$" ++ name ++ "$") :: "(" :: words ++ [")"]) (.apply function ts) none := by
  obtain ⟨ps, hchars, rfl⟩ := phrases_of_worded h
  rw [List.length_map] at accepts
  refine ⟨(Phrase.call reachable plain hf ps accepts [' '] [] all_isBlank_space rfl).indent, ?_,
    rfl, rfl⟩
  simp only [Phrase.indent, Phrase.call, hchars, List.cons_append, spaced_cons, spaced_append,
    hwords]
  simp [spaced]

end

/-! ### Both texts -/

/-- An operand that needs no parentheses to the left of an operator fits there. -/
theorem Sketch.all_of_needsLeft (registry : Registry) (rank : Nat) (s : Sketch) :
    (if s.needsLeft registry rank then none else s.topmost?).all
      fun symbol => Formula.rankOf registry symbol ≤ rank := by
  unfold needsLeft
  cases s.topmost? with
  | none => simp
  | some symbol =>
    by_cases h : rank < Formula.rankOf registry symbol
    · simp [h]
    · simp [h, Nat.le_of_not_lt h]

/-- An operand that needs no parentheses to the right of an operator fits there. -/
theorem Sketch.all_of_needsRight (registry : Registry) (rank : Nat) (s : Sketch) :
    (if s.needsRight registry rank then none else s.topmost?).all
      fun symbol => Formula.rankOf registry symbol < rank := by
  unfold needsRight
  cases s.topmost? with
  | none => simp
  | some symbol =>
    by_cases h : rank ≤ Formula.rankOf registry symbol
    · simp [h]
    · simp [h, Nat.lt_of_not_le h]

/-- A sketch has a term, and both its spellings are phrases of that term. -/
structure Spelled (registry : Registry) (s : Sketch) (t : Term) : Prop where
  /-- The term is that of the sketch. -/
  term_eq : s.term? registry = some t
  /-- The words with the parentheses that it needs. Its own operator stays outermost. -/
  words : Worded registry (s.words registry) t s.topmost?
  /-- The words with all parentheses. No operator stays outermost. -/
  allWords : Worded registry s.allWords t none

/-- Entries that each have something of a kind have a list of these. -/
theorem exists_forall₂ {α β : Type} {R : α → β → Prop} {xs : List α}
    (h : ∀ x ∈ xs, ∃ y, R x y) : ∃ ys, List.Forall₂ R xs ys := by
  induction xs with
  | nil => exact ⟨[], .nil⟩
  | cons x xs ih =>
    obtain ⟨hx, hxs⟩ := List.forall_mem_cons.mp h
    obtain ⟨y, hy⟩ := hx
    obtain ⟨ys, hys⟩ := ih hxs
    exact ⟨y :: ys, .cons hy hys⟩

/-- The terms of operands that have one. -/
theorem termsOf?_of_spelled {operands : List Sketch} {ts : List Term}
    (h : List.Forall₂ (Spelled registry) operands ts) :
    Sketch.termsOf? registry operands = some ts := by
  induction h with
  | nil => rfl
  | cons hs _ ih => rw [Sketch.termsOf?, hs.term_eq, ih]

/-- Every sketch that a registry supports is spelled, by induction over the sketch. -/
theorem exists_spelled (reachable : registry.Reachable) (s : Sketch)
    (h : s.isSupported registry = true) : ∃ t, Spelled registry s t := by
  induction s using Sketch.induction with
  | leaf text =>
    rw [Sketch.isSupported] at h
    obtain ⟨t, ht⟩ := Option.isSome_iff_exists.mp h
    have hterm : (Sketch.leaf text).term? registry = some t := by
      rw [Sketch.term?, ht]
    exact ⟨t, hterm, worded_leaf ht, worded_leaf ht⟩
  | unary symbol operand ih =>
    rw [Sketch.isSupported, Bool.and_eq_true] at h
    obtain ⟨o, ho, hunary⟩ := (Option.any_eq_true _ _).mp h.1
    obtain ⟨t, ht⟩ := ih h.2
    have hterm : (Sketch.unary symbol operand).term? registry = some (.apply o.function [t]) := by
      simp only [Sketch.term?, ho, ht.term_eq, hunary, if_true]
    have hoperand := ht.words.enclose reachable operand.topmost?.isSome
    have hnone : (if operand.topmost?.isSome then none else operand.topmost?) = none := by
      cases operand.topmost? <;> rfl
    rw [hnone] at hoperand
    exact ⟨_, hterm, hoperand.unary reachable ho hunary,
      (ht.allWords.unary reachable ho hunary).enclose reachable true⟩
  | binary symbol left right ihLeft ihRight =>
    rw [Sketch.isSupported, Bool.and_eq_true, Bool.and_eq_true] at h
    obtain ⟨o, ho, hbinary⟩ := (Option.any_eq_true _ _).mp h.1.1
    replace hbinary : o.isUnary = false := by simpa using hbinary
    obtain ⟨u, hu⟩ := ihLeft h.1.2
    obtain ⟨v, hv⟩ := ihRight h.2
    have hterm : (Sketch.binary symbol left right).term? registry =
        some (.apply o.function [u, v]) := by
      simp only [Sketch.term?, ho, hu.term_eq, hv.term_eq, hbinary, Bool.false_eq_true, if_false]
    -- Behind parentheses no operator is outermost; without them it is one that fits.
    have hleft := hu.words.enclose reachable
      (left.needsLeft registry (Formula.rankOf registry symbol))
    have hright := hv.words.enclose reachable
      (right.needsRight registry (Formula.rankOf registry symbol))
    have hwords := hleft.binary reachable ho hbinary hright
      (Sketch.all_of_needsLeft registry _ left) (Sketch.all_of_needsRight registry _ right)
    have hall := hu.allWords.binary reachable ho hbinary hv.allWords rfl rfl
    exact ⟨_, hterm, hwords, hall.enclose reachable true⟩
  | call name operands ih =>
    rw [Sketch.isSupported, Bool.and_eq_true, Bool.and_eq_true] at h
    obtain ⟨function, hf, accepts⟩ := (Option.any_eq_true _ _).mp h.1.2
    have heach : ∀ s ∈ operands, ∃ t, Spelled registry s t := fun s hs =>
      ih s hs (Sketch.areSupported_iff.mp h.2 s hs)
    obtain ⟨ts, hts⟩ := exists_forall₂ heach
    rw [hts.length_eq] at accepts
    have hterm : (Sketch.call name operands).term? registry = some (.apply function ts) := by
      simp only [Sketch.term?, hf, termsOf?_of_spelled hts, accepts, if_true]
    have hwords := worded_call reachable h.1.1 hf (hts.imp fun _ _ hs => ⟨_, hs.words⟩) accepts
      (Sketch.spaced_wordsOf registry operands)
    have hall := worded_call reachable h.1.1 hf (hts.imp fun _ _ hs => ⟨_, hs.allWords⟩) accepts
      (Sketch.spaced_allWordsOf operands)
    exact ⟨_, hterm, hwords, hall⟩

/-- A text of words compiles to the code of their term. -/
theorem Worded.compilesTo {words : List String} {t : Term} {topmost? : Option String}
    (h : Worded registry words t topmost?) :
    CompilesTo registry (" ".intercalate words) t.code := by
  obtain ⟨p, hchars, rfl, -⟩ := h
  exact p.compilesTo (hchars ▸ dropWhile_text words)

/-- A sketch that a registry supports has a term, and compiles to the postfix code of it, whether
it is spelled with the parentheses that the ranks of its operators demand and no others or with
parentheses around every operator and its operands. -/
theorem compilesTo_spelled (reachable : registry.Reachable) {s : Sketch}
    (h : s.isSupported registry = true) :
    ∃ t, s.term? registry = some t ∧ CompilesTo registry (s.text registry) t.code ∧
      CompilesTo registry s.fullText t.code := by
  obtain ⟨t, ht⟩ := exists_spelled reachable s h
  exact ⟨t, ht.term_eq, ht.words.compilesTo, ht.allWords.compilesTo⟩

/-- A difference with a difference to its right, under which a prefix and a call stand. -/
theorem compilesTo_spelled_difference :
    let s : Sketch := .binary "-" (.leaf "$a$") (.binary "-" (.unary "!" (.leaf "$b$"))
      (.call "max" [.binary "*" (.leaf "$c$") (.leaf "$d$"), .leaf "$a$"]))
    Registry.builtin.Reachable ∧ s.isSupported .builtin = true ∧
      ∃ t, s.term? .builtin = some t ∧
        CompilesTo .builtin "$a$ - ( ! $b$ - $max$ ( $c$ * $d$ , $a$ ) )" t.code ∧
        CompilesTo .builtin "( $a$ - ( ( ! $b$ ) - $max$ ( ( $c$ * $d$ ) , $a$ ) ) )" t.code := by
  intro s
  have hsupported : s.isSupported .builtin = true := by decide +kernel
  have htexts : s.text .builtin = "$a$ - ( ! $b$ - $max$ ( $c$ * $d$ , $a$ ) )" ∧
      s.fullText = "( $a$ - ( ( ! $b$ ) - $max$ ( ( $c$ * $d$ ) , $a$ ) ) )" := by
    decide +kernel
  obtain ⟨t, hterm, htext, hfull⟩ := compilesTo_spelled .builtin hsupported
  rw [htexts.1] at htext
  rw [htexts.2] at hfull
  exact ⟨.builtin, hsupported, t, hterm, htext, hfull⟩

end GateFormula
