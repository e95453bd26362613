import GateFormula.Proofs.Registering
import GateFormula.Proofs.Scanning
import Mathlib.Data.List.Basic

/-!
# The longest symbol

An operator is read by extending a candidate as long as some symbol starts with it, and the
last candidate that is a symbol itself is the answer. The candidates between two symbols need
not be symbols, so the search may go too far and come back. `longestOperator_eq_some_iff`
says what it finds: of all symbols with which the text starts, the longest one.
-/

namespace GateFormula

/-- The symbol of an operator with which a text starts. -/
structure Registry.Leads (registry : Registry) (symbol : String) (text : List Char) : Prop where
  /-- There is such an operator. -/
  registered : (registry.operator? symbol).isSome = true
  /-- The text starts with its symbol. -/
  front : symbol.toList <+: text

/-- The longest symbol with which a text starts. -/
structure Registry.LeadsFarthest (registry : Registry) (symbol : String) (text : List Char) :
    Prop extends registry.Leads symbol text where
  /-- No other one is longer. -/
  longest : ∀ other, registry.Leads other text → other.length ≤ symbol.length

variable {registry : Registry}

/-! ### Searching for a symbol -/

/-- A symbol that is longer than what was seen goes on with the next character. -/
theorem hasOperatorStarting_of_leads {symbol : String} {seen cs : List Char} {c : Char}
    (h : registry.Leads symbol (seen ++ c :: cs)) (hlength : seen.length < symbol.length) :
    registry.hasOperatorStarting (seen ++ [c]) = true := by
  have htext : seen ++ [c] <+: seen ++ c :: cs :=
    (List.prefix_append_right_inj seen).mpr ⟨cs, rfl⟩
  have hbound : (seen ++ [c]).length ≤ symbol.toList.length := by
    rw [String.length_toList, List.length_append, List.length_singleton]
    omega
  have hinitial : seen ++ [c] <+: symbol.toList :=
    List.prefix_of_prefix_length_le htext h.front hbound
  exact Registry.hasOperatorStarting_iff.mpr ⟨symbol, h.registered, hinitial⟩

/-- The symbol that ends with the next character is what was seen with this character. -/
theorem toList_of_leads {symbol : String} {seen cs : List Char} {c : Char}
    (h : registry.Leads symbol (seen ++ c :: cs)) (hlength : symbol.length = seen.length + 1) :
    symbol.toList = seen ++ [c] := by
  have htext : seen ++ [c] <+: seen ++ c :: cs :=
    (List.prefix_append_right_inj seen).mpr ⟨cs, rfl⟩
  have hsame : symbol.toList.length = (seen ++ [c]).length := by
    rw [String.length_toList, List.length_append, List.length_singleton, hlength]
  have hinitial : symbol.toList <+: seen ++ [c] :=
    List.prefix_of_prefix_length_le h.front htext (Nat.le_of_eq hsame)
  exact hinitial.eq_of_length hsame

/-- If nothing is found, no symbol with which the text starts is longer than what was seen. -/
theorem length_le_of_longestOperator_eq_none {seen cs : List Char}
    (h : Lexeme.longestOperator registry seen cs = none) {symbol : String}
    (hs : registry.Leads symbol (seen ++ cs)) : symbol.length ≤ seen.length := by
  induction cs generalizing seen with
  | nil =>
    have hlength := hs.front.length_le
    rw [List.append_nil, String.length_toList] at hlength
    exact hlength
  | cons c cs ih =>
    refine Nat.not_lt.mp fun hlonger => ?_
    have hstarts := hasOperatorStarting_of_leads hs (by omega)
    simp only [Lexeme.longestOperator, hstarts, if_true] at h
    split at h
    · cases h
    next hfurther =>
      split at h
      · cases h
      next hseen =>
        have hlead : registry.Leads symbol ((seen ++ [c]) ++ cs) := by
          rw [List.append_assoc]
          exact hs
        have hbound := ih hfurther hlead
        rw [List.length_append, List.length_singleton] at hbound
        have htoList : symbol.toList = seen ++ [c] := toList_of_leads hs (by omega)
        rw [← htoList, String.ofList_toList] at hseen
        exact hseen hs.registered

/-- What is found is a symbol, longer than what was seen, and no symbol with which the text
starts is longer. -/
theorem leadsFarthest_of_longestOperator {seen cs found rest : List Char}
    (h : Lexeme.longestOperator registry seen cs = some (found, rest)) :
    registry.LeadsFarthest (.ofList found) (seen ++ cs) ∧ seen.length < found.length := by
  have happend : found ++ rest = seen ++ cs := (Lexeme.longestOperator_append h).1
  have hfront : (String.ofList found).toList <+: seen ++ cs := by
    rw [String.toList_ofList]
    exact ⟨rest, happend⟩
  induction cs generalizing seen with
  | nil => simp only [Lexeme.longestOperator, reduceCtorEq] at h
  | cons c cs ih =>
    have htext : (seen ++ [c]) ++ cs = seen ++ c :: cs := by
      rw [List.append_assoc]
      rfl
    simp only [Lexeme.longestOperator] at h
    split at h
    · split at h
      next found' hfurther =>
        cases h
        obtain ⟨hlead, hlength⟩ :=
          ih hfurther (happend.trans htext.symm) (htext.symm ▸ hfront)
        rw [List.length_append, List.length_singleton] at hlength
        rw [htext] at hlead
        exact ⟨hlead, by omega⟩
      next hfurther =>
        split at h
        next hregistered =>
          obtain ⟨rfl, rfl⟩ : seen ++ [c] = found ∧ cs = rest := by simpa using h
          have hlongest : ∀ other, registry.Leads other (seen ++ c :: cs) →
              other.length ≤ (String.ofList (seen ++ [c])).length := by
            intro other hother
            have hbound := length_le_of_longestOperator_eq_none hfurther (htext.symm ▸ hother)
            rwa [String.length_ofList]
          refine ⟨⟨⟨hregistered, hfront⟩, hlongest⟩, ?_⟩
          rw [List.length_append, List.length_singleton]
          omega
        · cases h
    · cases h

/-- Two longest symbols with which a text starts are one. -/
theorem Registry.LeadsFarthest.unique {symbol other : String} {text : List Char}
    (h : registry.LeadsFarthest symbol text) (ho : registry.LeadsFarthest other text) :
    symbol = other := by
  have hlength : symbol.toList.length = other.toList.length := by
    have hle := ho.longest symbol h.toLeads
    have hge := h.longest other ho.toLeads
    rw [String.length_toList, String.length_toList]
    omega
  have hinitial : symbol.toList <+: other.toList :=
    List.prefix_of_prefix_length_le h.front ho.front (Nat.le_of_eq hlength)
  exact String.toList_injective (hinitial.eq_of_length hlength)

/-- The search finds the longest symbol with which the text starts, and what follows it. -/
theorem longestOperator_eq_some_iff {text found rest : List Char} :
    Lexeme.longestOperator registry [] text = some (found, rest) ↔
      registry.LeadsFarthest (.ofList found) text ∧ found ≠ [] ∧ text = found ++ rest := by
  constructor
  · intro h
    obtain ⟨hlead, hlength⟩ := leadsFarthest_of_longestOperator h
    have happend := (Lexeme.longestOperator_append h).1
    exact ⟨hlead, List.ne_nil_of_length_pos hlength, happend.symm⟩
  · rintro ⟨hlead, hne, rfl⟩
    cases hfound : Lexeme.longestOperator registry [] (found ++ rest) with
    | none =>
      have hlength := length_le_of_longestOperator_eq_none hfound hlead.toLeads
      rw [String.length_ofList] at hlength
      exact absurd (List.length_eq_zero_iff.mp (Nat.le_zero.mp hlength)) hne
    | some answer =>
      obtain ⟨other, after⟩ := answer
      obtain ⟨hother, -⟩ := leadsFarthest_of_longestOperator hfound
      have hsame : other = found := String.ofList_injective (hother.unique hlead)
      have happend := (Lexeme.longestOperator_append hfound).1
      rw [hsame] at happend ⊢
      rw [List.append_cancel_left happend]

/-- The search finds nothing if the text starts with no symbol but the empty one. -/
theorem longestOperator_eq_none_iff {text : List Char} :
    Lexeme.longestOperator registry [] text = none ↔
      ∀ symbol, registry.Leads symbol text → symbol = "" := by
  constructor
  · intro h symbol hs
    have hlength := length_le_of_longestOperator_eq_none h hs
    exact String.length_eq_zero_iff.mp (Nat.le_zero.mp hlength)
  · intro h
    cases hfound : Lexeme.longestOperator registry [] text with
    | none => rfl
    | some answer =>
      obtain ⟨hlead, hne, -⟩ := longestOperator_eq_some_iff.mp hfound
      have hempty := congrArg String.toList (h _ hlead.toLeads)
      rw [String.toList_ofList] at hempty
      exact absurd hempty hne

/-- The search stops behind the longest symbol in front. -/
theorem rest_of_longestOperator {text found rest : List Char}
    (h : Lexeme.longestOperator registry [] text = some (found, rest)) :
    registry.LeadsFarthest (.ofList found) text ∧ rest = text.drop found.length := by
  obtain ⟨hlead, -, hsplit⟩ := longestOperator_eq_some_iff.mp h
  refine ⟨hlead, ?_⟩
  rw [hsplit, List.drop_left]

/-- No symbol of a registry that a host can build is empty, so that a symbol in front is one that
the search finds. -/
theorem not_leads_iff (reachable : registry.Reachable) {text : List Char} :
    Lexeme.longestOperator registry [] text = none ↔ ∀ symbol, ¬registry.Leads symbol text := by
  have hnonempty : ∀ {symbol}, registry.Leads symbol text → symbol ≠ "" := by
    rintro symbol hlead rfl
    obtain ⟨o, ho⟩ := Option.isSome_iff_exists.mp hlead.registered
    exact (reachable.symbol_chars ho).1 rfl
  rw [longestOperator_eq_none_iff]
  exact forall_congr' fun symbol =>
    ⟨fun h hlead => hnonempty hlead (h hlead), fun h hlead => absurd hlead h⟩

/-! ### Reading an operator -/

/-- Whether an operator is read in front of a text: its first character starts a symbol and is not
the sign of a number. -/
def Lexeme.scansOperator (registry : Registry) (expectOperand : Bool) (c : Char)
    (cs : List Char) : Bool :=
  registry.startsOperator c && !(c = '-' && expectOperand && cs.head?.any startsNumber)

/-- Whether an operator is read in the next step. -/
def Cursor.scansOperator (registry : Registry) (expectOperand : Bool) (cursor : Cursor) : Bool :=
  match cursor.skipBlanks.rest with
  | [] => false
  | c :: cs => Lexeme.scansOperator registry expectOperand c cs

variable {expectOperand : Bool}

/-- Where an operator is read, nothing else is tried. -/
theorem read_of_scansOperator (reachable : registry.Reachable) {c : Char} {cs : List Char}
    (h : Lexeme.scansOperator registry expectOperand c cs = true) :
    Lexeme.read registry expectOperand c cs = Lexeme.ofOperator registry (c :: cs) := by
  simp only [Lexeme.scansOperator, Bool.and_eq_true, Bool.not_eq_true'] at h
  obtain ⟨hstarts, hsign⟩ := h
  have hc := reachable.isSymbolChar_of_startsOperator hstarts
  have hopening : c ≠ '(' := ne_of_charClass hc (by decide)
  have hclosing : c ≠ ')' := ne_of_charClass hc (by decide)
  have hcomma : c ≠ ',' := ne_of_charClass hc (by decide)
  have hsigil : c ≠ '$' := ne_of_charClass hc (by decide)
  simp only [Lexeme.read, hopening, hclosing, hcomma, hsigil, hsign, hstarts, if_false, if_true,
    Bool.false_eq_true]

/-- Whether the answer to reading a token is an operator or that there is none. -/
def Lexeme.concernsOperator : Except SyntaxFault Lexeme → Bool
  | .ok ⟨_, .operator _, _⟩ | .error .unknownOperator => true
  | .ok _ | .error _ => false

/-- A bare word is no operator. -/
theorem concernsOperator_ofWord (c : Char) (cs : List Char) :
    Lexeme.concernsOperator (.ok (Lexeme.ofWord registry c cs)) = false := by
  have hcases := Lexeme.ofWord_cases registry c cs
  generalize Lexeme.ofWord registry c cs = lexeme at hcases ⊢
  obtain ⟨text, token, rest⟩ := lexeme
  rcases hcases with ⟨value, hw⟩ | ⟨name, hw⟩ | ⟨name, hw⟩ <;> cases hw <;> rfl

/-- A name between sigils is no operator. -/
theorem concernsOperator_ofSymbol (cs : List Char) :
    Lexeme.concernsOperator (Lexeme.ofSymbol cs) = false := by
  unfold Lexeme.ofSymbol
  split
  · rfl
  next body rest _ =>
    simp only
    split
    · rfl
    · cases Lexeme.opensCall rest <;> rfl

/-- The answer is about an operator exactly where an operator is read. -/
theorem concernsOperator_read (reachable : registry.Reachable) (c : Char) (cs : List Char) :
    Lexeme.concernsOperator (Lexeme.read registry expectOperand c cs) =
      Lexeme.scansOperator registry expectOperand c cs := by
  cases hscans : Lexeme.scansOperator registry expectOperand c cs with
  | true =>
    rw [read_of_scansOperator reachable hscans, Lexeme.ofOperator]
    split <;> rfl
  | false =>
    unfold Lexeme.read
    split
    · rfl
    split
    · rfl
    split
    · rfl
    split
    · exact concernsOperator_ofSymbol cs
    split
    · exact concernsOperator_ofWord c cs
    next hsign =>
      split
      next hstarts =>
        rw [Lexeme.scansOperator, hstarts, eq_false_of_ne_true hsign] at hscans
        cases hscans
      · exact concernsOperator_ofWord c cs

/-- A step that reads an operator reads the longest symbol in front of it, and fails if there is
none. -/
theorem next_of_scansOperator (reachable : registry.Reachable) {cursor : Cursor}
    (h : cursor.scansOperator registry expectOperand = true) :
    cursor.next registry expectOperand =
      match Lexeme.longestOperator registry [] cursor.skipBlanks.rest with
      | some (found, rest) =>
        (.ok ⟨cursor.skipBlanks.position, .operator (.ofList found)⟩,
          ⟨cursor.skipBlanks.position + found.length, rest⟩)
      | none => (.error ⟨cursor.skipBlanks.position, .unknownOperator⟩, cursor.skipBlanks) := by
  unfold Cursor.scansOperator at h
  split at h
  · cases h
  next c cs front =>
    have hread := read_of_scansOperator reachable h
    rw [Lexeme.ofOperator, ← front] at hread
    cases hfound : Lexeme.longestOperator registry [] cursor.skipBlanks.rest with
    | none =>
      rw [hfound] at hread
      exact Cursor.steps_iff.mp (.fault front hread)
    | some answer =>
      rw [hfound] at hread
      exact Cursor.steps_iff.mp (.token front hread rfl)

/-- An answer about an operator comes from reading one. -/
theorem scansOperator_of_next (reachable : registry.Reachable) {cursor after : Cursor}
    {answer : Except SyntaxError Located}
    (h : cursor.next registry expectOperand = (answer, after))
    (ha : (∃ index symbol, answer = .ok ⟨index, .operator symbol⟩) ∨
      ∃ index, answer = .error ⟨index, .unknownOperator⟩) :
    cursor.scansOperator registry expectOperand = true := by
  have hscans : ∀ {c cs}, cursor.skipBlanks.rest = c :: cs →
      Lexeme.concernsOperator (Lexeme.read registry expectOperand c cs) = true →
        cursor.scansOperator registry expectOperand = true := by
    intro c cs front hconcerns
    rw [concernsOperator_read reachable] at hconcerns
    simp only [Cursor.scansOperator, front, hconcerns]
  cases Cursor.steps_iff.mpr h with
  | finish blank => simp at ha
  | fault front read =>
    obtain ⟨index, symbol, hsame⟩ | ⟨index, hsame⟩ := ha
    · cases hsame
    · cases hsame
      exact hscans front (by rw [read]; rfl)
  | attached front read sigil => simp at ha
  | @token c cs lexeme front read apart =>
    obtain ⟨index, symbol, hsame⟩ | ⟨index, hsame⟩ := ha
    · obtain ⟨text, token, rest⟩ := lexeme
      cases hsame
      exact hscans front (by rw [read]; rfl)
    · cases hsame

/-- An operator is read by longest match. Where a step reads one, the answer is the longest symbol
of the registry with which the characters that remain start, and the cursor moves behind the
characters of the symbol. If they start with no symbol the answer is an error about the operator,
and the cursor stays in front of it. There is one or the other, and neither anywhere else. -/
theorem next_operator_iff (reachable : registry.Reachable) (expectOperand : Bool)
    (cursor : Cursor) :
    (∀ symbol index after,
      cursor.next registry expectOperand = (.ok ⟨index, .operator symbol⟩, after) ↔
        cursor.scansOperator registry expectOperand = true ∧
        registry.LeadsFarthest symbol cursor.skipBlanks.rest ∧
        index = cursor.skipBlanks.position ∧
        after = ⟨index + symbol.length, cursor.skipBlanks.rest.drop symbol.length⟩) ∧
    (∀ index after,
      cursor.next registry expectOperand = (.error ⟨index, .unknownOperator⟩, after) ↔
        cursor.scansOperator registry expectOperand = true ∧
        (∀ symbol, ¬registry.Leads symbol cursor.skipBlanks.rest) ∧
        index = cursor.skipBlanks.position ∧ after = cursor.skipBlanks) ∧
    (cursor.scansOperator registry expectOperand = true →
      (∃ symbol, registry.LeadsFarthest symbol cursor.skipBlanks.rest) ∨
        ∀ symbol, ¬registry.Leads symbol cursor.skipBlanks.rest) := by
  refine ⟨fun symbol index after => ?_, fun index after => ?_, fun hscans => ?_⟩
  · constructor
    · intro h
      have hscans := scansOperator_of_next reachable h (.inl ⟨index, symbol, rfl⟩)
      rw [next_of_scansOperator reachable hscans] at h
      split at h
      next found rest hsearch =>
        obtain ⟨hlead, hrest⟩ := rest_of_longestOperator hsearch
        cases h
        rw [String.length_ofList]
        exact ⟨hscans, hlead, rfl, congrArg _ hrest⟩
      · cases h
    · rintro ⟨hscans, hlead, rfl, rfl⟩
      rw [next_of_scansOperator reachable hscans]
      split
      next found rest hsearch =>
        obtain ⟨hother, hrest⟩ := rest_of_longestOperator hsearch
        rw [hlead.unique hother, String.length_ofList, hrest]
      next hsearch => exact absurd hlead.toLeads ((not_leads_iff reachable).mp hsearch symbol)
  · constructor
    · intro h
      have hscans := scansOperator_of_next reachable h (.inr ⟨index, rfl⟩)
      rw [next_of_scansOperator reachable hscans] at h
      split at h
      · cases h
      next hsearch =>
        cases h
        exact ⟨hscans, (not_leads_iff reachable).mp hsearch, rfl, rfl⟩
    · rintro ⟨hscans, hleads, rfl, rfl⟩
      rw [next_of_scansOperator reachable hscans, (not_leads_iff reachable).mpr hleads]
  · cases hsearch : Lexeme.longestOperator registry [] cursor.skipBlanks.rest with
    | none => exact .inr ((not_leads_iff reachable).mp hsearch)
    | some answer => exact .inl ⟨_, (rest_of_longestOperator hsearch).1⟩

/-- Symbols that start with one another: on the way to a symbol that does not stand there, the
search passes a text that is no symbol and comes back to the one before. A text with which symbols
start may still have none in front. -/
theorem next_operator_iff_overlapping :
    ∃ registry : Registry, registry.Reachable ∧ (registry.operator? "<=>>").isSome = true ∧
      (Cursor.start " <=>$x$").next registry false =
        (.ok ⟨1, .operator "<="⟩, ⟨3, ['>', '$', 'x', '$']⟩) ∧
      registry.LeadsFarthest "<=" "<=>$x$".toList ∧
      (Cursor.start "&$x$").next registry false =
        (.error ⟨0, .unknownOperator⟩, .start "&$x$") ∧
      ∀ symbol, ¬registry.Leads symbol "&$x$".toList := by
  let arrow : Operator := Builtin.arithmetic "<=>>" 3 fun x _ => x
  let registry := Registry.builtin.putOperator arrow
  have checked : Registry.builtin.addOperator arrow = .ok registry := by
    rw [Registry.addOperator, if_neg (by decide), if_neg (by decide), if_pos (by decide)]
  have reachable : registry.Reachable := .addOperator .builtin arrow checked
  have hstep : (Cursor.start " <=>$x$").next registry false =
      (.ok ⟨1, .operator "<="⟩, ⟨3, ['>', '$', 'x', '$']⟩) := by
    decide +kernel
  have hfault : (Cursor.start "&$x$").next registry false =
      (.error ⟨0, .unknownOperator⟩, .start "&$x$") := by
    decide +kernel
  have hlongest := ((next_operator_iff reachable false (.start " <=>$x$")).1 "<=" 1 _).mp hstep
  have hnone := ((next_operator_iff reachable false (.start "&$x$")).2.1 0 _).mp hfault
  exact ⟨registry, reachable, by decide +kernel, hstep, hlongest.2.1, hfault, hnone.2.1⟩

end GateFormula
