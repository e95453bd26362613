import GateFormula.Proofs.Taking

/-!
# Scanning first and assembling then

A formula is scanned and assembled in one pass, in which the assembly tells the scanner
whether an operand comes next. The token before tells the same, so that the pass yields
what scanning the whole text and taking its tokens one by one yields. `run_eq` is that
equality: the first error wins, be it one of scanning or one of taking.
-/

namespace GateFormula

/-! ### Single tokens -/

/-- A token that is read is a parenthesis or a comma, or it is read between sigils, as an operator
or as a bare word. -/
theorem Lexeme.read_cases (registry : Registry) (expectOperand : Bool) (c : Char)
    (cs : List Char) :
    (∃ token, (token = .opening ∨ token = .closing ∨ token = .comma) ∧
      read registry expectOperand c cs = .ok ⟨[c], token, cs⟩) ∨
    (c = '$' ∧ read registry expectOperand c cs = ofSymbol cs) ∨
    (registry.startsOperator c = true ∧
      read registry expectOperand c cs = ofOperator registry (c :: cs)) ∨
    read registry expectOperand c cs = .ok (ofWord registry c cs) := by
  unfold read
  split
  · exact .inl ⟨.opening, .inl rfl, rfl⟩
  split
  · exact .inl ⟨.closing, .inr (.inl rfl), rfl⟩
  split
  · exact .inl ⟨.comma, .inr (.inr rfl), rfl⟩
  split
  next hsigil => exact .inr (.inl ⟨hsigil, rfl⟩)
  split
  · exact .inr (.inr (.inr rfl))
  split
  next hstarts => exact .inr (.inr (.inl ⟨hstarts, rfl⟩))
  · exact .inr (.inr (.inr rfl))

/-- A bare word is a number, a function or a constant. -/
theorem Lexeme.ofWord_cases (registry : Registry) (c : Char) (cs : List Char) :
    (∃ value, (ofWord registry c cs).token = .literal value) ∨
    (∃ name, (ofWord registry c cs).token = .call name) ∨
    ∃ name, (ofWord registry c cs).token = .constant name := by
  have hnamed : ∀ word rest : List Char,
      let named := if opensCall rest then Token.call (.ofList word) else .constant (.ofList word)
      (∃ name, named = .call name) ∨ ∃ name, named = .constant name := by
    intro word rest
    simp only
    split
    · exact .inl ⟨_, rfl⟩
    · exact .inr ⟨_, rfl⟩
  simp only [ofWord, wordToken]
  split
  · split
    · split
      next value _ _ => exact .inl ⟨value, rfl⟩
      · exact .inr (hnamed _ _)
    · exact .inr (hnamed _ _)
  · exact .inr (hnamed _ _)

/-- An operator that is read is one. -/
theorem Lexeme.ofOperator_token {registry : Registry} {cs : List Char} {lexeme : Lexeme}
    (h : ofOperator registry cs = .ok lexeme) : ∃ symbol, lexeme.token = .operator symbol := by
  unfold ofOperator at h
  split at h <;> cases h
  exact ⟨_, rfl⟩

/-! ### Steps -/

/-- What a step of a cursor yields, and where the next one begins. -/
inductive Cursor.Steps (registry : Registry) (expectOperand : Bool) (cursor : Cursor) :
    Except SyntaxError Located × Cursor → Prop where
  /-- Only blanks are left. -/
  | finish (blank : cursor.skipBlanks.rest = []) :
      Steps registry expectOperand cursor
        (.ok ⟨cursor.skipBlanks.position, .finish⟩, cursor.skipBlanks)
  /-- No token can be read. -/
  | fault {c : Char} {cs : List Char} {fault : SyntaxFault}
      (front : cursor.skipBlanks.rest = c :: cs)
      (read : Lexeme.read registry expectOperand c cs = .error fault) :
      Steps registry expectOperand cursor
        (.error ⟨cursor.skipBlanks.position, fault⟩, cursor.skipBlanks)
  /-- A sigil is attached to the token. -/
  | attached {c : Char} {cs : List Char} {lexeme : Lexeme}
      (front : cursor.skipBlanks.rest = c :: cs)
      (read : Lexeme.read registry expectOperand c cs = .ok lexeme)
      (sigil : lexeme.hasSigilAttached = true) :
      Steps registry expectOperand cursor
        (.error ⟨cursor.skipBlanks.position + lexeme.text.length, .unexpectedSigil⟩,
          ⟨cursor.skipBlanks.position + lexeme.text.length, lexeme.rest⟩)
  /-- A token is read. -/
  | token {c : Char} {cs : List Char} {lexeme : Lexeme}
      (front : cursor.skipBlanks.rest = c :: cs)
      (read : Lexeme.read registry expectOperand c cs = .ok lexeme)
      (apart : lexeme.hasSigilAttached = false) :
      Steps registry expectOperand cursor
        (.ok ⟨cursor.skipBlanks.position, lexeme.token⟩,
          ⟨cursor.skipBlanks.position + lexeme.text.length, lexeme.rest⟩)

/-- A step does one of these things. -/
theorem Cursor.steps_iff {registry : Registry} {expectOperand : Bool} {cursor : Cursor}
    {answer : Except SyntaxError Located × Cursor} :
    cursor.Steps registry expectOperand answer ↔ cursor.next registry expectOperand = answer := by
  constructor
  · intro h
    cases h with
    | finish blank => simp only [next, blank]
    | fault front read => simp only [next, front, read]
    | attached front read sigil => simp only [next, front, read, sigil, if_true]
    | token front read apart => simp only [next, front, read, apart, Bool.false_eq_true, if_false]
  · rintro rfl
    cases hrest : cursor.skipBlanks.rest with
    | nil =>
      simp only [next, hrest]
      exact .finish hrest
    | cons c cs =>
      cases hread : Lexeme.read registry expectOperand c cs with
      | error fault =>
        simp only [next, hrest, hread]
        exact .fault hrest hread
      | ok lexeme =>
        simp only [next, hrest, hread]
        split
        next hsigil => exact .attached hrest hread hsigil
        next hapart => exact .token hrest hread (eq_false_of_ne_true hapart)

/-- What a step leaves is the end of what was there. -/
theorem Cursor.rest_suffix_of_next {registry : Registry} {expectOperand : Bool}
    {cursor after : Cursor} {located : Located}
    (h : cursor.next registry expectOperand = (.ok located, after)) :
    after.rest <:+ cursor.rest := by
  have hskip : cursor.skipBlanks.rest <:+ cursor.rest := List.dropWhile_suffix _
  cases steps_iff.mpr h with
  | finish blank => exact hskip
  | @token c cs lexeme front read apart =>
    have hbehind : lexeme.rest <:+ cursor.skipBlanks.rest :=
      ⟨lexeme.text, (Lexeme.lexeme_split read).1.trans front.symm⟩
    exact hbehind.trans hskip

/-! ### Scans -/

/-- What scanning a text yields. -/
structure Scan where
  /-- The tokens before the end or before the first error. -/
  tokens : List Located
  /-- Index of the end, or the first error. -/
  ending : Except SyntaxError Nat

/-- Scan from a cursor to the end or to the first error. -/
def scan (registry : Registry) (expectOperand : Bool) (cursor : Cursor) : Scan :=
  match _step : cursor.next registry expectOperand with
  | (.error error, _) => ⟨[], .error error⟩
  | (.ok located, after) =>
    if _last : located.token = .finish then ⟨[], .ok located.index⟩
    else
      let further := scan registry located.token.expectsOperandAfter after
      ⟨located :: further.tokens, further.ending⟩
termination_by cursor.rest.length
decreasing_by exact Cursor.next_shortens _step _last

section

variable {registry : Registry} {expectOperand : Bool} {cursor : Cursor}

/-- A scan, one step at a time. -/
theorem scan_eq :
    scan registry expectOperand cursor =
      match cursor.next registry expectOperand with
      | (.error error, _) => ⟨[], .error error⟩
      | (.ok located, after) =>
        if located.token = .finish then ⟨[], .ok located.index⟩
        else
          ⟨located :: (scan registry located.token.expectsOperandAfter after).tokens,
            (scan registry located.token.expectsOperandAfter after).ending⟩ := by
  rw [scan]
  split
  next h => rw [h]
  next h => simp only [h, dite_eq_ite]

/-- The tokens of a text, one step at a time. -/
theorem tokensFrom_next :
    tokensFrom registry expectOperand cursor =
      match cursor.next registry expectOperand with
      | (.error error, _) => .error error
      | (.ok located, after) =>
        if located.token = .finish then .ok [located]
        else (tokensFrom registry located.token.expectsOperandAfter after).map (located :: ·) := by
  rw [tokensFrom]
  split
  next h => rw [h]
  next h => simp only [h, dite_eq_ite]

/-- Assembling, one step at a time. -/
theorem Assembly.run_next (a : Assembly) :
    Assembly.run registry cursor a =
      match cursor.next registry a.expectsOperand with
      | (.error error, _) => (a, some error)
      | (.ok located, after) =>
        match a.take registry located with
        | .error error => (a, some error)
        | .ok b =>
          if located.token = .finish then (b, none) else Assembly.run registry after b := by
  rw [Assembly.run]
  split
  next h => rw [h]
  next located after h =>
    simp only [h]
    cases a.take registry located with
    | error error => rfl
    | ok b => exact dite_eq_ite

/-- A scan that fails at once. -/
theorem scan_error {error : SyntaxError} {after : Cursor}
    (h : cursor.next registry expectOperand = (.error error, after)) :
    scan registry expectOperand cursor = ⟨[], .error error⟩ := by
  rw [scan_eq, h]

/-- A scan that is at the end. -/
theorem scan_finish {located : Located} {after : Cursor}
    (h : cursor.next registry expectOperand = (.ok located, after))
    (ht : located.token = .finish) :
    scan registry expectOperand cursor = ⟨[], .ok located.index⟩ := by
  rw [scan_eq, h]
  exact if_pos ht

/-- A scan that reads a token and goes on. -/
theorem scan_token {located : Located} {after : Cursor}
    (h : cursor.next registry expectOperand = (.ok located, after))
    (ht : located.token ≠ .finish) :
    scan registry expectOperand cursor =
      ⟨located :: (scan registry located.token.expectsOperandAfter after).tokens,
        (scan registry located.token.expectsOperandAfter after).ending⟩ := by
  rw [scan_eq, h]
  exact if_neg ht

end

/-- How a scan goes on, for an induction over the text that remains. -/
theorem scan_induction (registry : Registry) {motive : Bool → Cursor → Prop}
    (error : ∀ expectOperand cursor e after,
      cursor.next registry expectOperand = (.error e, after) → motive expectOperand cursor)
    (finish : ∀ expectOperand cursor located after,
      cursor.next registry expectOperand = (.ok located, after) → located.token = .finish →
        motive expectOperand cursor)
    (token : ∀ expectOperand cursor located after,
      cursor.next registry expectOperand = (.ok located, after) → located.token ≠ .finish →
        motive located.token.expectsOperandAfter after → motive expectOperand cursor)
    (expectOperand : Bool) (cursor : Cursor) : motive expectOperand cursor := by
  generalize hn : cursor.rest.length = n
  induction n using Nat.strongRecOn generalizing expectOperand cursor with
  | ind n ih =>
    rcases hs : cursor.next registry expectOperand with ⟨e | located, after⟩
    · exact error _ _ e after hs
    · by_cases ht : located.token = .finish
      · exact finish _ _ located after hs ht
      · have hlt : after.rest.length < n := hn ▸ Cursor.next_shortens hs ht
        exact token _ _ located after hs ht (ih _ hlt _ _ rfl)

/-- No token before the end is the end. -/
theorem scan_unfinished (registry : Registry) (expectOperand : Bool) (cursor : Cursor) :
    ∀ located ∈ (scan registry expectOperand cursor).tokens, located.token ≠ .finish := by
  induction expectOperand, cursor using scan_induction registry with
  | error expectOperand cursor e after hs => simp [scan_error hs]
  | finish expectOperand cursor located after hs ht => simp [scan_finish hs ht]
  | token expectOperand cursor located after hs ht ih =>
    rw [scan_token hs ht]
    exact List.forall_mem_cons.mpr ⟨ht, ih⟩

/-- The tokens of a whole text are those before the end, and the end. -/
theorem tokensFrom_eq (registry : Registry) (expectOperand : Bool) (cursor : Cursor) :
    tokensFrom registry expectOperand cursor =
      (scan registry expectOperand cursor).ending.map fun n =>
        (scan registry expectOperand cursor).tokens ++ [⟨n, .finish⟩] := by
  induction expectOperand, cursor using scan_induction registry with
  | error expectOperand cursor e after hs =>
    rw [scan_error hs, tokensFrom_next, hs]
    rfl
  | finish expectOperand cursor located after hs ht =>
    rw [scan_finish hs ht, tokensFrom_next, hs]
    simp only [ht, if_true]
    rw [← ht]
    rfl
  | token expectOperand cursor located after hs ht ih =>
    rw [scan_token hs ht, tokensFrom_next, hs]
    simp only [ht, if_false]
    rw [ih]
    cases (scan registry located.token.expectsOperandAfter after).ending <;> rfl

/-! ### Taking what was scanned -/

section

variable {σ : Type} (take : σ → Located → Except SyntaxError σ)

/-- Take tokens one by one up to the first that fails, with the state before it. -/
def takeAll : σ → List Located → σ × Option SyntaxError
  | s, [] => (s, none)
  | s, located :: row =>
    match take s located with
    | .error error => (s, some error)
    | .ok b => takeAll b row

/-- Take the tokens of a scan and its end, up to the first error. -/
def Scan.read (s : σ) (scan : Scan) : σ × Option SyntaxError :=
  match takeAll take s scan.tokens, scan.ending with
  | (b, some error), _ => (b, some error)
  | (b, none), .error error => (b, some error)
  | (b, none), .ok n =>
    match take b ⟨n, .finish⟩ with
    | .error error => (b, some error)
    | .ok c => (c, none)

variable {take}

/-- A scan is read if all its tokens are taken, and its end. -/
theorem Scan.read_eq_ok_iff {s c : σ} {scan : Scan} :
    scan.read take s = (c, none) ↔
      ∃ b n, takeAll take s scan.tokens = (b, none) ∧ scan.ending = .ok n ∧
        take b ⟨n, .finish⟩ = .ok c := by
  obtain ⟨row, ending⟩ := scan
  simp only [Scan.read]
  rcases takeAll take s row with ⟨b, e | error⟩
  · cases ending with
    | error e => simp
    | ok n =>
      cases ht : take b ⟨n, .finish⟩ with
      | error e => simp [ht]
      | ok d => simp [ht]
  · simp

/-- Taking a token that a scan goes on behind. -/
theorem Scan.read_cons {s : σ} {located : Located} {row : List Located}
    {ending : Except SyntaxError Nat} :
    Scan.read take s ⟨located :: row, ending⟩ =
      match take s located with
      | .error error => (s, some error)
      | .ok b => Scan.read take b ⟨row, ending⟩ := by
  simp only [Scan.read, takeAll]
  cases take s located <;> rfl

/-- What holds before the first token, and behind every token if it holds before it, holds behind
a row of tokens that are taken. -/
theorem takeAll_induction {motive : List Located → σ → Prop} {s b : σ} {row : List Located}
    (nil : motive [] s)
    (snoc : ∀ row c located d, motive row c → take c located = .ok d →
      motive (row ++ [located]) d)
    (h : takeAll take s row = (b, none)) : motive row b := by
  have hfrom : ∀ (row before : List Located) (c : σ), motive before c →
      takeAll take c row = (b, none) → motive (before ++ row) b := by
    intro row
    induction row with
    | nil =>
      intro before c hc h
      cases h
      rwa [List.append_nil]
    | cons located row ih =>
      intro before c hc h
      rw [takeAll] at h
      cases hd : take c located with
      | error e => rw [hd] at h; cases h
      | ok d =>
        rw [hd] at h
        rw [List.append_cons]
        exact ih (before ++ [located]) d (snoc before c located d hc hd) h
  exact hfrom row [] s nil h

/-- If tokens are taken alike in two kinds of states, a scan leads to states that correspond, and
to the same error. -/
theorem Scan.read_map {τ : Type} {other : τ → Located → Except SyntaxError τ} (move : σ → τ)
    {scan : Scan}
    (h : ∀ s located, located ∈ scan.tokens ∨ located.token = .finish →
      other (move s) located = (take s located).map move) (s : σ) :
    scan.read other (move s) = (move (scan.read take s).1, (scan.read take s).2) := by
  obtain ⟨row, ending⟩ := scan
  induction row generalizing s with
  | nil =>
    cases ending with
    | error e => rfl
    | ok n =>
      have hfinish := h s ⟨n, .finish⟩ (.inr rfl)
      simp only [Scan.read, takeAll, hfinish]
      cases take s ⟨n, .finish⟩ <;> rfl
  | cons located row ih =>
    have hfirst := h s located (.inl List.mem_cons_self)
    rw [Scan.read_cons, Scan.read_cons, hfirst]
    cases take s located with
    | error e => rfl
    | ok b => exact ih b fun s l hl => h s l (hl.imp_left (List.mem_cons_of_mem located))

end

/-- Behind a complete operand none is expected. -/
theorem Assembly.expectsOperand_completeOperand {a : Assembly} (h : a.pending = none) :
    a.completeOperand.expectsOperand = false := by
  simp only [expectsOperand, completeOperand, h, Option.isSome_none, Bool.or_self]

/-- What an assembly expects after a token is read off the token. -/
theorem Assembly.expectsOperand_of_take {registry : Registry} {a b : Assembly} {located : Located}
    (h : a.take registry located = .ok b) :
    b.expectsOperand = located.token.expectsOperandAfter := by
  cases take_eq_ok_iff.mp h with
  | literal free | inlined free | load free | constant free | unknownConstant free =>
    exact expectsOperand_completeOperand free
  | callee | unknownCallee | openCall | openGroup => rfl
  | unary free expects =>
    simp only [expectsOperand, expects, Bool.or_true]
    rfl
  | binary | comma =>
    simp only [expectsOperand, Bool.or_true]
    rfl
  | closeGroup free => exact expectsOperand_completeOperand free
  | closeCall free => exact expectsOperand_completeOperand ((pending_finishCall _ _ _).trans free)
  | finish free complete =>
    simp only [expectsOperand, release, free, complete]
    rfl

/-- Assembling a text in one pass is scanning it first and taking its tokens then. -/
theorem Assembly.run_eq (registry : Registry) (cursor : Cursor) (a : Assembly) :
    Assembly.run registry cursor a =
      (scan registry a.expectsOperand cursor).read (Assembly.take registry) a := by
  generalize he : a.expectsOperand = expectOperand
  induction expectOperand, cursor using scan_induction registry generalizing a with
  | error expectOperand cursor e after hs =>
    rw [scan_error hs, Assembly.run_next, he, hs]
    rfl
  | finish expectOperand cursor located after hs ht =>
    rw [scan_finish hs ht, Assembly.run_next, he, hs]
    obtain ⟨index, token⟩ := located
    cases ht
    simp only [Scan.read, takeAll, if_true]
    cases a.take registry ⟨index, .finish⟩ <;> rfl
  | token expectOperand cursor located after hs ht ih =>
    rw [scan_token hs ht, Assembly.run_next, he, hs, Scan.read_cons]
    simp only [ht, if_false]
    cases hb : a.take registry located with
    | error error => rfl
    | ok b => exact ih b (expectsOperand_of_take hb)

end GateFormula
