import GateFormula.Proofs.HollowFormulas
import GateFormula.Proofs.SameOperators

/-!
# Errors in the text of a formula

Which error the text of a formula has is told by its tokens and the operators, whatever
functions and constants there are, but for hollow groups: a group around nothing but a call
that is not supported writes no code, and is then refused as if it were empty. The first
hollow group is refused wherever the text goes on, so that two registries with the same
operators find the same error exactly if they find the same hollow group or none.
-/

namespace GateFormula

open Formula

/-- The error in the text of a formula, if that is why it does not compile. -/
def syntaxErrorOf : Except Diagnostics Program → Option SyntaxError
  | .error ⟨_, .malformed error⟩ => some error
  | .error ⟨_, .unsupported _⟩ | .ok _ => none

/-- The first error in a text as its tokens and the operators tell it. -/
def verdict? (registry : Registry) (source : String) : Option SyntaxError :=
  ((scanOf registry source).read (Draft.take registry) .initial).2

/-- The index of the first hollow group in a text. -/
def hollowGroup? (registry : Registry) (source : String) : Option Nat :=
  Draft.initial.hollowGroup? registry (scanOf registry source).tokens

variable {registry : Registry}

/-- The error in a text is that of reading its scan. -/
theorem syntaxErrorOf_compile (registry : Registry) (source : String) :
    syntaxErrorOf (compile registry source).result =
      ((scanOf registry source).read (Assembly.take registry) .initial).2 := by
  simp only [compile, run_source]
  rcases (scanOf registry source).read (Assembly.take registry) .initial with ⟨final, e | error⟩
  · simp only
    split <;> rfl
  · rfl

/-! ### Where tokens stand -/

/-- A token stands at the cursor or behind it, and the next step begins behind the token. -/
theorem next_index {expectOperand : Bool} {cursor after : Cursor} {located : Located}
    (h : cursor.next registry expectOperand = (.ok located, after))
    (ht : located.token ≠ .finish) :
    cursor.position ≤ located.index ∧ located.index < after.position := by
  have hskip : cursor.position ≤ cursor.skipBlanks.position := Nat.le_add_right _ _
  cases Cursor.steps_iff.mpr h with
  | finish blank => exact absurd rfl ht
  | @token c cs lexeme front read apart =>
    have hpos := List.length_pos_iff.mpr (Lexeme.lexeme_split read).2
    refine ⟨hskip, ?_⟩
    change cursor.skipBlanks.position < cursor.skipBlanks.position + lexeme.text.length
    omega

/-- What may be wrong with a single token: with a name behind a sigil, or with an operator. -/
theorem read_fault {expectOperand : Bool} {c : Char} {cs : List Char} {fault : SyntaxFault}
    (h : Lexeme.read registry expectOperand c cs = .error fault) :
    (c = '$' ∧ (fault = .unterminatedSymbol ∨ fault = .emptySymbol)) ∨
      (registry.startsOperator c = true ∧ fault = .unknownOperator) := by
  have hsymbol : Lexeme.ofSymbol cs = .error fault →
      fault = .unterminatedSymbol ∨ fault = .emptySymbol := by
    intro hs
    simp only [Lexeme.ofSymbol] at hs
    split at hs
    · cases hs
      exact .inl rfl
    · split at hs <;> cases hs
      exact .inr rfl
  have hoperator : Lexeme.ofOperator registry (c :: cs) = .error fault →
      fault = .unknownOperator := by
    intro ho
    simp only [Lexeme.ofOperator] at ho
    split at ho <;> cases ho
    rfl
  rcases Lexeme.read_cases registry expectOperand c cs with
    ⟨_, _, hr⟩ | ⟨hsigil, hr⟩ | ⟨hstarts, hr⟩ | hr
  · rw [hr] at h
    cases h
  · exact .inl ⟨hsigil, hsymbol (hr.symm.trans h)⟩
  · exact .inr ⟨hstarts, hoperator (hr.symm.trans h)⟩
  · rw [hr] at h
    cases h

/-- No error of the scanner is about an empty group. -/
theorem next_fault {expectOperand : Bool} {cursor after : Cursor} {e : SyntaxError}
    (h : cursor.next registry expectOperand = (.error e, after)) : e.fault ≠ .emptyGroup := by
  cases Cursor.steps_iff.mpr h with
  | fault front read =>
    rcases read_fault read with ⟨-, hf | hf⟩ | ⟨-, hf⟩ <;> simp [hf]
  | attached front read sigil => simp

/-- The tokens of a scan stand one behind the other, none before the cursor. -/
theorem scan_index (registry : Registry) (expectOperand : Bool) (cursor : Cursor) :
    (∀ located ∈ (scan registry expectOperand cursor).tokens,
        cursor.position ≤ located.index) ∧
      (scan registry expectOperand cursor).tokens.Pairwise (·.index < ·.index) := by
  induction expectOperand, cursor using scan_induction registry with
  | error expectOperand cursor e after hs => simp [scan_error hs]
  | finish expectOperand cursor located after hs ht => simp [scan_finish hs ht]
  | token expectOperand cursor located after hs ht ih =>
    obtain ⟨hfirst, hnext⟩ := next_index hs ht
    rw [scan_token hs ht]
    refine ⟨List.forall_mem_cons.mpr ⟨hfirst, fun x hx => ?_⟩,
      List.pairwise_cons.mpr ⟨fun x hx => ?_, ih.2⟩⟩
    · have hx := ih.1 x hx
      omega
    · have hx := ih.1 x hx
      omega

/-- No scan ends with an error about an empty group. -/
theorem scan_fault {expectOperand : Bool} {cursor : Cursor} {e : SyntaxError}
    (h : (scan registry expectOperand cursor).ending = .error e) : e.fault ≠ .emptyGroup := by
  induction expectOperand, cursor using scan_induction registry with
  | error expectOperand cursor f after hs =>
    rw [scan_error hs] at h
    cases h
    exact next_fault hs
  | finish expectOperand cursor located after hs ht => rw [scan_finish hs ht] at h; cases h
  | token expectOperand cursor located after hs ht ih =>
    rw [scan_token hs ht] at h
    exact ih h

/-! ### The first hollow group -/

/-- No empty group could close next whose opening parenthesis has the index `i`. -/
def Draft.Avoids (i : Nat) (d : Draft) : Prop :=
  ∀ us, d.focus = .awaiting us → d.isBare us = true → d.current.kind = .group →
    d.current.index ≠ i

/-- Every group that is open starts before the index `n`. -/
def Draft.OpenedBefore (n : Nat) (d : Draft) : Prop :=
  ∀ l ∈ d.current :: d.enclosing.map Prod.fst, l.kind = .group → l.index < n

/-- Leaving a layer is no error about an empty group. -/
theorem leave_fault {d : Draft} {index : Nat} {f : Formula} {e : SyntaxError}
    (h : d.leave index f = .error e) : e.fault = .unmatchedClose := by
  unfold Draft.leave at h
  split at h <;> cases h
  rfl

/-- Behind an operand no error is about an empty group. -/
theorem takeFilled_fault {d : Draft} {f : Formula} {index : Nat} {token : Token} {e : SyntaxError}
    (h : d.takeFilled registry f index token = .error e) : e.fault ≠ .emptyGroup := by
  cases token with
  | literal | reference | constant | call | opening => cases h; simp
  | operator symbol =>
    simp only [Draft.takeFilled] at h
    split at h
    · cases h
      simp
    · split at h <;> cases h
      simp
  | comma =>
    simp only [Draft.takeFilled] at h
    split at h <;> cases h <;> simp
  | closing =>
    simp only [Draft.takeFilled] at h
    split at h
    · cases h
      simp
    · simp [leave_fault h]
    · simp [leave_fault h]
  | finish =>
    simp only [Draft.takeFilled] at h
    split at h <;> cases h
    simp

/-- An error about an empty group is one of the innermost layer, which is such a group. -/
theorem take_emptyGroup {d : Draft} {located : Located} {i : Nat}
    (h : d.take registry located = .error ⟨i, .emptyGroup⟩) : ¬d.Avoids i := by
  obtain ⟨l, focus, ls⟩ := d
  obtain ⟨index, token⟩ := located
  cases focus with
  | filled f => exact absurd rfl (takeFilled_fault h)
  | callee us name =>
    simp only [Draft.take] at h
    split at h <;> cases h
  | awaiting us =>
    simp only [Draft.take] at h
    cases token with
    | literal | reference | constant | call | opening => cases h
    | operator symbol =>
      simp only [Draft.takeAwaiting] at h
      split at h
      · cases h
      · split at h <;> cases h
    | comma =>
      simp only [Draft.takeAwaiting] at h
      split at h <;> cases h
    | closing =>
      simp only [Draft.takeAwaiting] at h
      split at h
      · cases h
      next hk =>
        split at h <;> cases h
        next hb => exact fun ha => ha us rfl hb hk rfl
      · split at h
        · cases leave_fault h
        · cases h
    | finish =>
      simp only [Draft.takeAwaiting] at h
      split at h
      · cases h
      · split at h <;> cases h

/-- Behind a token no empty group could close next that starts before the token. -/
theorem Draft.Move.avoids {d b : Draft} {located : Located} {i : Nat}
    (h : Draft.Move registry d located b) (hi : i < located.index) : b.Avoids i := by
  cases h with
  | leaf leaf => rintro us ⟨⟩
  | callee => rintro us ⟨⟩
  | unary known => rintro us ⟨⟩ hb; cases hb
  | binary known => rintro us ⟨⟩ hb; cases hb
  | openCall => rintro us ⟨⟩ hb ⟨⟩
  | openGroup => rintro us ⟨⟩ hb - ; exact Nat.ne_of_gt hi
  | comma => rintro us ⟨⟩ hb ⟨⟩
  | closeGroup => rintro us ⟨⟩
  | closeCall => rintro us ⟨⟩
  | closeBare => rintro us ⟨⟩
  | finish => rintro us ⟨⟩

/-- Behind a token every open group starts before the next one. -/
theorem Draft.Move.openedBefore {d b : Draft} {located : Located}
    (h : Draft.Move registry d located b) (hd : d.OpenedBefore located.index) :
    b.OpenedBefore (located.index + 1) := by
  have hlater : d.OpenedBefore (located.index + 1) :=
    fun l hl hk => Nat.lt_succ_of_lt (hd l hl hk)
  cases h with
  | leaf | callee | unary => exact hlater
  | binary | finish =>
    obtain ⟨hcurrent, henclosing⟩ := List.forall_mem_cons.mp hlater
    exact List.forall_mem_cons.mpr ⟨hcurrent, henclosing⟩
  | comma =>
    obtain ⟨-, henclosing⟩ := List.forall_mem_cons.mp hlater
    exact List.forall_mem_cons.mpr ⟨nofun, henclosing⟩
  | openCall => exact List.forall_mem_cons.mpr ⟨nofun, hlater⟩
  | openGroup => exact List.forall_mem_cons.mpr ⟨fun _ => Nat.lt_succ_self _, hlater⟩
  | closeGroup | closeCall | closeBare => exact fun l hl => hlater l (List.mem_cons_of_mem _ hl)

/-- A text has no error about an empty group that starts before its tokens, unless the group is
empty already. -/
theorem read_ne_emptyGroup {d : Draft} {row : List Located} {ending : Except SyntaxError Nat}
    {i : Nat} (hd : d.Avoids i) (hrow : ∀ located ∈ row, i < located.index)
    (he : ∀ e, ending = .error e → e.fault ≠ .emptyGroup) :
    (Scan.read (Draft.take registry) d ⟨row, ending⟩).2 ≠ some ⟨i, .emptyGroup⟩ := by
  induction row generalizing d with
  | nil =>
    simp only [Scan.read, takeAll]
    cases ending with
    | error e =>
      intro h
      cases h
      exact he _ rfl rfl
    | ok n =>
      cases hb : d.take registry ⟨n, .finish⟩ with
      | ok b => simp only [hb, ne_eq, reduceCtorEq, not_false_eq_true]
      | error e =>
        simp only [hb]
        intro h
        cases h
        exact take_emptyGroup hb hd
  | cons located row ih =>
    obtain ⟨hfirst, hrest⟩ := List.forall_mem_cons.mp hrow
    rw [Scan.read_cons]
    cases hb : d.take registry located with
    | error e =>
      intro h
      cases h
      exact take_emptyGroup hb hd
    | ok b => exact ih ((Draft.take_eq_ok_iff.mp hb).avoids hfirst) hrest

/-- The verdict on a text with a hollow group is no error about that group. -/
theorem read_ne_hollow {d : Draft} {row : List Located} {ending : Except SyntaxError Nat}
    {n i : Nat} (hd : d.OpenedBefore n) (hrow : ∀ located ∈ row, n ≤ located.index)
    (hp : row.Pairwise (·.index < ·.index))
    (he : ∀ e, ending = .error e → e.fault ≠ .emptyGroup)
    (hs : d.hollowGroup? registry row = some i) :
    (Scan.read (Draft.take registry) d ⟨row, ending⟩).2 ≠ some ⟨i, .emptyGroup⟩ := by
  induction row generalizing d n with
  | nil => cases hs
  | cons located row ih =>
    obtain ⟨hfirst, hrest⟩ := List.forall_mem_cons.mp hrow
    obtain ⟨hlater, hrowp⟩ := List.pairwise_cons.mp hp
    have hopened : d.OpenedBefore located.index :=
      fun l hl hk => Nat.lt_of_lt_of_le (hd l hl hk) hfirst
    rw [Draft.hollowGroup?] at hs
    rw [Scan.read_cons]
    split at hs
    next hh =>
      cases hs
      -- Behind this token only groups with a later index can turn out empty.
      obtain ⟨hk, f, hf, -⟩ := isHollow_iff.mp hh.2
      have hi : d.current.index < located.index := hopened _ List.mem_cons_self hk
      cases hb : d.take registry located with
      | error e =>
        simp only [Draft.take, hf] at hb
        intro h
        cases h
        exact takeFilled_fault hb rfl
      | ok b =>
        refine read_ne_emptyGroup ((Draft.take_eq_ok_iff.mp hb).avoids hi) (fun x hx => ?_) he
        exact Nat.lt_trans hi (hlater x hx)
    · cases hb : d.take registry located with
      | error e => rw [hb] at hs; cases hs
      | ok b =>
        rw [hb] at hs
        exact ih ((Draft.take_eq_ok_iff.mp hb).openedBefore hopened)
          (fun x hx => hlater x hx) hrowp hs

/-! ### Two registries -/

/-- The error in a text is that of the verdict, or else that of the first hollow group. -/
theorem syntaxErrorOf_compileIn (registry : Registry) (store : Store) (source : String) :
    syntaxErrorOf (compileIn registry store source).1 =
      (hollowGroup? registry source).elim (verdict? registry source)
        (fun index => some ⟨index, .emptyGroup⟩) :=
  (syntaxErrorOf_compile registry source).trans (read_source registry source).1

/-- The verdict on a text is the same for registries with the same operators. -/
theorem verdict?_congr {r s : Registry} (h : r.SameOperators s) (source : String) :
    verdict? r source = verdict? s source := by
  have htake : Draft.take r = Draft.take s := by
    funext d located
    exact take_congr h d located
  rw [verdict?, verdict?, scanOf_congr (h.sameSymbolsIn _), htake]

/-- The verdict on a text is not that its first hollow group is empty. -/
theorem verdict?_ne_hollow {source : String} {i : Nat} (h : hollowGroup? registry source = some i) :
    verdict? registry source ≠ some ⟨i, .emptyGroup⟩ := by
  obtain ⟨hindex, hp⟩ := scan_index registry true (.start source)
  refine read_ne_hollow (n := 0) ?_ hindex hp (fun e he => scan_fault he) h
  simp [Draft.OpenedBefore, Draft.initial]

/-- Which error the text of a formula has is the verdict on its tokens, in which nothing but
the operators of the registry matters, unless the text has a hollow group: then it is that
this group is empty, although it is not: it holds a call that the registry does not support.
Registries with the same operators, whatever their functions and constants are and whatever the
stores, have the same error in a text, or none in it both, exactly if they have the same first
hollow group in it, or none both. -/
theorem syntaxError_eq_iff {r s : Registry} (h : r.SameOperators s) (source : String)
    (first second : Store) :
    verdict? r source = verdict? s source ∧
    syntaxErrorOf (compileIn r first source).1 =
      (hollowGroup? r source).elim (verdict? r source) (fun i => some ⟨i, .emptyGroup⟩) ∧
    (syntaxErrorOf (compileIn r first source).1 = syntaxErrorOf (compileIn s second source).1 ↔
      hollowGroup? r source = hollowGroup? s source) ∧
    ∀ i, hollowGroup? r source = some i → HoldsUnsupported r (scanOf r source).tokens i := by
  have hverdict := verdict?_congr h source
  have hu := scan_unfinished r true (.start source)
  refine ⟨hverdict, syntaxErrorOf_compileIn r first source, ?_,
    fun i hi => holdsUnsupported_of_hollowGroup? hu hi⟩
  rw [syntaxErrorOf_compileIn, syntaxErrorOf_compileIn]
  cases hr : hollowGroup? r source with
  | none =>
    cases hs : hollowGroup? s source with
    | none => simp [hverdict]
    | some j => simpa [hverdict] using verdict?_ne_hollow hs
  | some i =>
    cases hs : hollowGroup? s source with
    | none => simpa [← hverdict, eq_comm] using verdict?_ne_hollow hr
    | some j => simp

/-- A call in parentheses, of a function that one registry has and the other lacks: the group is
refused as empty where the function is unknown, although it holds the call, and nowhere else. -/
theorem syntaxError_ne_unknown_function :
    ∃ r : Registry, r.SameOperators .empty ∧
      HoldsUnsupported .empty (scanOf .empty "(f())").tokens 0 ∧
      syntaxErrorOf (compileIn .empty .empty "(f())").1 = some ⟨0, .emptyGroup⟩ ∧
      syntaxErrorOf (compileIn r .empty "(f())").1 ≠
        syntaxErrorOf (compileIn .empty .empty "(f())").1 := by
  let r : Registry := Registry.empty.addFunction ⟨"f", 0, false, fun _ => .ok (.number 0)⟩
  have hsame : r.SameOperators .empty := fun _ => rfl
  have hknown : hollowGroup? r "(f())" = none := by decide +kernel
  have hunknown : hollowGroup? .empty "(f())" = some 0 := by decide +kernel
  have hiff := (syntaxError_eq_iff hsame "(f())" .empty .empty).2.2.1
  have hsecond : Registry.empty.SameOperators .empty := fun _ => rfl
  have hholds := (syntaxError_eq_iff hsecond "(f())" .empty .empty).2.2.2 0 hunknown
  refine ⟨r, hsame, hholds, ?_, fun he => ?_⟩
  · rw [syntaxErrorOf_compileIn, hunknown]
    rfl
  · have hsome := hknown.symm.trans ((hiff.mp he).trans hunknown)
    cases hsome

end GateFormula
