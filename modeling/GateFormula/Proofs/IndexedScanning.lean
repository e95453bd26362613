import GateFormula.Proofs.Tiling

/-!
# Scanning by index

A scanner that keeps the text whole and moves an index through it has to ask for characters and
parts of the text, and asking outside of the text would stop it. `Indexed.next?` scans in this
way and has no answer when it asks for what is not there. `Indexed.next?_eq` says that it always
has one, and that it is the answer of the cursor that carries the text that remains.
-/

namespace GateFormula

namespace Indexed

/-! ### Access to a text -/

/-- The characters of a text from one index to before another, if the indices come in this order
and the text reaches as far. -/
def slice? (source : String) (start stop : Nat) : Option (List Char) :=
  if start ≤ stop ∧ stop ≤ source.length then some (part source start stop) else none

/-- Move an index on over the characters for which a condition holds, up to the end of the text
at most. The condition may have to look at other characters, and is without an answer when these
are not there. -/
def advance (source : String) (goesOn : Nat → Char → Option Bool) (i : Nat) : Option Nat :=
  match _char : source.toList[i]? with
  | none => some i
  | some c =>
    match goesOn i c with
    | none => none
    | some true => advance source goesOn (i + 1)
    | some false => some i
termination_by source.toList.length - i
decreasing_by
  have hlt := (List.getElem?_eq_some_iff.mp _char).1
  omega

/-! ### Single tokens -/

/-- What a step answers, and the index at which the next one begins. -/
abbrev Answer : Type :=
  Except SyntaxError Located × Nat

/-- Finish a word or a name between sigils that ends before `stop`: no sigil may follow, and the
text behind it may decide what it is. -/
def finishWord (source : String) (start stop : Nat) (token : List Char → Token) :
    Option Answer :=
  if source.toList[stop]? = some '$' then some (.error ⟨stop, .unexpectedSigil⟩, stop)
  else do
    let rest ← slice? source stop source.length
    return (.ok ⟨start, token rest⟩, stop)

/-- What a name between sigils is by the text behind it. -/
def quotedToken (name : String) (rest : List Char) : Token :=
  if Lexeme.opensCall rest then .call name else .reference name

/-- Read a name between sigils, the first of which is at `start`. -/
def symbolAt (source : String) (start : Nat) : Option Answer := do
  let stop ← advance source (fun _ c => some !(['$', '(', ')', ','].contains c)) (start + 1)
  if source.toList[stop]? = some '$' then
    let body ← slice? source (start + 1) stop
    let name := String.ofList (Text.trim body)
    if name = "" then return (.error ⟨start, .emptySymbol⟩, start)
    else finishWord source start (stop + 1) (quotedToken name)
  else return (.error ⟨start, .unterminatedSymbol⟩, start)

/-- Whether a bare word goes on with the character at an index, which may depend on the one
before it. -/
def wordGoesOn (registry : Registry) (source : String) (numeric : Bool) (i : Nat) (c : Char) :
    Option Bool := do
  let previous ← source.toList[i - 1]?
  let isExponentSign := numeric && ['+', '-'].contains c && ['e', 'E'].contains previous
  return isExponentSign || !Lexeme.endsWord registry c

/-- Read a bare word, whose first character is at `start`. -/
def wordAt (registry : Registry) (source : String) (start : Nat) : Option Answer := do
  let first ← source.toList[start]?
  let numeric := first = '-' || Lexeme.startsNumber first
  let stop ← advance source (wordGoesOn registry source numeric) (start + 1)
  let word ← slice? source start stop
  finishWord source start stop (Lexeme.wordToken numeric word)

/-- Read an operator, whose first character is at `start`. -/
def operatorAt (registry : Registry) (source : String) (start : Nat) : Option Answer := do
  let rest ← slice? source start source.length
  match Lexeme.longestOperator registry [] rest with
  | none => return (.error ⟨start, .unknownOperator⟩, start)
  | some (symbol, _) =>
    return (.ok ⟨start, .operator (.ofList symbol)⟩, start + symbol.length)

/-- Read the token whose first character is `c`, at `start`. -/
def tokenAt (registry : Registry) (source : String) (expectOperand : Bool) (start : Nat)
    (c : Char) : Option Answer :=
  if c = '(' then some (.ok ⟨start, .opening⟩, start + 1)
  else if c = ')' then some (.ok ⟨start, .closing⟩, start + 1)
  else if c = ',' then some (.ok ⟨start, .comma⟩, start + 1)
  else if c = '$' then symbolAt source start
  else if c = '-' && expectOperand && source.toList[start + 1]?.any Lexeme.startsNumber then
    wordAt registry source start
  else if registry.startsOperator c then operatorAt registry source start
  else wordAt registry source start

/-- Read one token from an index on. There is no answer when an access to the text fails. -/
def next? (registry : Registry) (source : String) (expectOperand : Bool) (position : Nat) :
    Option Answer := do
  let start ← advance source (fun _ c => some (Text.isBlank c)) position
  match source.toList[start]? with
  | none => return (.ok ⟨start, .finish⟩, start)
  | some c => tokenAt registry source expectOperand start c

/-! ### Access by the text that remains -/

section

variable {source : String} {registry : Registry}

/-- The first character that remains is at the index, and the others remain behind it. -/
theorem char_of_drop {i : Nat} {c : Char} {cs : List Char}
    (h : source.toList.drop i = c :: cs) :
    source.toList[i]? = some c ∧ source.toList.drop (i + 1) = cs := by
  have hhead : (source.toList.drop i).head? = some c := by rw [h, List.head?_cons]
  have htail : (source.toList.drop i).tail = cs := by rw [h, List.tail_cons]
  rw [List.head?_drop] at hhead
  rw [List.tail_drop] at htail
  exact ⟨hhead, htail⟩

/-- Nothing is at an index at which nothing remains. -/
theorem char_of_drop_nil {i : Nat} (h : source.toList.drop i = []) :
    source.toList[i]? = none := by
  rw [← List.head?_drop, h, List.head?_nil]

/-- What remains splits into a part of the text and what remains behind it. -/
theorem slice?_of_drop {i : Nat} {text rest : List Char} (hi : i ≤ source.length)
    (h : source.toList.drop i = text ++ rest) :
    slice? source i (i + text.length) = some text ∧
      source.toList.drop (i + text.length) = rest ∧ i + text.length ≤ source.length := by
  have hlength := congrArg List.length h
  rw [List.length_drop, List.length_append, String.length_toList] at hlength
  have hstop : i + text.length ≤ source.length := by omega
  have hpart : part source i (i + text.length) = text := by
    rw [part, Nat.add_sub_cancel_left, h]
    exact List.take_left' rfl
  refine ⟨?_, ?_, hstop⟩
  · rw [slice?, if_pos ⟨Nat.le_add_right _ _, hstop⟩, hpart]
  · rw [← List.drop_drop, h]
    exact List.drop_left' rfl

/-- What remains is a part of the text. -/
theorem slice?_to_end {i : Nat} (hi : i ≤ source.length) :
    slice? source i source.length = some (source.toList.drop i) := by
  have htake : (source.toList.drop i).take (source.length - i) = source.toList.drop i := by
    have hlength : (source.toList.drop i).length = source.length - i := by
      rw [List.length_drop, String.length_toList]
    exact List.take_of_length_le (Nat.le_of_eq hlength)
  rw [slice?, if_pos ⟨hi, Nat.le_refl _⟩, part, htake]

/-! ### Loops -/

/-- An index that has reached the end stays there. -/
theorem advance_nil {goesOn : Nat → Char → Option Bool} {i : Nat}
    (h : source.toList.drop i = []) : advance source goesOn i = some i := by
  rw [advance]
  split
  · rfl
  next c hc =>
    rw [char_of_drop_nil h] at hc
    cases hc

/-- An index moves on or stays, as the condition says of the character there. -/
theorem advance_cons {goesOn : Nat → Char → Option Bool} {i : Nat} {c : Char} {cs : List Char}
    {stays : Bool} (h : source.toList.drop i = c :: cs) (hc : goesOn i c = some stays) :
    advance source goesOn i = if stays then advance source goesOn (i + 1) else some i := by
  rw [advance]
  split
  next hnone =>
    rw [(char_of_drop h).1] at hnone
    cases hnone
  next d hd =>
    have heq : c = d := Option.some.inj ((char_of_drop h).1.symm.trans hd)
    rw [← heq, hc]
    cases stays <;> rfl

/-- A condition on the character alone holds of the characters that are passed, and not of the
next. -/
theorem advance_takeWhile (p : Char → Bool) {i : Nat} {cs : List Char}
    (h : source.toList.drop i = cs) :
    advance source (fun _ c => some (p c)) i = some (i + (cs.takeWhile p).length) := by
  induction cs generalizing i with
  | nil => exact advance_nil h
  | cons c cs ih =>
    rw [advance_cons h rfl]
    cases hc : p c with
    | false => rw [List.takeWhile_cons_of_neg (by simp [hc])]; rfl
    | true =>
      rw [if_pos rfl, ih (char_of_drop h).2, List.takeWhile_cons_of_pos hc, List.length_cons]
      congr 1
      omega

/-- The characters of a bare word are passed. -/
theorem advance_wordTail (numeric : Bool) {i : Nat} {previous : Char} {cs : List Char}
    (hprevious : source.toList[i]? = some previous) (h : source.toList.drop (i + 1) = cs) :
    advance source (wordGoesOn registry source numeric) (i + 1) =
      some (i + 1 + (Lexeme.wordTail registry numeric previous cs).1.length) := by
  induction cs generalizing i previous with
  | nil => exact advance_nil h
  | cons c cs ih =>
    obtain ⟨hc, hcs⟩ := char_of_drop h
    have hgoes : wordGoesOn registry source numeric (i + 1) c =
        some (numeric && ['+', '-'].contains c && ['e', 'E'].contains previous ||
          !Lexeme.endsWord registry c) := by
      rw [wordGoesOn, Nat.add_sub_cancel, hprevious]
      rfl
    rw [advance_cons h hgoes, ih hc hcs, Lexeme.wordTail]
    cases numeric && ['+', '-'].contains c && ['e', 'E'].contains previous <;>
      cases Lexeme.endsWord registry c <;> simp <;> omega

/-! ### One step -/

/-- What a step of a cursor makes of what it reads at an index. -/
def outcome (start : Nat) : Except SyntaxFault Lexeme → Answer
  | .error fault => (.error ⟨start, fault⟩, start)
  | .ok lexeme =>
    if lexeme.hasSigilAttached then
      (.error ⟨start + lexeme.text.length, .unexpectedSigil⟩, start + lexeme.text.length)
    else (.ok ⟨start, lexeme.token⟩, start + lexeme.text.length)

/-- A cursor makes this of the token behind the blanks. -/
theorem next_eq_outcome {expectOperand : Bool} {cursor : Cursor} {c : Char} {cs : List Char}
    (front : cursor.skipBlanks.rest = c :: cs) :
    ((cursor.next registry expectOperand).1, (cursor.next registry expectOperand).2.position) =
      outcome cursor.skipBlanks.position (Lexeme.read registry expectOperand c cs) := by
  cases hread : Lexeme.read registry expectOperand c cs with
  | error fault =>
    rw [Cursor.steps_iff.mp (.fault front hread)]
    rfl
  | ok lexeme =>
    rw [outcome]
    cases hsigil : lexeme.hasSigilAttached with
    | true => rw [Cursor.steps_iff.mp (.attached front hread hsigil)]; rfl
    | false => rw [Cursor.steps_iff.mp (.token front hread hsigil)]; rfl

/-- A word that ends inside of the text is finished. -/
theorem finishWord_eq {start : Nat} {text rest : List Char} {token : List Char → Token}
    (hstop : start + text.length ≤ source.length)
    (hrest : source.toList.drop (start + text.length) = rest)
    (hword : (token rest).isWord = true) :
    finishWord source start (start + text.length) token =
      some (outcome start (.ok ⟨text, token rest, rest⟩)) := by
  have hhead : source.toList[start + text.length]? = rest.head? := by rw [← hrest, List.head?_drop]
  have hattached : (Lexeme.mk text (token rest) rest).hasSigilAttached =
      decide (rest.head? = some '$') := by
    rw [Lexeme.hasSigilAttached, hword, Bool.true_and]
  rw [finishWord, hhead, slice?_to_end hstop, hrest, outcome, hattached]
  by_cases hsigil : rest.head? = some '$'
  · simp [hsigil]
  · simp [hsigil]

/-- A name between sigils runs up to the first character that ends it, which has to be a sigil. -/
theorem symbolBody_eq (cs : List Char) :
    Lexeme.symbolBody cs =
      if (cs.dropWhile fun c => !(['$', '(', ')', ','].contains c)).head? = some '$' then
        some (cs.takeWhile fun c => !(['$', '(', ')', ','].contains c),
          (cs.dropWhile fun c => !(['$', '(', ')', ','].contains c)).tail)
      else none := by
  induction cs with
  | nil => rfl
  | cons c cs ih =>
    rw [Lexeme.symbolBody, List.takeWhile_cons, List.dropWhile_cons]
    by_cases hsigil : c = '$'
    · simp [hsigil]
    by_cases hends : ['(', ')', ','].contains c = true
    · have hall : ['$', '(', ')', ','].contains c = true := by
        rw [List.contains_cons, hends, Bool.or_true]
      simp only [hsigil, hends, hall, if_true, if_false, Bool.not_true, Bool.false_eq_true,
        List.head?_cons, Option.some.injEq]
    · have hall : ['$', '(', ')', ','].contains c = false := by
        rw [List.contains_cons, eq_false_of_ne_true hends, Bool.or_false]
        exact beq_false_of_ne hsigil
      rw [if_neg hsigil, if_neg hends, ih, hall]
      simp only [Bool.not_false, if_true]
      split <;> rfl

/-- A name between sigils is read. -/
theorem symbolAt_eq {start : Nat} {cs : List Char} (hstart : start ≤ source.length)
    (h : source.toList.drop start = '$' :: cs) :
    symbolAt source start = some (outcome start (Lexeme.ofSymbol cs)) := by
  let goesOn : Char → Bool := fun c => !(['$', '(', ')', ','].contains c)
  let body := cs.takeWhile goesOn
  have hopened : source.toList.drop start = ['$'] ++ cs := h
  have hfirst : start + 1 ≤ source.length := (slice?_of_drop hstart hopened).2.2
  have hcs : source.toList.drop (start + 1) = body ++ cs.dropWhile goesOn := by
    rw [List.takeWhile_append_dropWhile]
    exact (char_of_drop h).2
  have hadvance : advance source (fun _ c => some (goesOn c)) (start + 1) =
      some (start + 1 + body.length) :=
    advance_takeWhile goesOn (char_of_drop h).2
  obtain ⟨hslice, hdrop, -⟩ := slice?_of_drop hfirst hcs
  have hchar : source.toList[start + 1 + body.length]? = (cs.dropWhile goesOn).head? := by
    rw [← hdrop, List.head?_drop]
  rw [symbolAt, hadvance, Option.bind_eq_bind, Option.bind_some, hchar, Lexeme.ofSymbol,
    symbolBody_eq]
  by_cases hsigil : (cs.dropWhile goesOn).head? = some '$'
  · -- The name is closed, and its end is one sigil further.
    let rest := (cs.dropWhile goesOn).tail
    have hclosed : cs.dropWhile goesOn = '$' :: rest := (List.cons_head?_tail hsigil).symm
    have hwritten : source.toList.drop start = ('$' :: body ++ ['$']) ++ rest := by
      have hbody : cs = body ++ '$' :: rest := by
        rw [← hclosed, List.takeWhile_append_dropWhile]
      rw [h, hbody]
      simp
    have hlength : start + ('$' :: body ++ ['$']).length = start + 1 + body.length + 1 := by
      simp only [List.length_append, List.length_cons, List.length_nil]
      omega
    obtain ⟨-, hrest, hstop⟩ := slice?_of_drop hstart hwritten
    have hword : (quotedToken (.ofList (Text.trim body)) rest).isWord = true := by
      rw [quotedToken]
      split <;> rfl
    have hfinish := finishWord_eq hstop hrest hword
    rw [hlength] at hfinish
    rw [if_pos hsigil, if_pos hsigil, hslice, Option.bind_eq_bind, Option.bind_some]
    simp only
    split
    · rfl
    · exact hfinish
  · rw [if_neg hsigil, if_neg hsigil]
    rfl

/-- A bare word is a word. -/
theorem isWord_ofWord (registry : Registry) (c : Char) (cs : List Char) :
    (Lexeme.ofWord registry c cs).token.isWord = true := by
  rcases Lexeme.ofWord_cases registry c cs with ⟨value, h⟩ | ⟨name, h⟩ | ⟨name, h⟩ <;>
    rw [h] <;> rfl

/-- A bare word is read. -/
theorem wordAt_eq {start : Nat} {c : Char} {cs : List Char} (hstart : start ≤ source.length)
    (h : source.toList.drop start = c :: cs) :
    wordAt registry source start = some (outcome start (.ok (Lexeme.ofWord registry c cs))) := by
  obtain ⟨hc, hcs⟩ := char_of_drop h
  let numeric : Bool := c = '-' || Lexeme.startsNumber c
  let split := Lexeme.wordTail registry numeric c cs
  have hwritten : source.toList.drop start = (c :: split.1) ++ split.2 := by
    rw [h, List.cons_append, Lexeme.wordTail_append]
  have hadvance : advance source (wordGoesOn registry source numeric) (start + 1) =
      some (start + (c :: split.1).length) := by
    rw [advance_wordTail numeric hc hcs, List.length_cons, Nat.add_right_comm, Nat.add_assoc]
  obtain ⟨hslice, hrest, hstop⟩ := slice?_of_drop hstart hwritten
  have hfinish : finishWord source start (start + (c :: split.1).length)
      (Lexeme.wordToken numeric (c :: split.1)) =
        some (outcome start (.ok (Lexeme.ofWord registry c cs))) :=
    finishWord_eq hstop hrest (isWord_ofWord registry c cs)
  rw [wordAt, hc]
  simp only [Option.bind_eq_bind, Option.bind_some]
  rw [hadvance, Option.bind_some, hslice, Option.bind_some]
  exact hfinish

/-- An operator is read. -/
theorem operatorAt_eq {start : Nat} {cs : List Char} (hstart : start ≤ source.length)
    (h : source.toList.drop start = cs) :
    operatorAt registry source start = some (outcome start (Lexeme.ofOperator registry cs)) := by
  rw [operatorAt, slice?_to_end hstart, h, Option.bind_eq_bind, Option.bind_some,
    Lexeme.ofOperator]
  cases Lexeme.longestOperator registry [] cs with
  | none => rfl
  | some found => rfl

/-- A token is read. -/
theorem tokenAt_eq {expectOperand : Bool} {start : Nat} {c : Char} {cs : List Char}
    (hstart : start ≤ source.length) (h : source.toList.drop start = c :: cs) :
    tokenAt registry source expectOperand start c =
      some (outcome start (Lexeme.read registry expectOperand c cs)) := by
  have hnext : source.toList[start + 1]? = cs.head? := by
    rw [← (char_of_drop h).2, List.head?_drop]
  rw [tokenAt, Lexeme.read, hnext]
  split
  · rfl
  split
  · rfl
  split
  · rfl
  split
  next hsigil => exact symbolAt_eq hstart (hsigil ▸ h)
  split
  · exact wordAt_eq hstart h
  split
  · exact operatorAt_eq hstart h
  · exact wordAt_eq hstart h

/-- No access of a scanner to its text fails: from wherever in the text it goes on, it has an
answer, and this is what the cursor answers that carries the text that remains. -/
theorem next?_eq {expectOperand : Bool} {cursor : Cursor} (within : cursor.Within source)
    (total : cursor.position + cursor.rest.length = source.length) :
    next? registry source expectOperand cursor.position =
      some ((cursor.next registry expectOperand).1,
        (cursor.next registry expectOperand).2.position) := by
  have hskip : source.toList.drop cursor.skipBlanks.position = cursor.skipBlanks.rest :=
    within.skipBlanks.symm
  have hstart : cursor.skipBlanks.position ≤ source.length := by
    have htotal := skipBlanks_total cursor
    omega
  have hadvance : advance source (fun _ c => some (Text.isBlank c)) cursor.position =
      some cursor.skipBlanks.position :=
    advance_takeWhile Text.isBlank within.symm
  rw [next?, hadvance, Option.bind_eq_bind, Option.bind_some]
  cases front : cursor.skipBlanks.rest with
  | nil =>
    rw [front] at hskip
    rw [char_of_drop_nil hskip, Cursor.steps_iff.mp (.finish front)]
    rfl
  | cons c cs =>
    rw [front] at hskip
    rw [(char_of_drop hskip).1, next_eq_outcome front]
    exact tokenAt_eq hstart hskip

end

end Indexed

end GateFormula
