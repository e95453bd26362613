import GateFormula.Proofs.IndexedScanning
import GateFormula.Proofs.Seams

/-!
# Progress of a scanner

A scanner may be called on after an error and after the end of its text, and may be told anything
of operands. `Progresses` says what a call can do with the place at which the scanner is, and
`calls_progress` that all calls on a text do so. A loop that scans up to the end or to the first
error therefore needs no more calls than the text has characters, and one for the end.
-/

namespace GateFormula

variable {registry : Registry} {source : String}

/-! ### Places in a text -/

/-- A cursor stands in a text, all of which is before or behind it. -/
structure Cursor.Inside (source : String) (cursor : Cursor) : Prop where
  /-- What remains is the text from the position on. -/
  within : cursor.Within source
  /-- No character is lost. -/
  total : cursor.position + cursor.rest.length = source.length

/-- What is read from a place on starts at an index: before it are blanks only, and no blank is
there. -/
structure StartsAt (source : String) (place index : Nat) : Prop where
  /-- It starts at the place or behind it. -/
  place_le : place ≤ index
  /-- It starts in the text. -/
  index_le : index ≤ source.length
  /-- Blanks are skipped. -/
  blank : (part source place index).all Text.isBlank = true
  /-- All of them. -/
  front : ∀ c, source.toList[index]? = some c → Text.isBlank c = false

/-- What a call of a scanner may answer at a place, and where the scanner is then. -/
inductive Progresses (source : String) (place : Nat) : Except SyntaxError Located → Nat → Prop where
  /-- The end, with blanks before it, is where the text ends. -/
  | finish (starts : StartsAt source place source.length) :
      Progresses source place (.ok ⟨source.length, .finish⟩) source.length
  /-- A token has a character at least. -/
  | token {located : Located} {after : Nat} (starts : StartsAt source place located.index)
      (unfinished : located.token ≠ .finish) (advances : located.index < after)
      (after_le : after ≤ source.length) : Progresses source place (.ok located) after
  /-- A token that cannot be read is left in place. -/
  | fault {e : SyntaxError} (starts : StartsAt source place e.index)
      (unfinished : e.index < source.length) (unattached : e.fault ≠ .unexpectedSigil) :
      Progresses source place (.error e) e.index
  /-- A word to which a sigil is attached is passed, and the sigil is not. -/
  | sigil {e : SyntaxError} {start : Nat} (starts : StartsAt source place start)
      (behind : start < e.index) (attached : e.fault = .unexpectedSigil)
      (stands : source.toList[e.index]? = some '$') : Progresses source place (.error e) e.index

/-- A scanner never goes back and stays in its text. -/
theorem Progresses.between {place after : Nat} {answer : Except SyntaxError Located}
    (h : Progresses source place answer after) : place ≤ after ∧ after ≤ source.length := by
  cases h with
  | finish starts => exact ⟨starts.place_le, Nat.le_refl _⟩
  | token starts unfinished advances after_le =>
    exact ⟨Nat.le_trans starts.place_le (Nat.le_of_lt advances), after_le⟩
  | fault starts => exact ⟨starts.place_le, starts.index_le⟩
  | sigil starts behind attached stands =>
    have hlt := (List.getElem?_eq_some_iff.mp stands).1
    rw [String.length_toList] at hlt
    exact ⟨Nat.le_trans starts.place_le (Nat.le_of_lt behind), Nat.le_of_lt hlt⟩

/-! ### One call -/

namespace Cursor.Inside

variable {cursor : Cursor}

/-- The start of a text is in it. -/
theorem start (source : String) : (Cursor.start source).Inside source :=
  ⟨within_start source, start_total source⟩

/-- Skipping blanks stays in the text. -/
theorem skipBlanks (h : cursor.Inside source) : cursor.skipBlanks.Inside source :=
  ⟨h.within.skipBlanks, (skipBlanks_total cursor).trans h.total⟩

/-- Passing characters that remain stays in the text. -/
theorem pass {text rest : List Char} (h : cursor.Inside source)
    (hrest : cursor.rest = text ++ rest) :
    (Cursor.mk (cursor.position + text.length) rest).Inside source := by
  constructor
  · have hdrop : source.toList.drop (cursor.position + text.length) = rest := by
      rw [← List.drop_drop, ← h.within, hrest]
      exact List.drop_left' rfl
    exact hdrop.symm
  · have htotal := h.total
    rw [hrest, List.length_append] at htotal
    change cursor.position + text.length + rest.length = source.length
    omega

/-- The first character that remains stands at the position. -/
theorem char (h : cursor.Inside source) : source.toList[cursor.position]? = cursor.rest.head? := by
  rw [h.within, List.head?_drop]

/-- What is read starts behind the blanks. -/
theorem startsAt (h : cursor.Inside source) :
    StartsAt source cursor.position cursor.skipBlanks.position := by
  refine ⟨Nat.le_add_right _ _, ?_, part_skipBlanks h.within, ?_⟩
  · have htotal := h.skipBlanks.total
    omega
  · intro c hc
    rw [h.skipBlanks.char] at hc
    cases front : cursor.skipBlanks.rest with
    | nil =>
      rw [front] at hc
      cases hc
    | cons d cs =>
      rw [front] at hc
      cases hc
      exact isBlank_of_front front

/-- Behind a token that is read the cursor stands in the text, and further on. -/
theorem behind {expectOperand : Bool} {c : Char} {cs : List Char} {lexeme : Lexeme}
    (h : cursor.Inside source) (front : cursor.skipBlanks.rest = c :: cs)
    (read : Lexeme.read registry expectOperand c cs = .ok lexeme) :
    (Cursor.mk (cursor.skipBlanks.position + lexeme.text.length) lexeme.rest).Inside source ∧
      cursor.skipBlanks.position < cursor.skipBlanks.position + lexeme.text.length := by
  obtain ⟨hsplit, hne⟩ := Lexeme.lexeme_split read
  have hpositive : 0 < lexeme.text.length := List.length_pos_iff.mpr hne
  exact ⟨h.skipBlanks.pass (front.trans hsplit.symm), Nat.lt_add_of_pos_right hpositive⟩

end Cursor.Inside

/-- No token that cannot be read is faulted for a sigil behind it. -/
theorem read_ne_unexpectedSigil {expectOperand : Bool} {c : Char} {cs : List Char}
    {fault : SyntaxFault} (h : Lexeme.read registry expectOperand c cs = .error fault) :
    fault ≠ .unexpectedSigil := by
  rcases Lexeme.read_cases registry expectOperand c cs with
    ⟨token, -, hread⟩ | ⟨-, hread⟩ | ⟨-, hread⟩ | hread <;> rw [hread] at h
  · cases h
  · unfold Lexeme.ofSymbol at h
    split at h
    · cases h
      exact SyntaxFault.noConfusion
    · simp only at h
      split at h <;> cases h
      exact SyntaxFault.noConfusion
  · unfold Lexeme.ofOperator at h
    split at h <;> cases h
    exact SyntaxFault.noConfusion
  · cases h

/-- A call keeps to the text and does what calls may do. -/
theorem progresses_of_next {expectOperand : Bool} {cursor after : Cursor}
    {answer : Except SyntaxError Located} (inside : cursor.Inside source)
    (h : cursor.next registry expectOperand = (answer, after)) :
    after.Inside source ∧ Progresses source cursor.position answer after.position := by
  have hstarts := inside.startsAt
  have hskip := inside.skipBlanks
  cases Cursor.steps_iff.mpr h with
  | finish blank =>
    have hend : cursor.skipBlanks.position = source.length := by
      have htotal := hskip.total
      rw [blank, List.length_nil] at htotal
      exact htotal
    exact ⟨hskip, hend ▸ .finish (hend ▸ hstarts)⟩
  | @fault c cs fault front read =>
    have hlt : cursor.skipBlanks.position < source.length := by
      have htotal := hskip.total
      rw [front, List.length_cons] at htotal
      omega
    exact ⟨hskip, .fault hstarts hlt (read_ne_unexpectedSigil read)⟩
  | @attached c cs lexeme front read sigil =>
    obtain ⟨hafter, hbehind⟩ := inside.behind front read
    have hhead : lexeme.rest.head? = some '$' := by
      simp only [Lexeme.hasSigilAttached, Bool.and_eq_true, decide_eq_true_eq] at sigil
      exact sigil.2
    exact ⟨hafter, .sigil hstarts hbehind rfl (hafter.char.trans hhead)⟩
  | @token c cs lexeme front read apart =>
    obtain ⟨hafter, hbehind⟩ := inside.behind front read
    have hle : cursor.skipBlanks.position + lexeme.text.length ≤ source.length :=
      Nat.le.intro hafter.total
    exact ⟨hafter, .token hstarts (Lexeme.read_ne_finish read) hbehind hle⟩

/-- Behind the end, the end is answered at the same index, and the scanner stays there. -/
theorem next_of_rest_nil {cursor : Cursor} (h : cursor.rest = []) (expectOperand : Bool) :
    cursor.next registry expectOperand = (.ok ⟨cursor.position, .finish⟩, cursor) := by
  have hskip : cursor.skipBlanks = cursor := by
    rw [Cursor.skipBlanks, h]
    cases cursor
    cases h
    rfl
  have hblank : cursor.skipBlanks.rest = [] := by rw [hskip, h]
  have hstep : cursor.Steps registry expectOperand _ := .finish hblank
  rw [Cursor.steps_iff.mp hstep, hskip]

/-- Nothing remains behind the end. -/
theorem rest_after_finish {expectOperand : Bool} {cursor after : Cursor} {n : Nat}
    (h : cursor.next registry expectOperand = (.ok ⟨n, .finish⟩, after)) :
    after.rest = [] ∧ after.position = n := by
  generalize hanswer : (Except.ok ⟨n, .finish⟩ : Except SyntaxError Located) = answer at h
  cases Cursor.steps_iff.mpr h with
  | finish blank =>
    cases hanswer
    exact ⟨blank, rfl⟩
  | fault => cases hanswer
  | attached => cases hanswer
  | token front read apart =>
    have htoken := congrArg Located.token (Except.ok.inj hanswer)
    exact absurd htoken.symm (Lexeme.read_ne_finish read)

/-! ### Any number of calls -/

/-- A call of a scanner. -/
structure Cursor.Call where
  /-- Whether the scanner is told that an operand is expected. -/
  expectOperand : Bool
  /-- The scanner before the call. -/
  before : Cursor
  /-- What it answers. -/
  answer : Except SyntaxError Located
  /-- The scanner after the call. -/
  after : Cursor

/-- Call a scanner once for each flag, whatever it has answered before. -/
def Cursor.calls (registry : Registry) : List Bool → Cursor → List Cursor.Call
  | [], _ => []
  | expectOperand :: flags, cursor =>
    let (answer, after) := cursor.next registry expectOperand
    ⟨expectOperand, cursor, answer, after⟩ :: after.calls registry flags

/-- What every call keeps holds before each of the calls, which goes on as its step says. -/
theorem calls_induction {P : Cursor → Prop}
    (keeps : ∀ cursor expectOperand, P cursor → P (cursor.next registry expectOperand).2)
    {flags : List Bool} {cursor : Cursor} (h : P cursor) :
    ∀ call ∈ cursor.calls registry flags, P call.before ∧
      call.before.next registry call.expectOperand = (call.answer, call.after) := by
  induction flags generalizing cursor with
  | nil => exact fun call hcall => absurd hcall List.not_mem_nil
  | cons expectOperand flags ih =>
    rw [Cursor.calls]
    exact List.forall_mem_cons.mpr ⟨⟨h, rfl⟩, ih (keeps cursor expectOperand h)⟩

/-- How a call stands to one that is made later: the scanner has not gone back in between, and
once the end has been answered it is answered again, and the scanner stays where it is. -/
structure Cursor.Call.Precedes (earlier later : Cursor.Call) : Prop where
  /-- A later call begins no further in front. -/
  position_le : earlier.after.position ≤ later.before.position
  /-- Behind the end is the end. -/
  finished : ∀ n, earlier.answer = .ok ⟨n, .finish⟩ →
    later.answer = .ok ⟨n, .finish⟩ ∧ later.after = earlier.after

/-- Calls stand to those made later as calls do. -/
theorem calls_precede {flags : List Bool} {cursor : Cursor} (inside : cursor.Inside source) :
    (cursor.calls registry flags).Pairwise Cursor.Call.Precedes := by
  induction flags generalizing cursor with
  | nil => exact .nil
  | cons expectOperand flags ih =>
    rw [Cursor.calls]
    rcases hnext : cursor.next registry expectOperand with ⟨answer, after⟩
    have hafter := (progresses_of_next inside hnext).1
    refine List.pairwise_cons.mpr ⟨fun later hlater => ⟨?_, fun n hn => ?_⟩, ih hafter⟩
    · have hkeeps : ∀ (between : Cursor) flag,
          between.Inside source ∧ after.position ≤ between.position →
            (between.next registry flag).2.Inside source ∧
              after.position ≤ (between.next registry flag).2.position := by
        intro between flag h
        rcases hs : between.next registry flag with ⟨other, further⟩
        obtain ⟨hinside, hprogresses⟩ := progresses_of_next h.1 hs
        exact ⟨hinside, Nat.le_trans h.2 hprogresses.between.1⟩
      exact (calls_induction hkeeps ⟨hafter, Nat.le_refl _⟩ later hlater).1.2
    · -- Nothing remains, and no call changes that.
      change answer = _ at hn
      rw [hn] at hnext
      obtain ⟨hrest, hposition⟩ := rest_after_finish hnext
      have hkeeps : ∀ (between : Cursor) flag, between = after →
          (between.next registry flag).2 = after := by
        intro between flag h
        rw [h, next_of_rest_nil hrest]
      obtain ⟨hbefore, hanswer⟩ := calls_induction hkeeps rfl later hlater
      rw [hbefore, next_of_rest_nil hrest, hposition] at hanswer
      exact ⟨(congrArg Prod.fst hanswer).symm, (congrArg Prod.snd hanswer).symm⟩

/-! ### Loops over a text -/

section

variable {σ : Type}

/-- A loop that scans a token and takes it, up to the end or to the first error, which is answered
with the state before it. What it expects is read off its state. It gives up when it has made so
many calls of the scanner. -/
def loopWithin (registry : Registry) (expectsOperand : σ → Bool)
    (take : σ → Located → Except SyntaxError σ) :
    Nat → Cursor → σ → Option (σ × Option SyntaxError)
  | 0, _, _ => none
  | calls + 1, cursor, s =>
    match cursor.next registry (expectsOperand s) with
    | (.error error, _) => some (s, some error)
    | (.ok located, after) =>
      match take s located with
      | .error error => some (s, some error)
      | .ok b =>
        if located.token = .finish then some (b, none)
        else loopWithin registry expectsOperand take calls after b

/-- A loop has enough calls if there are more of them than characters remain. -/
theorem loopWithin_isSome {expectsOperand : σ → Bool}
    {take : σ → Located → Except SyntaxError σ} {calls : Nat} {cursor : Cursor}
    (enough : cursor.rest.length < calls) (s : σ) :
    (loopWithin registry expectsOperand take calls cursor s).isSome = true := by
  induction calls generalizing cursor s with
  | zero => exact absurd enough (Nat.not_lt_zero _)
  | succ calls ih =>
    rw [loopWithin]
    rcases hnext : cursor.next registry (expectsOperand s) with ⟨e | located, after⟩
    · rfl
    · cases htake : take s located with
      | error e => simp [htake]
      | ok b =>
        by_cases hfinish : located.token = .finish
        · simp [htake, hfinish]
        · have hshorter := Cursor.next_shortens hnext hfinish
          have hfurther := ih (by omega : after.rest.length < calls) b
          simpa [htake, hfinish] using hfurther

/-- A loop whose state expects what the token before tells yields what scanning the whole text and
taking its tokens then yields. -/
theorem loopWithin_eq_read {expectsOperand : σ → Bool}
    {take : σ → Located → Except SyntaxError σ}
    (follows : ∀ s located b, take s located = .ok b →
      expectsOperand b = located.token.expectsOperandAfter)
    {calls : Nat} {cursor : Cursor} (enough : cursor.rest.length < calls) (s : σ) :
    loopWithin registry expectsOperand take calls cursor s =
      some ((scan registry (expectsOperand s) cursor).read take s) := by
  induction calls generalizing cursor s with
  | zero => exact absurd enough (Nat.not_lt_zero _)
  | succ calls ih =>
    rw [loopWithin]
    rcases hnext : cursor.next registry (expectsOperand s) with ⟨e | located, after⟩
    · rw [scan_error hnext]
      rfl
    · by_cases hfinish : located.token = .finish
      · rw [scan_finish hnext hfinish]
        obtain ⟨index, token⟩ := located
        cases hfinish
        simp only [Scan.read, takeAll, if_true]
        cases take s ⟨index, .finish⟩ <;> rfl
      · rw [scan_token hnext hfinish, Scan.read_cons]
        cases htake : take s located with
        | error e => simp [htake]
        | ok b =>
          have hshorter := Cursor.next_shortens hnext hfinish
          have hfurther := ih (by omega : after.rest.length < calls) b
          simp only [htake, hfinish, if_false]
          rw [hfurther, follows s located b htake]

/-- Keep a token behind those before it, and what is expected after it. -/
def collect (s : List Located × Bool) (located : Located) :
    Except SyntaxError (List Located × Bool) :=
  .ok (s.1 ++ [located], located.token.expectsOperandAfter)

/-- The tokens that have been kept, unless there was an error. -/
def collected : (List Located × Bool) × Option SyntaxError → Except SyntaxError (List Located)
  | (s, none) => .ok s.1
  | (_, some error) => .error error

/-- All tokens of a row are kept. -/
theorem takeAll_collect (s : List Located × Bool) (row : List Located) :
    ∃ expectOperand, takeAll collect s row = ((s.1 ++ row, expectOperand), none) := by
  induction row generalizing s with
  | nil => exact ⟨s.2, by rw [takeAll, List.append_nil]⟩
  | cons located row ih =>
    obtain ⟨expectOperand, hrow⟩ := ih (s.1 ++ [located], located.token.expectsOperandAfter)
    refine ⟨expectOperand, ?_⟩
    rw [takeAll, collect]
    simp only
    rw [hrow, List.append_assoc, List.singleton_append]

/-- Collecting what is scanned from a cursor yields the tokens from there on. -/
theorem collected_scan (expectOperand : Bool) (cursor : Cursor) :
    collected ((scan registry expectOperand cursor).read collect ([], expectOperand)) =
      tokensFrom registry expectOperand cursor := by
  rw [tokensFrom_eq]
  generalize scan registry expectOperand cursor = scan
  obtain ⟨row, ending⟩ := scan
  obtain ⟨after, hrow⟩ := takeAll_collect ([], expectOperand) row
  rw [Scan.read]
  simp only
  rw [hrow]
  cases ending <;> rfl

end

/-! ### A whole text -/

/-- However often and with whatever flags a scanner is called on a text, it never goes back and
never leaves the text, no access to the text fails, every token but the end moves it on, an error
leaves it at the token that failed or at the sigil that should not be there, and once the end has
been answered it is answered for good. A loop up to the end or to the first error therefore makes
no more calls than the text has characters, and one more, whatever it does with the tokens: so do
assembling a formula and listing its tokens. -/
theorem calls_progress (registry : Registry) (source : String) (flags : List Bool) :
    (∀ call ∈ (Cursor.start source).calls registry flags,
      call.before.position ≤ call.after.position ∧ call.after.position ≤ source.length ∧
      Indexed.next? registry source call.expectOperand call.before.position =
        some (call.answer, call.after.position) ∧
      Progresses source call.before.position call.answer call.after.position) ∧
    ((Cursor.start source).calls registry flags).Pairwise Cursor.Call.Precedes ∧
    (∀ (σ : Type) (expectsOperand : σ → Bool) (take : σ → Located → Except SyntaxError σ) (s : σ),
      (loopWithin registry expectsOperand take (source.length + 1) (.start source) s).isSome) ∧
    loopWithin registry Assembly.expectsOperand (Assembly.take registry) (source.length + 1)
      (.start source) .initial = some (Assembly.run registry (.start source) .initial) ∧
    (loopWithin registry Prod.snd collect (source.length + 1) (.start source) ([], true)).map
      collected = some (tokenize registry source) := by
  have henough : (Cursor.start source).rest.length < source.length + 1 := by
    rw [Cursor.start, String.length_toList]
    exact Nat.lt_succ_self _
  have hkeeps : ∀ (cursor : Cursor) expectOperand, cursor.Inside source →
      (cursor.next registry expectOperand).2.Inside source := fun _ _ inside =>
    (progresses_of_next inside rfl).1
  refine ⟨fun call hcall => ?_, calls_precede (.start source), ?_, ?_, ?_⟩
  · obtain ⟨hinside, hnext⟩ := calls_induction hkeeps (.start source) call hcall
    have hprogresses := (progresses_of_next hinside hnext).2
    have hindexed : Indexed.next? registry source call.expectOperand call.before.position =
        some (call.answer, call.after.position) := by
      rw [Indexed.next?_eq hinside.within hinside.total, hnext]
    exact ⟨hprogresses.between.1, hprogresses.between.2, hindexed, hprogresses⟩
  · exact fun σ expectsOperand take s => loopWithin_isSome henough s
  · rw [Assembly.run_eq]
    exact loopWithin_eq_read (fun _ _ _ => Assembly.expectsOperand_of_take) henough .initial
  · have hfollows : ∀ (s : List Located × Bool) located b, collect s located = .ok b →
        b.2 = located.token.expectsOperandAfter := by
      intro s located b h
      cases h
      rfl
    rw [loopWithin_eq_read hfollows henough]
    exact congrArg some (collected_scan true (.start source))

/-- A word with a sigil attached, which is passed over, so that the next call reads the name
between the sigils. -/
theorem calls_progress_attached :
    ∃ first second, (Cursor.start "a$b$").calls .builtin [true, true] = [first, second] ∧
      first.answer = .error ⟨1, .unexpectedSigil⟩ ∧ second.answer = .ok ⟨1, .reference "b"⟩ ∧
      Progresses "a$b$" 0 first.answer 1 ∧ Progresses "a$b$" 1 second.answer 4 ∧
      first.Precedes second := by
  obtain ⟨hcalls, hpairwise, -⟩ := calls_progress .builtin "a$b$" [true, true]
  have hlist : ∃ first second, (Cursor.start "a$b$").calls .builtin [true, true] =
      [first, second] := ⟨_, _, rfl⟩
  have hanswers : ((Cursor.start "a$b$").calls .builtin [true, true]).map
      (fun call => (call.before.position, call.answer, call.after.position)) =
        [(0, .error ⟨1, .unexpectedSigil⟩, 1), (1, .ok ⟨1, .reference "b"⟩, 4)] := by
    decide +kernel
  obtain ⟨first, second, hrow⟩ := hlist
  rw [hrow] at hcalls hpairwise hanswers
  simp only [List.map_cons, List.map_nil, List.cons.injEq, Prod.mk.injEq, and_true] at hanswers
  obtain ⟨⟨hstart, hattached, hstop⟩, hbegin, hread, hend⟩ := hanswers
  have hfirst := (hcalls first List.mem_cons_self).2.2.2
  have hsecond := (hcalls second (List.mem_cons_of_mem first List.mem_cons_self)).2.2.2
  rw [hstart, hstop] at hfirst
  rw [hbegin, hend] at hsecond
  have hprecedes := (List.pairwise_cons.mp hpairwise).1 second List.mem_cons_self
  exact ⟨first, second, hrow, hattached, hread, hfirst, hsecond, hprecedes⟩

end GateFormula
