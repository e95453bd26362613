import GateFormula.Proofs.Reindexing
import GateFormula.Proofs.Tiling
import Mathlib.Data.List.Perm.Subperm
import Mathlib.Data.List.TakeWhile

/-!
# Where errors and problems point

An error is reported at the character at which it shows, which may be read long before: a
parenthesis that is never closed, or the name of a call whose arguments are counted at its end.
What an assembly keeps for such reports are indices of tokens it has taken. `Assembly.Behind`
says so of every state, and with it that no token is kept for two reports. Since every token
stands where it says in the text (`scanOf_standsIn`), what is reported about it stands there too.
-/

namespace GateFormula

open scoped List

/-! ### What stands at an index -/

/-- What a fault points at: a text that goes on like this from its index on. -/
def SyntaxFault.PointsAt (registry : Registry) (rest : List Char) : SyntaxFault → Prop
  | .unexpectedSigil | .unterminatedSymbol | .emptySymbol => rest.head? = some '$'
  | .unmatchedOpen | .emptyGroup => rest.head? = some '('
  | .unmatchedClose => rest.head? = some ')'
  | .misplacedComma => rest.head? = some ','
  | .unknownOperator => ∃ c, rest.head? = some c ∧ registry.startsOperator c = true
  | .misplacedOperator =>
    ∃ symbol o, registry.operator? symbol = some o ∧ o.isUnary = true ∧ symbol.toList ≠ [] ∧
      symbol.toList <+: rest
  | .emptyExpression => rest = []
  | .missingOperand | .unexpectedOperand => True

/-- A text goes on with a bare name. -/
def SpellsBare (name : String) (rest : List Char) : Prop :=
  isBareWord name.toList = true ∧ name.toList <+: rest

/-- A text goes on with a name between sigils, perhaps with blanks around it. -/
def SpellsQuoted (name : String) (rest : List Char) : Prop :=
  ∃ raw, BetweenSigils raw name ∧ '$' :: raw ++ ['$'] <+: rest

/-- What a problem points at: the name that it is about. -/
def Problem.PointsAt (rest : List Char) : Problem → Prop
  | .unknownConstant name _ => SpellsBare name rest
  | .unknownFunction name _ | .arityMismatch name _ _ _ =>
    SpellsBare name rest ∨ SpellsQuoted name rest

/-- Whatever is reported lies in the text, at what it is about, and no two problems lie at one
place. -/
def Cause.PointsInto (registry : Registry) (source : String) : Cause → Prop
  | .malformed e =>
    e.index ≤ source.length ∧ e.fault.PointsAt registry (source.toList.drop e.index)
  | .unsupported problems =>
    (∀ p ∈ problems, p.index ≤ source.length ∧ p.PointsAt (source.toList.drop p.index)) ∧
      (problems.map Problem.index).Nodup

/-! ### What is kept for a report -/

/-- The token that a problem is about. -/
def Problem.located : Problem → Located
  | .unknownConstant name index => ⟨index, .constant name⟩
  | .unknownFunction name index | .arityMismatch name index _ _ => ⟨index, .call name⟩

/-- The name of a call that may turn out to have a wrong number of arguments. -/
def PendingCall.located? (callee : PendingCall) : Option Located :=
  callee.function.map fun _ => ⟨callee.index, .call callee.name⟩

/-- The name of the call whose arguments a grouping holds. -/
def Grouping.callee? (g : Grouping) : Option Located :=
  match g.kind with
  | .call callee _ => callee.located?
  | .root | .group => none

/-- The parenthesis that a grouping starts with. -/
def Grouping.opening? (g : Grouping) : Option Located :=
  match g.kind with
  | .root => none
  | .group | .call _ _ => some ⟨g.index, .opening⟩

namespace Assembly

/-- The parentheses that are open. -/
def openings (a : Assembly) : List Located :=
  (a.current :: a.enclosing).filterMap Grouping.opening?

/-- The names that problems are about or may turn out to be about. -/
def marks (a : Assembly) : List Located :=
  a.problems.toList.map Problem.located ++
    ((a.pending.bind PendingCall.located?).toList ++
      (a.current :: a.enclosing).filterMap Grouping.callee?)

/-- The whole formula is not empty where it could end. -/
def Begun (a : Assembly) : Prop :=
  a.pending = none → a.enclosing = [] → a.current.expectsOperand = true →
    a.current.isEmpty a.code.size = false

/-- What holds of an assembly that has taken a row of tokens. -/
structure Behind (row : List Located) (a : Assembly) : Prop where
  /-- Nothing but the outermost grouping is the whole formula. -/
  nested : Nested a.current a.enclosing
  /-- Every parenthesis that is open has been taken. -/
  openings : a.openings ⊆ row
  /-- Every name that is kept has been taken, and is kept once for each time. -/
  marks : a.marks <+~ row
  /-- Behind a token the formula is not empty. -/
  begun : row ≠ [] → a.Begun

variable {registry : Registry} {a b : Assembly} {located : Located}

/-- The parentheses of the groupings around the innermost one are open. -/
theorem openings_of_around {outer : Grouping} {enclosing : List Grouping}
    (around : a.enclosing = outer :: enclosing) :
    (outer :: enclosing).filterMap Grouping.opening? ⊆ a.openings := by
  rw [openings, around]
  exact ((List.sublist_cons_self a.current (outer :: enclosing)).filterMap _).subset

/-- A parenthesis that is open behind a token was open before it, or it is the token. -/
theorem Move.openings (h : a.Move registry located b) : b.openings ⊆ a.openings ++ [located] := by
  have hkept : a.openings ⊆ a.openings ++ [located] := List.subset_append_left _ _
  cases h with
  | literal | inlined | load | constant | unknownConstant | callee | unknownCallee | unary
  | binary | finish => exact hkept
  | openCall | openGroup =>
    exact List.cons_subset.mpr
      ⟨List.mem_append_right _ (List.mem_singleton_self _), List.subset_append_left _ _⟩
  | comma free kind =>
    have hopening : a.current.opening? = some ⟨a.current.index, .opening⟩ := by
      rw [Grouping.opening?, kind]
    have hopenings : a.openings =
        ⟨a.current.index, .opening⟩ :: a.enclosing.filterMap Grouping.opening? :=
      List.filterMap_cons_some hopening
    rw [hopenings] at hkept ⊢
    exact hkept
  | closeGroup free kind complete filled around =>
    have houter := openings_of_around around
    exact List.Subset.trans houter hkept
  | @closeCall index callee commas outer enclosing free kind complete around =>
    obtain ⟨code, problems, hfinish⟩ := finishCall_frame
      { a.release with current := outer, enclosing } callee (a.closedCount commas)
    rw [hfinish]
    have houter := openings_of_around around
    exact List.Subset.trans houter hkept

/-- Where no name waits for its argument list, none is kept for that. -/
theorem marks_of_free (free : a.pending = none) :
    a.marks = a.problems.toList.map Problem.located ++
      (a.current :: a.enclosing).filterMap Grouping.callee? := by
  rw [marks, free]
  rfl

/-- A problem that is noted is one more name that is kept. -/
theorem marks_report (free : a.pending = none) (problem : Problem) :
    (a.report problem).marks = a.problems.toList.map Problem.located ++
      (problem.located :: (a.current :: a.enclosing).filterMap Grouping.callee?) := by
  rw [marks_of_free (a := a.report problem) free]
  simp only [report, Array.toList_push, List.map_append, List.map_cons, List.map_nil,
    List.append_assoc, List.cons_append, List.nil_append]

/-- The call whose arguments a grouping holds comes before those around it. -/
theorem callees_cons (g : Grouping) (enclosing : List Grouping) :
    (g :: enclosing).filterMap Grouping.callee? =
      g.callee?.toList ++ enclosing.filterMap Grouping.callee? := by
  rw [List.filterMap_cons]
  cases g.callee? <;> rfl

/-- One more name among those that are kept is one name more. -/
theorem subperm_insert (kept others : List Located) (located : Located) :
    kept ++ (located :: others) <+~ kept ++ others ++ [located] := by
  rw [List.append_assoc]
  have hcomm : [located] ++ others ~ others ++ [located] := List.perm_append_comm
  exact (hcomm.append_left kept).subperm

/-- Finishing a call reports its name or drops it. -/
theorem marks_finishCall (free : a.pending = none) (callee : PendingCall) (count : Nat) :
    (a.finishCall callee count).marks <+
      a.problems.toList.map Problem.located ++ (callee.located?.toList ++
        (a.current :: a.enclosing).filterMap Grouping.callee?) := by
  have hdropped : a.marks <+
      a.problems.toList.map Problem.located ++ (callee.located?.toList ++
        (a.current :: a.enclosing).filterMap Grouping.callee?) := by
    rw [marks_of_free free]
    exact (List.sublist_append_right _ _).append_left _
  unfold finishCall
  cases hf : callee.function with
  | none => exact hdropped
  | some function =>
    dsimp only
    split
    · exact hdropped
    · have hnamed : callee.located? = some ⟨callee.index, .call callee.name⟩ := by
        rw [PendingCall.located?, hf, Option.map_some]
      rw [marks_report free, hnamed]
      exact List.Sublist.refl _

/-- If the same names are kept, they were kept before. -/
theorem marks_of_eq (h : b.marks = a.marks) : b.marks <+~ a.marks ++ [located] :=
  h ▸ (List.sublist_append_left _ _).subperm

/-- A name that is kept behind a token was kept before it, or it is the token. -/
theorem Move.marks (h : a.Move registry located b) : b.marks <+~ a.marks ++ [located] := by
  cases h with
  | literal | inlined | load | constant | unary | binary | finish => exact marks_of_eq rfl
  | @unknownConstant index name free =>
    change (a.report (.unknownConstant name index)).marks <+~ _
    rw [marks_report free, marks_of_free free]
    exact subperm_insert _ _ _
  | callee free =>
    rw [marks_of_free free]
    exact subperm_insert _ _ _
  | @unknownCallee index name free =>
    let callee : PendingCall := ⟨name, index, none⟩
    let reported := a.report (.unknownFunction name index)
    have hmarks : Assembly.marks { reported with pending := some callee } = reported.marks := by
      rw [marks_of_free (a := reported) free]
      rfl
    rw [marks_report free] at hmarks
    rw [hmarks, marks_of_free free]
    exact subperm_insert _ _ _
  | openCall pending =>
    refine marks_of_eq ?_
    rw [Assembly.marks, Assembly.marks, pending]
    exact congrArg _ (callees_cons _ _)
  | openGroup free =>
    refine marks_of_eq ?_
    rw [marks_of_free free]
    rfl
  | comma free kind =>
    refine marks_of_eq ?_
    simp only [Assembly.marks, callees_cons, Grouping.callee?, kind, release]
  | closeGroup free kind complete filled around =>
    have hinner : a.current.callee? = none := by
      rw [Grouping.callee?, kind]
    refine marks_of_eq ?_
    rw [marks_of_free free, around, callees_cons, hinner]
    exact marks_of_free free
  | @closeCall index callee commas outer enclosing free kind complete around =>
    have hinner : a.current.callee? = callee.located? := by
      rw [Grouping.callee?, kind]
    have hmarks := marks_finishCall (a := { a.release with current := outer, enclosing }) free
      callee (a.closedCount commas)
    rw [marks_of_free free, around, callees_cons, hinner]
    exact hmarks.subperm.trans (List.sublist_append_left _ _).subperm

/-- Behind a token the whole formula is not empty where it could end. -/
theorem Move.begun (h : a.Move registry located b) : b.Begun := by
  intro hfree haround hexpects
  cases h with
  | literal | inlined | load | constant | unknownConstant | closeGroup => cases hexpects
  | callee | unknownCallee => cases hfree
  | unary => simp [Grouping.isEmpty]
  | binary => simp [Grouping.isEmpty]
  | openCall | openGroup => cases haround
  | comma => simp [Grouping.isEmpty, Grouping.commas]
  | closeCall => cases hexpects
  | finish free complete =>
    rw [release] at hexpects
    cases complete.symm.trans hexpects

/-- What holds behind tokens holds behind one more. -/
theorem Behind.move {row : List Located} (ha : a.Behind row) (h : a.Move registry located b) :
    b.Behind (row ++ [located]) where
  nested := nested_of_take ha.nested h.take_eq
  openings := List.Subset.trans h.openings (List.append_subset.mpr
    ⟨List.Subset.trans ha.openings (List.subset_append_left _ _),
      List.subset_append_right _ _⟩)
  marks := h.marks.trans (ha.marks.append (List.Subperm.refl _))
  begun := fun _ => h.begun

/-- It holds behind all tokens that are taken from the start of a text on. -/
theorem behind_of_takeAll {row : List Located}
    (h : takeAll (take registry) .initial row = (a, none)) : a.Behind row := by
  refine takeAll_induction (motive := Behind) ?_ ?_ h
  · exact ⟨trivial, List.Subset.refl _, List.Subperm.refl _, fun hne => absurd rfl hne⟩
  · exact fun row c located d hc hd => hc.move (take_eq_ok_iff.mp hd)

end Assembly

/-! ### Errors of the scanner -/

variable {registry : Registry} {source : String}

/-- A symbol that is read starts with a character that starts symbols. -/
theorem startsOperator_of_read {expectOperand : Bool} {c : Char} {cs : List Char}
    {lexeme : Lexeme} (h : Lexeme.read registry expectOperand c cs = .ok lexeme) {symbol : String}
    (ht : lexeme.token = .operator symbol) : registry.startsOperator c = true := by
  rcases Lexeme.read_cases registry expectOperand c cs with
    ⟨token, htoken, hr⟩ | ⟨rfl, _⟩ | ⟨hstarts, _⟩ | hr
  · cases hr.symm.trans h
    rcases htoken with rfl | rfl | rfl <;> cases ht
  · obtain ⟨body, rest, _, htoken⟩ := read_sigil h
    rw [htoken] at ht
    split at ht <;> cases ht
  · exact hstarts
  · cases hr.symm.trans h
    rcases Lexeme.ofWord_cases registry c cs with ⟨_, hw⟩ | ⟨_, hw⟩ | ⟨_, hw⟩ <;>
      cases hw.symm.trans ht

/-- Every symbol in a text starts with a character that starts symbols. -/
theorem scanOf_startsOperator (registry : Registry) (source : String) :
    ∀ located ∈ (scanOf registry source).all, ∀ symbol, located.token = .operator symbol →
      ∃ c, (source.toList.drop located.index).head? = some c ∧
        registry.startsOperator c = true := by
  refine scanOf_forall fun expectOperand cursor located after hw _ h symbol ht => ?_
  cases Cursor.steps_iff.mpr h with
  | finish blank => cases ht
  | @token c cs lexeme front read apart =>
    have hskip : cursor.skipBlanks.rest = source.toList.drop cursor.skipBlanks.position :=
      hw.skipBlanks
    refine ⟨c, ?_, startsOperator_of_read read ht⟩
    change (source.toList.drop cursor.skipBlanks.position).head? = some c
    rw [← hskip, front]
    rfl

/-- An error of the scanner lies at a character, and that is the one it names. -/
theorem pointsAt_of_next {expectOperand : Bool} {cursor after : Cursor} {e : SyntaxError}
    (hw : cursor.Within source)
    (htotal : cursor.position + cursor.rest.length = source.length)
    (h : cursor.next registry expectOperand = (.error e, after)) :
    e.index < source.length ∧ e.fault.PointsAt registry (source.toList.drop e.index) := by
  have hskip : cursor.skipBlanks.rest = source.toList.drop cursor.skipBlanks.position :=
    hw.skipBlanks
  have hhere : cursor.skipBlanks.position + cursor.skipBlanks.rest.length = source.length :=
    (skipBlanks_total cursor).trans htotal
  cases Cursor.steps_iff.mpr h with
  | @fault c cs fault front read =>
    rw [front] at hskip hhere
    rw [List.length_cons] at hhere
    refine ⟨by simp only; omega, ?_⟩
    change fault.PointsAt registry (source.toList.drop cursor.skipBlanks.position)
    rw [← hskip]
    rcases read_fault read with ⟨rfl, rfl | rfl⟩ | ⟨hstarts, rfl⟩
    · rfl
    · rfl
    · exact ⟨c, rfl, hstarts⟩
  | @attached c cs lexeme front read sigil =>
    have hsplit : cursor.skipBlanks.rest = lexeme.text ++ lexeme.rest :=
      front.trans (Lexeme.lexeme_split read).1.symm
    have hrest : lexeme.rest =
        source.toList.drop (cursor.skipBlanks.position + lexeme.text.length) := by
      rw [← List.drop_drop, ← hskip, hsplit, List.drop_left' rfl]
    have hhead : lexeme.rest.head? = some '$' := by
      simp only [Lexeme.hasSigilAttached, Bool.and_eq_true, decide_eq_true_eq] at sigil
      exact sigil.2
    have hpositive : 0 < lexeme.rest.length := by
      cases hr : lexeme.rest with
      | nil => rw [hr] at hhead; cases hhead
      | cons d ds => exact Nat.succ_pos _
    rw [hsplit, List.length_append] at hhere
    refine ⟨by simp only; omega, ?_⟩
    rw [← hrest]
    exact hhead

/-- So does the error of a scan. -/
theorem pointsAt_of_scan {e : SyntaxError} (h : (scanOf registry source).ending = .error e) :
    e.index < source.length ∧ e.fault.PointsAt registry (source.toList.drop e.index) := by
  have hscan : ∀ expectOperand (cursor : Cursor), cursor.Within source →
      cursor.position + cursor.rest.length = source.length →
        (scan registry expectOperand cursor).ending = .error e →
          e.index < source.length ∧ e.fault.PointsAt registry (source.toList.drop e.index) := by
    intro expectOperand cursor
    induction expectOperand, cursor using scan_induction registry with
    | error expectOperand cursor f after hs =>
      intro hw htotal h
      rw [scan_error hs] at h
      cases h
      exact pointsAt_of_next hw htotal hs
    | finish expectOperand cursor located after hs ht =>
      intro hw htotal h
      rw [scan_finish hs ht] at h
      cases h
    | token expectOperand cursor located after hs ht ih =>
      intro hw htotal h
      rw [scan_token hs ht] at h
      exact ih (next_within hw hs).1 (covers_of_next hw htotal hs).2.2.2 h
  exact hscan true (.start source) (within_start source) (start_total source) h

/-! ### Errors of the assembly -/

/-- The parenthesis of a grouping inside the formula is open. -/
theorem Assembly.mem_openings {a : Assembly} (inside : a.current.kind ≠ .root) :
    ⟨a.current.index, .opening⟩ ∈ a.openings := by
  have hopening : a.current.opening? = some ⟨a.current.index, .opening⟩ := by
    unfold Grouping.opening?
    cases hk : a.current.kind with
    | root => exact absurd hk inside
    | group | call => rfl
  rw [openings, List.filterMap_cons_some hopening]
  exact List.mem_cons_self

/-- A parenthesis that opens stands where it is written. -/
theorem pointsAt_opening {index : Nat} (h : Located.StandsIn source ⟨index, .opening⟩) :
    index ≤ source.length ∧ (source.toList.drop index).head? = some '(' :=
  ⟨h.index_le, h.head_of_written fun _ hwritten => by cases hwritten; rfl⟩

/-- What a refused token is blamed for stands at it, or it is a parenthesis that is open. -/
theorem Assembly.Refusal.pointsAt {a : Assembly} {row : List Located} {located : Located}
    {e : SyntaxError} (ha : a.Behind row)
    (hrow : ∀ l ∈ row ++ [located], l ∈ (scanOf registry source).all)
    (h : a.Refusal registry located e) :
    e.index ≤ source.length ∧ e.fault.PointsAt registry (source.toList.drop e.index) := by
  have hlocated : located ∈ (scanOf registry source).all :=
    hrow located (List.mem_append_right _ (List.mem_singleton_self _))
  have hstands : located.StandsIn source := scanOf_standsIn registry source located hlocated
  have hopen : ∀ index, ⟨index, .opening⟩ ∈ a.openings →
      index ≤ source.length ∧ (source.toList.drop index).head? = some '(' := fun index hi =>
    pointsAt_opening (scanOf_standsIn registry source _
      (hrow _ (List.mem_append_left _ (ha.openings hi))))
  cases h with
  | uncalled | unexpectedOperand | noLeftOperand | noArgument | incomplete | unfinished =>
    exact ⟨hstands.index_le, trivial⟩
  | unknownOperator =>
    exact ⟨hstands.index_le, scanOf_startsOperator registry source _ hlocated _ rfl⟩
  | @misplacedOperator index symbol o free complete known unary =>
    exact ⟨hstands.index_le, symbol, o, known, unary, hstands.operator_prefix rfl⟩
  | misplacedComma | unmatchedClose | unenclosed =>
    exact ⟨hstands.index_le, hstands.head_of_written fun _ hwritten => by cases hwritten; rfl⟩
  | emptyGroup free kind => exact hopen _ (mem_openings (by simp [kind]))
  | unmatchedOpen free around =>
    -- Only the outermost grouping is the whole formula, and it has none around it.
    have hinside : a.current.kind ≠ .root := by
      have hnested := ha.nested
      cases houter : a.enclosing with
      | nil => exact absurd houter around
      | cons outer enclosing =>
        rw [houter] at hnested
        exact hnested.1
    exact hopen _ (mem_openings hinside)
  | @emptyExpression index =>
    have hend : index = source.length := hstands.finish_iff.mp rfl
    refine ⟨hstands.index_le, List.drop_eq_nil_of_le ?_⟩
    rw [String.length_toList]
    exact Nat.le_of_eq hend.symm

/-! ### Whole texts -/

/-- The state behind the tokens that are taken from a text. -/
theorem behind_traceOf (registry : Registry) (source : String) :
    (traceOf registry source).final.Behind (traceOf registry source).taken :=
  Assembly.behind_of_takeAll (takeAll_taken _)

/-- The error that ends a text early lies in it, at what it is about. -/
theorem pointsAt_of_trace {e : SyntaxError} (h : (traceOf registry source).error? = some e) :
    e.index ≤ source.length ∧ e.fault.PointsAt registry (source.toList.drop e.index) := by
  have hends : (traceOf registry source).Ends registry (scanOf registry source) :=
    trace_ends registry (.start source) .initial
  cases hends with
  | finished finish => rw [finish] at h; cases h
  | refused located f stop further refusal =>
    cases stop.symm.trans h
    exact (Assembly.take_eq_error_iff.mp refusal).pointsAt (behind_traceOf registry source)
      fun l hl => further.subset hl
  | unscanned f stop incomplete =>
    cases stop.symm.trans h
    obtain ⟨hlt, hpoints⟩ := pointsAt_of_scan incomplete
    exact ⟨Nat.le_of_lt hlt, hpoints⟩

/-- The first of all tokens of a text is read by the first step. -/
theorem next_of_all {located : Located} {row : List Located}
    (h : (scanOf registry source).all = located :: row) :
    ∃ after, (Cursor.start source).next registry true = (.ok located, after) := by
  rcases hs : (Cursor.start source).next registry true with ⟨e | first, after⟩
  · rw [scanOf, scan_error hs] at h
    cases h
  · by_cases ht : first.token = .finish
    · rw [scanOf, scan_finish hs ht] at h
      obtain ⟨index, token⟩ := first
      cases ht
      cases h
      exact ⟨after, rfl⟩
    · rw [scanOf, scan_token hs ht, Scan.all_cons] at h
      cases h
      exact ⟨after, rfl⟩

/-- The first step reads the end of a text if there are blanks only. -/
theorem next_finish_iff (registry : Registry) {index : Nat} :
    (∃ after, (Cursor.start source).next registry true = (.ok ⟨index, .finish⟩, after)) ↔
      source.toList.all Text.isBlank = true ∧ index = source.length := by
  constructor
  · rintro ⟨after, h⟩
    obtain ⟨-, hblank, hcovers, -⟩ := covers_of_next (within_start source) (start_total source) h
    have hend : index = source.length := hcovers.finish_iff.mp rfl
    have hpart : part source 0 index = source.toList := by
      rw [part, List.drop_zero, Nat.sub_zero, hend, ← String.length_toList, List.take_length]
    exact ⟨hpart ▸ hblank, hend⟩
  · rintro ⟨hblank, rfl⟩
    have htake : source.toList.takeWhile Text.isBlank = source.toList :=
      List.takeWhile_eq_self_iff.mpr (List.all_eq_true.mp hblank)
    have hdrop : source.toList.dropWhile Text.isBlank = [] :=
      List.dropWhile_eq_nil_iff.mpr (List.all_eq_true.mp hblank)
    have hposition : (Cursor.start source).skipBlanks.position = source.length := by
      change 0 + (source.toList.takeWhile Text.isBlank).length = source.length
      rw [htake, String.length_toList, Nat.zero_add]
    have hsteps : (Cursor.start source).Steps registry true _ := .finish hdrop
    rw [hposition] at hsteps
    exact ⟨_, Cursor.steps_iff.mp hsteps⟩

/-- A text is without a formula exactly if there are blanks only. -/
theorem emptyExpression_iff (registry : Registry) {index : Nat} :
    (traceOf registry source).error? = some ⟨index, .emptyExpression⟩ ↔
      source.toList.all Text.isBlank = true ∧ index = source.length := by
  rw [← next_finish_iff registry]
  constructor
  · intro h
    have hends : (traceOf registry source).Ends registry (scanOf registry source) :=
      trace_ends registry (.start source) .initial
    cases hends with
    | finished finish => rw [finish] at h; cases h
    | refused located e stop further refusal =>
      cases stop.symm.trans h
      cases Assembly.take_eq_error_iff.mp refusal with
      | emptyExpression free around expects empty =>
        -- Behind a token the formula would not be empty, so this is the first one.
        have hnone : (traceOf registry source).taken = [] := by
          by_contra hsome
          have hfilled := (behind_traceOf registry source).begun hsome free around expects
          rw [empty] at hfilled
          cases hfilled
        rw [hnone] at further
        obtain ⟨row, hrow⟩ := further
        exact next_of_all hrow.symm
    | unscanned e stop incomplete =>
      cases stop.symm.trans h
      obtain ⟨hlt, hpoints⟩ := pointsAt_of_scan incomplete
      have hle : source.toList.length ≤ index := List.drop_eq_nil_iff.mp hpoints
      rw [String.length_toList] at hle
      exact absurd hlt (Nat.not_lt.mpr hle)
  · rintro ⟨after, h⟩
    have hexpects : Assembly.initial.expectsOperand = true := rfl
    have hrefused : Assembly.initial.take registry ⟨index, .finish⟩ =
        .error ⟨index, .emptyExpression⟩ := rfl
    rw [traceOf, trace_next, hexpects, h]
    simp only [hrefused]

/-- A bare word that is read is spelled there. -/
theorem spellsBare_ofList {text rest : List Char} (bare : isBareWord text = true)
    (hfront : text <+: rest) : SpellsBare (.ofList text) rest := by
  have htext : (String.ofList text).toList = text := String.toList_ofList
  rw [SpellsBare, htext]
  exact ⟨bare, hfront⟩

/-- A name that is kept stands where it was read. -/
theorem spelled_of_mark {index : Nat} {name : String}
    (h : Located.StandsIn source ⟨index, .call name⟩) :
    SpellsBare name (source.toList.drop index) ∨ SpellsQuoted name (source.toList.drop index) := by
  obtain ⟨text, hwritten, hfront⟩ := h.written
  cases hwritten with
  | quotedCall sigils => exact .inr ⟨_, sigils, hfront⟩
  | call bare => exact .inl (spellsBare_ofList bare hfront)

/-- A problem lies in the text, at the name that it is about, if its token does. -/
theorem Problem.pointsAt {p : Problem} (h : p.located.StandsIn source) :
    p.index ≤ source.length ∧ p.PointsAt (source.toList.drop p.index) := by
  refine ⟨?_, ?_⟩
  · cases p <;> exact h.index_le
  · cases p with
    | unknownConstant name index =>
      obtain ⟨text, hwritten, hfront⟩ := h.written
      cases hwritten with
      | constant bare => exact spellsBare_ofList bare hfront
    | unknownFunction name index => exact spelled_of_mark h
    | arityMismatch name index got signature => exact spelled_of_mark h

/-- All tokens of a text stand one behind the other, and its end behind them. -/
theorem all_pairwise (registry : Registry) (source : String) :
    (scanOf registry source).all.Pairwise (·.index < ·.index) := by
  have hstands := scanOf_standsIn registry source
  have htokens := scanOf_pairwise registry source
  unfold Scan.all at hstands ⊢
  cases hending : (scanOf registry source).ending with
  | error e => exact htokens
  | ok n =>
    simp only [hending] at hstands
    refine List.pairwise_append.mpr ⟨htokens, List.pairwise_singleton _ _, fun x hx y hy => ?_⟩
    cases List.mem_singleton.mp hy
    have hend : n = source.length :=
      (hstands _ (List.mem_append_right _ (List.mem_singleton_self _))).finish_iff.mp rfl
    have hx' : x.StandsIn source := hstands x (List.mem_append_left _ hx)
    have hbefore : x.index ≠ source.length := fun heq =>
      scan_unfinished registry true (.start source) x hx (hx'.finish_iff.mpr heq)
    have hle := hx'.index_le
    simp only
    omega

/-- The problems of a text are about different tokens that have been taken. -/
theorem problems_subperm (registry : Registry) (source : String) :
    (traceOf registry source).final.problems.toList.map Problem.located <+~
      (scanOf registry source).all := by
  have hmarks := (behind_traceOf registry source).marks
  have htaken := (taken_scanned registry source).sublist.subperm
  exact ((List.sublist_append_left _ _).subperm.trans hmarks).trans htaken

/-- No two problems of a text lie at one place. -/
theorem problems_nodup (registry : Registry) (source : String) :
    ((traceOf registry source).final.problems.toList.map Problem.index).Nodup := by
  obtain ⟨kept, hperm, hsublist⟩ := problems_subperm registry source
  have hall : ((scanOf registry source).all.map Located.index).Nodup :=
    (List.pairwise_map.mpr (all_pairwise registry source)).imp Nat.ne_of_lt
  have hkept : (kept.map Located.index).Nodup := hall.sublist (hsublist.map _)
  have hproblems := (hperm.map Located.index).nodup_iff.mp hkept
  have hindex : Located.index ∘ Problem.located = Problem.index := by
    funext p
    cases p <;> rfl
  rwa [List.map_map, hindex] at hproblems

/-- What is reported about a text that does not compile lies in the text, at the character or the
name that it is about, and no two problems lie at one place. That there is no formula is reported
exactly if there are blanks only, and then at the end of the text. -/
theorem compileIn_points (registry : Registry) (store : Store) (source : String) :
    (∀ diagnostics, (compileIn registry store source).1 = .error diagnostics →
      diagnostics.cause.PointsInto registry source) ∧
    ∀ index, (compileIn registry store source).1 =
        .error ⟨source, .malformed ⟨index, .emptyExpression⟩⟩ ↔
      source.toList.all Text.isBlank = true ∧ index = source.length := by
  have hcompile : (compileIn registry store source).1 = (compile registry source).result := rfl
  rw [hcompile, compile_eq_trace]
  refine ⟨fun diagnostics h => ?_, fun index => ?_⟩
  · cases herror : (traceOf registry source).error? with
    | some e =>
      rw [herror] at h
      cases h
      exact pointsAt_of_trace herror
    | none =>
      rw [herror] at h
      simp only at h
      split at h
      · cases h
      · cases h
        refine ⟨fun p hp => Problem.pointsAt ?_, problems_nodup registry source⟩
        exact scanOf_standsIn registry source _
          ((problems_subperm registry source).subset (List.mem_map_of_mem hp))
  · rw [← emptyExpression_iff registry]
    cases (traceOf registry source).error? with
    | some e => simp
    | none =>
      simp only [reduceCtorEq, iff_false]
      split <;> simp

/-- Places are counted in characters, of which the first one here takes two bytes. -/
example : syntaxErrorOf (compile .builtin "é(1) + (2").result = some ⟨7, .unmatchedOpen⟩ := by
  decide +kernel

end GateFormula
