import GateFormula.Builtin
import GateFormula.Proofs.Reindexing
import GateFormula.Proofs.Seams
import GateFormula.Proofs.Tiling

/-!
# Blanks between tokens

Blanks may be put into a text wherever no token is cut: the tokens stay what they are, those
behind the blanks move, and so the text compiles to the same code or to the same problems.
`scan_moved` moves a text as a whole, and `scan_insert` puts blanks into it. A token before the
blanks is read as before, since a blank may replace what stood there; a token behind them is read
from the same characters.
-/

namespace GateFormula

variable {registry : Registry} {expectOperand : Bool} {cursor : Cursor}

/-! ### Places between tokens -/

/-- The tiles of a text under the flags that its own tokens give. -/
def tilesOf (registry : Registry) (source : String) : Except SyntaxError (List Tile) :=
  (Cursor.start source).tiles registry ((scanOf registry source).expectations true)

/-- The flags of a scan that reads a token and goes on. -/
theorem expectations_token {located : Located} {after : Cursor}
    (h : cursor.next registry expectOperand = (.ok located, after))
    (ht : located.token ≠ .finish) :
    (scan registry expectOperand cursor).expectations expectOperand =
      expectOperand :: (scan registry located.token.expectsOperandAfter after).expectations
        located.token.expectsOperandAfter := by
  rw [scan_token h ht]
  rfl

/-- The steps under these flags are those that scan the text to its end: the tiles are its tokens,
or there are none where it has an error. -/
theorem tokensFrom_eq_tiles (registry : Registry) (expectOperand : Bool) (cursor : Cursor) :
    tokensFrom registry expectOperand cursor =
      (cursor.tiles registry
        ((scan registry expectOperand cursor).expectations expectOperand)).map
          (List.map fun t => ⟨t.start, t.token⟩) := by
  induction expectOperand, cursor using scan_induction registry with
  | error expectOperand cursor e after hs =>
    rw [tokensFrom_next, hs, Scan.expectations, tiles_of_error hs]
    rfl
  | finish expectOperand cursor located after hs ht =>
    rw [tokensFrom_next, hs, scan_finish hs ht, Scan.expectations, tiles_of_ok hs]
    simp only [ht, if_true, List.map_nil, Cursor.tiles, Except.map, List.map_cons]
    rw [← ht]
  | token expectOperand cursor located after hs ht ih =>
    rw [tokensFrom_next, hs, expectations_token hs ht, tiles_of_ok hs]
    simp only [ht, if_false]
    rw [ih]
    cases after.tiles registry _ <;> rfl

/-- The tokens of a text are laid out in its tiles. -/
theorem tiles_of_tokenize {source : String} {row : List Located}
    (h : tokenize registry source = .ok row) :
    ∃ tiles, tilesOf registry source = .ok tiles ∧
      row = tiles.map fun t => ⟨t.start, t.token⟩ := by
  rw [tokenize, tokensFrom_eq_tiles] at h
  change (tilesOf registry source).map _ = _ at h
  cases htiles : tilesOf registry source with
  | error e =>
    rw [htiles] at h
    cases h
  | ok tiles =>
    rw [htiles] at h
    cases h
    exact ⟨tiles, rfl, rfl⟩

/-- Whether a place in a text, of which the tokens are known, is inside no token: at its start, at
its end or where a token begins or ends, or among the blanks between two of them. -/
def isBoundary (registry : Registry) (source : String) (place : Nat) : Bool :=
  place ≤ source.length &&
    match tilesOf registry source with
    | .ok tiles => tiles.all fun t => place ≤ t.start || t.stop ≤ place
    | .error _ => false

/-- A text with characters put in at a place. -/
def insertAt (source : String) (place : Nat) (gap : String) : String :=
  .ofList (source.toList.take place ++ gap.toList ++ source.toList.drop place)

/-- Where a character of a text stands when `count` characters have been put in at a place. -/
def shift (place count index : Nat) : Nat :=
  if place ≤ index then index + count else index

/-! ### Texts moved as a whole -/

/-- Blanks are skipped up to the first character that is none. -/
theorem skipBlanks_of_split {blanks cs : List Char} {c : Char}
    (hblanks : ∀ c ∈ blanks, Text.isBlank c = true) (hc : Text.isBlank c = false)
    (position : Nat) :
    (Cursor.mk position (blanks ++ c :: cs)).skipBlanks =
      ⟨position + blanks.length, c :: cs⟩ := by
  have hstops : ¬Text.isBlank c = true := by simp [hc]
  simp only [Cursor.skipBlanks, List.takeWhile_append_of_pos hblanks,
    List.dropWhile_append_of_pos hblanks, List.takeWhile_cons_of_neg hstops,
    List.dropWhile_cons_of_neg hstops, List.append_nil]

/-- A text is the blanks that are skipped and what stands behind them. -/
theorem exists_blanks (cursor : Cursor) :
    ∃ blanks, (∀ c ∈ blanks, Text.isBlank c = true) ∧
      cursor.rest = blanks ++ cursor.skipBlanks.rest ∧
        cursor.skipBlanks.position = cursor.position + blanks.length :=
  ⟨cursor.rest.takeWhile Text.isBlank, List.all_eq_true.mp List.all_takeWhile,
    List.takeWhile_append_dropWhile.symm, rfl⟩

/-- Behind blanks that are skipped there are none to skip. -/
theorem skipBlanks_twice (cursor : Cursor) : cursor.skipBlanks.skipBlanks = cursor.skipBlanks := by
  cases hrest : cursor.skipBlanks.rest with
  | nil =>
    have hnil : cursor.skipBlanks = ⟨cursor.skipBlanks.position, []⟩ := by rw [← hrest]
    rw [hnil]
    rfl
  | cons c cs =>
    have hcons : cursor.skipBlanks = ⟨cursor.skipBlanks.position, c :: cs⟩ := by rw [← hrest]
    rw [hcons]
    exact skipBlanks_of_split (fun c hc => absurd hc List.not_mem_nil) (isBlank_of_front hrest) _

/-- A token starts behind the blanks that are skipped. -/
theorem index_of_next {located : Located} {after : Cursor}
    (h : cursor.next registry expectOperand = (.ok located, after)) :
    located.index = cursor.skipBlanks.position := by
  cases Cursor.steps_iff.mpr h with
  | finish blank => rfl
  | token front read apart => rfl

/-- At the end nothing is left behind the blanks. -/
theorem rest_of_finish {located : Located} {after : Cursor}
    (h : cursor.next registry expectOperand = (.ok located, after))
    (ht : located.token = .finish) : cursor.skipBlanks.rest = [] := by
  cases Cursor.steps_iff.mpr h with
  | finish blank => exact blank
  | token front read apart => exact absurd ht (Lexeme.read_ne_finish read)

/-- A cursor some characters further on, with the same text behind it. -/
def Cursor.moved (count : Nat) (cursor : Cursor) : Cursor :=
  ⟨cursor.position + count, cursor.rest⟩

/-- Blanks are skipped alike in a text that is moved. -/
theorem skipBlanks_moved (count : Nat) (cursor : Cursor) :
    (cursor.moved count).skipBlanks = cursor.skipBlanks.moved count := by
  simp only [Cursor.moved, Cursor.skipBlanks, Nat.add_right_comm]

/-- A step in a text that is moved yields the same at a moved index. -/
theorem next_moved {f : Nat → Nat} {count : Nat} {answer : Except SyntaxError Located}
    {after : Cursor} (hf : ∀ i, cursor.position ≤ i → f i = i + count)
    (h : cursor.next registry expectOperand = (answer, after)) :
    (cursor.moved count).next registry expectOperand =
        (reindexAnswer f (Located.reindex f) answer, after.moved count) ∧
      cursor.position ≤ after.position := by
  have hskip := skipBlanks_moved count cursor
  have hle : cursor.position ≤ cursor.skipBlanks.position := Nat.le_add_right _ _
  have hindex : f cursor.skipBlanks.position = (cursor.moved count).skipBlanks.position := by
    rw [hf _ hle, hskip]
    rfl
  have hrest : (cursor.moved count).skipBlanks.rest = cursor.skipBlanks.rest := by
    rw [hskip]
    rfl
  have hbehind : ∀ length, cursor.position ≤ cursor.skipBlanks.position + length :=
    fun length => Nat.le_trans hle (Nat.le_add_right _ _)
  have hstop : ∀ length, cursor.skipBlanks.position + length + count =
      (cursor.moved count).skipBlanks.position + length := by
    intro length
    rw [hskip]
    exact Nat.add_right_comm _ _ _
  cases Cursor.steps_iff.mpr h with
  | finish blank =>
    refine ⟨?_, hle⟩
    rw [Cursor.steps_iff.mp (.finish (hrest.trans blank)), ← hindex, hskip]
    rfl
  | fault front read =>
    refine ⟨?_, hle⟩
    rw [Cursor.steps_iff.mp (.fault (hrest.trans front) read), ← hindex, hskip]
    rfl
  | @attached c cs lexeme front read sigil =>
    refine ⟨?_, hbehind _⟩
    rw [Cursor.steps_iff.mp (.attached (hrest.trans front) read sigil), ← hstop,
      ← hf _ (hbehind _)]
    simp only [reindexAnswer, SyntaxError.reindex, Cursor.moved, hf _ (hbehind _)]
  | @token c cs lexeme front read apart =>
    refine ⟨?_, hbehind _⟩
    rw [Cursor.steps_iff.mp (.token (hrest.trans front) read apart), ← hstop, ← hindex]
    rfl

/-- A text that is moved has the same tokens at moved indices. -/
theorem scan_moved {f : Nat → Nat} {count : Nat}
    (hf : ∀ i, cursor.position ≤ i → f i = i + count) :
    scan registry expectOperand (cursor.moved count) =
      (scan registry expectOperand cursor).reindex f := by
  induction expectOperand, cursor using scan_induction registry with
  | error expectOperand cursor e after hs =>
    rw [scan_error hs, scan_error (next_moved hf hs).1]
    rfl
  | finish expectOperand cursor located after hs ht =>
    rw [scan_finish hs ht, scan_finish (next_moved hf hs).1 ht]
    rfl
  | token expectOperand cursor located after hs ht ih =>
    obtain ⟨hmoved, hle⟩ := next_moved hf hs
    have hfurther : scan registry (located.reindex f).token.expectsOperandAfter
        (after.moved count) =
          (scan registry located.token.expectsOperandAfter after).reindex f :=
      ih fun i hi => hf i (Nat.le_trans hle hi)
    rw [scan_token hs ht, scan_token hmoved ht, hfurther]
    rfl

/-- Blanks at the start of a text do not matter. -/
theorem scan_congr {other : Cursor} (h : other.skipBlanks = cursor.skipBlanks) :
    scan registry expectOperand other = scan registry expectOperand cursor := by
  have hnext : other.next registry expectOperand = cursor.next registry expectOperand := by
    simp only [Cursor.next, h]
  rw [scan_eq, scan_eq, hnext]

/-! ### Blanks put into a text -/

variable {gap front back : List Char}

/-- Blanks behind blanks are skipped with them. -/
theorem skipBlanks_insert (hfront : ∀ c ∈ front, Text.isBlank c = true)
    (hgap : ∀ c ∈ gap, Text.isBlank c = true) (position : Nat) :
    (Cursor.mk position (front ++ gap ++ back)).skipBlanks =
      (Cursor.mk position (front ++ back)).skipBlanks.moved gap.length := by
  have hboth : ∀ c ∈ front ++ gap, Text.isBlank c = true := fun c hc =>
    (List.mem_append.mp hc).elim (hfront c) (hgap c)
  simp only [Cursor.skipBlanks, Cursor.moved, List.takeWhile_append_of_pos hboth,
    List.dropWhile_append_of_pos hboth, List.takeWhile_append_of_pos hfront,
    List.dropWhile_append_of_pos hfront, List.length_append, Cursor.mk.injEq, and_true]
  omega

/-- Blanks do not decide whether an argument list opens. -/
theorem opensCall_insert (hgap : ∀ c ∈ gap, Text.isBlank c = true) :
    Lexeme.opensCall (front ++ gap ++ back) = Lexeme.opensCall (front ++ back) := by
  have hblank : (gap ++ back).dropWhile Text.isBlank = back.dropWhile Text.isBlank :=
    List.dropWhile_append_of_pos hgap
  simp only [Lexeme.opensCall, List.append_assoc, List.dropWhile_append, hblank]
  cases front.dropWhile Text.isBlank <;> rfl

/-- The characters before a place among the blanks at the start of a text are blank. -/
theorem blank_of_place_le (hrest : cursor.rest = front ++ back)
    (hplace : cursor.position + front.length ≤ cursor.skipBlanks.position) :
    ∀ c ∈ front, Text.isBlank c = true := by
  have hlength : front.length ≤ (cursor.rest.takeWhile Text.isBlank).length :=
    Nat.le_of_add_le_add_left hplace
  have hfront : front <+: cursor.rest.takeWhile Text.isBlank :=
    List.prefix_of_prefix_length_le ⟨back, hrest.symm⟩ (List.takeWhile_prefix _) hlength
  exact fun c hc => List.all_eq_true.mp List.all_takeWhile c (hfront.subset hc)

/-- Blanks put in front of all tokens move them. -/
theorem scan_insert_blanks (hgap : ∀ c ∈ gap, Text.isBlank c = true)
    (hrest : cursor.rest = front ++ back)
    (hplace : cursor.position + front.length ≤ cursor.skipBlanks.position) :
    scan registry expectOperand ⟨cursor.position, front ++ gap ++ back⟩ =
      (scan registry expectOperand cursor).reindex
        (shift (cursor.position + front.length) gap.length) := by
  have hfront := blank_of_place_le hrest hplace
  have hcursor : cursor = ⟨cursor.position, front ++ back⟩ := by rw [← hrest]
  have hskip : (Cursor.mk cursor.position (front ++ gap ++ back)).skipBlanks =
      (cursor.skipBlanks.moved gap.length).skipBlanks := by
    rw [skipBlanks_moved, skipBlanks_twice, skipBlanks_insert hfront hgap, ← hcursor]
  have hshift : ∀ i, cursor.skipBlanks.position ≤ i →
      shift (cursor.position + front.length) gap.length i = i + gap.length := fun i hi =>
    if_pos (Nat.le_trans hplace hi)
  rw [scan_congr hskip, scan_moved hshift, scan_congr (skipBlanks_twice cursor)]

/-- Blanks may stand behind any part of a text in the place of what follows it. -/
theorem replaces_of_blanks (hgap : ∀ c ∈ gap, Text.isBlank c = true) (front back : List Char) :
    Replaces (front ++ gap ++ back) (front ++ back) := by
  refine replaces_of_insert ?_ (opensCall_insert hgap)
  cases gap with
  | nil => rfl
  | cons c gap =>
    have hc : Text.isBlank c = true := hgap c List.mem_cons_self
    change isDelimiter c = true
    rw [isDelimiter, hc, Bool.true_or]

/-- Blanks put behind a token change neither the token nor where the next step begins. -/
theorem next_insert (reachable : registry.Reachable) (hgap : ∀ c ∈ gap, Text.isBlank c = true)
    (hrest : cursor.rest = front ++ back) {located : Located} {after : Cursor}
    (h : cursor.next registry expectOperand = (.ok located, after))
    (ht : located.token ≠ .finish) (hplace : after.position ≤ cursor.position + front.length) :
    ∃ further, after.rest = further ++ back ∧
      after.position + further.length = cursor.position + front.length ∧
      (Cursor.mk cursor.position (front ++ gap ++ back)).next registry expectOperand =
        (.ok located, ⟨after.position, further ++ gap ++ back⟩) := by
  obtain ⟨blanks, hblanks, hcursor, hposition⟩ := exists_blanks cursor
  cases Cursor.steps_iff.mpr h with
  | finish blank => exact absurd rfl ht
  | @token c cs lexeme hfront read apart =>
    obtain ⟨text, token, rest⟩ := lexeme
    obtain ⟨hsplit, hne⟩ := Lexeme.lexeme_split read
    cases text with
    | nil => exact absurd rfl hne
    | cons d tail =>
      obtain ⟨rfl, rfl⟩ : d = c ∧ tail ++ rest = cs := by simpa using hsplit
      -- The token and the blanks before it lie in front of the place.
      have hcovered : blanks ++ d :: tail <+: front := by
        refine List.prefix_of_prefix_length_le ⟨rest, ?_⟩ ⟨back, hrest.symm⟩ ?_
        · rw [hcursor, hfront, List.append_assoc, List.cons_append]
        · rw [hposition] at hplace
          rw [List.length_append]
          simp only at hplace
          omega
      obtain ⟨further, rfl⟩ := hcovered
      have hfurther : rest = further ++ back := by
        rw [hcursor, hfront] at hrest
        simpa using hrest
      subst hfurther
      have hreplaces := replaces_of_blanks hgap further back
      have hread := Lexeme.read_of_replaces reachable hreplaces read
      have hinserted : blanks ++ d :: tail ++ further ++ gap ++ back =
          blanks ++ d :: (tail ++ (further ++ gap ++ back)) := by
        simp only [List.append_assoc, List.cons_append]
      have hskip : (Cursor.mk cursor.position
          (blanks ++ d :: (tail ++ (further ++ gap ++ back)))).skipBlanks =
            ⟨cursor.skipBlanks.position, d :: (tail ++ (further ++ gap ++ back))⟩ := by
        rw [hposition]
        exact skipBlanks_of_split hblanks (isBlank_of_front hfront) _
      have hstep := Cursor.steps_iff.mp
        (.token (congrArg Cursor.rest hskip) hread (apart_of_replaces hreplaces apart))
      refine ⟨further, rfl, ?_, ?_⟩
      · simp only [hposition, List.length_append]
        omega
      · rw [hinserted, hstep, hskip]

/-- Blanks put between two tokens move those behind them. -/
theorem scan_insert (reachable : registry.Reachable) (hgap : ∀ c ∈ gap, Text.isBlank c = true)
    {tiles : List Tile} (hrest : cursor.rest = front ++ back)
    (htiles : cursor.tiles registry
      ((scan registry expectOperand cursor).expectations expectOperand) = .ok tiles)
    (hplace : ∀ t ∈ tiles,
      cursor.position + front.length ≤ t.start ∨ t.stop ≤ cursor.position + front.length) :
    scan registry expectOperand ⟨cursor.position, front ++ gap ++ back⟩ =
      (scan registry expectOperand cursor).reindex
        (shift (cursor.position + front.length) gap.length) := by
  induction expectOperand, cursor using scan_induction registry generalizing front tiles with
  | error expectOperand cursor e after hs =>
    rw [Scan.expectations, tiles_of_error hs] at htiles
    cases htiles
  | finish expectOperand cursor located after hs ht =>
    refine scan_insert_blanks hgap hrest ?_
    have htotal := skipBlanks_total cursor
    rw [hrest, rest_of_finish hs ht, List.length_append, List.length_nil] at htotal
    omega
  | token expectOperand cursor located after hs ht ih =>
    rw [expectations_token hs ht, tiles_of_ok hs] at htiles
    cases hfurther : after.tiles registry _ with
    | error e =>
      rw [hfurther] at htiles
      cases htiles
    | ok further =>
      rw [hfurther] at htiles
      cases htiles
      have hfirst := hplace _ List.mem_cons_self
      by_cases hbefore : after.position ≤ cursor.position + front.length
      · obtain ⟨others, hafter, hlength, hstep⟩ := next_insert reachable hgap hrest hs ht hbefore
        have hlater := ih hafter hfurther fun t hmem => by
          rw [hlength]
          exact hplace t (List.mem_cons_of_mem _ hmem)
        have hindex : shift (cursor.position + front.length) gap.length located.index =
            located.index := by
          have hlt := (next_index hs ht).2
          exact if_neg (by omega)
        have hlocated : located.reindex (shift (cursor.position + front.length) gap.length) =
            located := by
          rw [Located.reindex, hindex]
        rw [scan_token hstep ht, scan_token hs ht, hlater, hlength, Scan.reindex, Scan.reindex,
          List.map_cons, hlocated]
      · refine scan_insert_blanks hgap hrest ?_
        rw [← index_of_next hs]
        exact hfirst.resolve_right hbefore

/-! ### Whole texts -/

/-- Blanks put into a text where no token is cut move the tokens behind them. -/
theorem scanOf_insertAt (reachable : registry.Reachable) {source blanks : String} {place : Nat}
    (boundary : isBoundary registry source place = true)
    (blank : blanks.toList.all Text.isBlank = true) :
    scanOf registry (insertAt source place blanks) =
      (scanOf registry source).reindex (shift place blanks.length) := by
  simp only [isBoundary, Bool.and_eq_true, decide_eq_true_eq] at boundary
  obtain ⟨hlength, hplace⟩ := boundary
  have hfront : (source.toList.take place).length = place := by
    rw [List.length_take, String.length_toList]
    exact Nat.min_eq_left hlength
  have hstart : 0 + (source.toList.take place).length = place := by rw [Nat.zero_add, hfront]
  split at hplace
  next tiles htiles =>
    have hapart : ∀ t ∈ tiles, place ≤ t.start ∨ t.stop ≤ place := by
      simpa using hplace
    have hinsert : scan registry true
        ⟨0, source.toList.take place ++ blanks.toList ++ source.toList.drop place⟩ = _ :=
      scan_insert reachable (List.all_eq_true.mp blank)
        (List.take_append_drop place source.toList).symm htiles (hstart.symm ▸ hapart)
    rw [scanOf, insertAt, Cursor.start, String.toList_ofList, hinsert]
    change Scan.reindex (shift (0 + (source.toList.take place).length) _) _ = _
    rw [hstart, String.length_toList]
    rfl
  · cases hplace

/-- A text that has tokens, laid out in tiles, has them also with blanks put in at a place that is
inside no tile: between two tokens, before the first one or at the end. The tokens are the same, and
those at the place or behind it have moved by as many characters as were put in. The text compiles
to the same code, or to the same errors and problems at the indices of their tokens, and mentions
the same variables. -/
theorem tokenize_insertAt (registry : Registry) (reachable : registry.Reachable)
    (source blanks : String) (place : Nat) (row : List Located)
    (accepted : tokenize registry source = .ok row)
    (boundary : isBoundary registry source place = true)
    (blank : blanks.toList.all Text.isBlank = true) :
    (∃ tiles, tilesOf registry source = .ok tiles ∧
        row = tiles.map fun t => ⟨t.start, t.token⟩) ∧
      tokenize registry (insertAt source place blanks) =
        .ok (row.map (Located.reindex (shift place blanks.length))) ∧
      compile registry (insertAt source place blanks) =
        (compile registry source).moveTo (shift place blanks.length)
          (insertAt source place blanks) := by
  have hscan := scanOf_insertAt reachable boundary blank
  refine ⟨tiles_of_tokenize accepted, ?_, compile_of_scanOf _ hscan⟩
  obtain ⟨n, hn, rfl⟩ := tokenize_eq_ok_iff.mp accepted
  refine tokenize_eq_ok_iff.mpr ⟨shift place blanks.length n, ?_, ?_⟩
  · rw [hscan, Scan.reindex, hn]
    rfl
  · rw [hscan, Scan.reindex, List.map_append]
    rfl

/-- Two blanks between an operator and the sign of a number. -/
theorem tokenize_insertAt_sign :
    isBoundary .builtin "max($a$,2)>=-3+nope" 12 = true ∧
      insertAt "max($a$,2)>=-3+nope" 12 "  " = "max($a$,2)>=  -3+nope" ∧
      tokenize .builtin "max($a$,2)>=  -3+nope" =
        .ok [⟨0, .call "max"⟩, ⟨3, .opening⟩, ⟨4, .reference "a"⟩, ⟨7, .comma⟩,
          ⟨8, .literal 2⟩, ⟨9, .closing⟩, ⟨10, .operator ">="⟩, ⟨14, .literal (-3)⟩,
          ⟨16, .operator "+"⟩, ⟨17, .constant "nope"⟩, ⟨21, .finish⟩] ∧
      compile .builtin "max($a$,2)>=  -3+nope" =
        (compile .builtin "max($a$,2)>=-3+nope").moveTo (shift 12 2) "max($a$,2)>=  -3+nope" := by
  have haccepted : tokenize .builtin "max($a$,2)>=-3+nope" =
      .ok [⟨0, .call "max"⟩, ⟨3, .opening⟩, ⟨4, .reference "a"⟩, ⟨7, .comma⟩,
        ⟨8, .literal 2⟩, ⟨9, .closing⟩, ⟨10, .operator ">="⟩, ⟨12, .literal (-3)⟩,
        ⟨14, .operator "+"⟩, ⟨15, .constant "nope"⟩, ⟨19, .finish⟩] := by
    decide +kernel
  have hboundary : isBoundary .builtin "max($a$,2)>=-3+nope" 12 = true := by decide +kernel
  have hinsert : insertAt "max($a$,2)>=-3+nope" 12 "  " = "max($a$,2)>=  -3+nope" := by
    decide +kernel
  obtain ⟨-, htokens, hcompile⟩ :=
    tokenize_insertAt .builtin .builtin _ "  " 12 _ haccepted hboundary (by decide)
  rw [hinsert] at htokens hcompile
  exact ⟨hboundary, hinsert, htokens, hcompile⟩

end GateFormula
