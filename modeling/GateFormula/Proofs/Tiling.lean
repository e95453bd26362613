import GateFormula.Proofs.Declaring
import Mathlib.Logic.ExistsUnique

/-!
# Tokens as tiles of a text

A scanner may be told anything of operands, call by call. As long as no call fails, its tokens
lie side by side in the text with nothing but blanks between them, and the characters that a
token covers spell it. `Tiling` says so of a row of tokens, and `Tiling.covered` and
`Tiling.pairwise` draw from it that every character that is no blank belongs to one token.
-/

namespace GateFormula

/-! ### How tokens are written -/

/-- Whether a text may be a bare word: it has characters, and none of them is a blank, a sigil, a
parenthesis or a comma. -/
def isBareWord (text : List Char) : Bool :=
  !text.isEmpty && text.all fun c => !(Text.isBlank c || ['$', '(', ')', ','].contains c)

/-- A name and how it is written between sigils. -/
structure BetweenSigils (raw : List Char) (name : String) : Prop where
  /-- What is written ends at no earlier sigil and crosses no parenthesis or comma. -/
  plain : ∀ c ∈ raw, c ∉ ['$', '(', ')', ',']
  /-- Blanks at its ends do not count. -/
  trimmed : name = .ofList (Text.trim raw)
  /-- Something else is left. -/
  nonempty : name ≠ ""

/-- How a token is written. -/
inductive Token.Written : Token → List Char → Prop where
  /-- A number is the finite one that its characters spell. -/
  | literal {value text} (spelled : Number.read text = .ok value)
      (finite : value.isFinite = true) : Written (.literal value) text
  /-- The name of a variable stands between sigils. -/
  | reference {raw name} (sigils : BetweenSigils raw name) :
      Written (.reference name) ('$' :: raw ++ ['$'])
  /-- The name of a function may stand between sigils. -/
  | quotedCall {raw name} (sigils : BetweenSigils raw name) :
      Written (.call name) ('$' :: raw ++ ['$'])
  /-- Without them it is written as it is. -/
  | call {text} (bare : isBareWord text = true) : Written (.call (.ofList text)) text
  /-- The name of a constant is written as it is. -/
  | constant {text} (bare : isBareWord text = true) : Written (.constant (.ofList text)) text
  /-- An operator is written as its symbol. -/
  | operator {text} : Written (.operator (.ofList text)) text
  /-- An opening parenthesis is written as itself. -/
  | opening : Written .opening ['(']
  /-- So is a closing one. -/
  | closing : Written .closing [')']
  /-- So is a comma. -/
  | comma : Written .comma [',']
  /-- The end is not written. -/
  | finish : Written .finish []

/-- The end has no characters. -/
theorem Token.Written.eq_nil {text : List Char} (h : Token.Written .finish text) : text = [] := by
  cases h
  rfl

variable {registry : Registry}

/-- The characters of a bare word behind its first one belong to it. -/
theorem wordTail_bare (registry : Registry) (numeric : Bool) (previous : Char)
    (cs : List Char) :
    ((Lexeme.wordTail registry numeric previous cs).1.all fun c =>
      !(Text.isBlank c || ['$', '(', ')', ','].contains c)) = true := by
  induction cs generalizing previous with
  | nil => rfl
  | cons c cs ih =>
    simp only [Lexeme.wordTail]
    split
    · rfl
    next hstays =>
      have hc : (!(Text.isBlank c || ['$', '(', ')', ','].contains c)) = true := by
        simp only [Bool.not_eq_true, Bool.and_eq_false_iff, Bool.not_eq_false'] at hstays
        rcases hstays with hsign | hends
        · simp only [Bool.and_eq_true, List.contains_iff_mem, List.mem_cons, List.not_mem_nil,
            or_false] at hsign
          rcases hsign.1.2 with rfl | rfl <;> decide
        · simp only [Lexeme.endsWord, Bool.or_eq_false_iff] at hends
          rw [hends.1.1, hends.1.2]
          rfl
      simp only [List.all_cons, hc, ih c, Bool.and_self]

/-- A bare word is written as it is, unless it is a number. -/
theorem written_ofWord {c : Char} {cs : List Char}
    (hc : (!(Text.isBlank c || ['$', '(', ')', ','].contains c)) = true) :
    (Lexeme.ofWord registry c cs).token.Written (Lexeme.ofWord registry c cs).text := by
  have hbare : isBareWord (Lexeme.ofWord registry c cs).text = true := by
    simp only [isBareWord, Lexeme.ofWord, List.isEmpty_cons, Bool.not_false, Bool.true_and,
      List.all_cons, hc, wordTail_bare]
  have hnamed : ∀ {text rest : List Char}, isBareWord text = true →
      Token.Written
        (if Lexeme.opensCall rest then .call (.ofList text) else .constant (.ofList text))
        text := by
    intro text rest h
    split
    · exact .call h
    · exact .constant h
  simp only [Lexeme.ofWord, Lexeme.wordToken] at hbare ⊢
  split
  · split
    next value hread =>
      split
      next hfinite => exact .literal hread hfinite
      · exact hnamed hbare
    · exact hnamed hbare
  · exact hnamed hbare

/-- A name between sigils is written between them. -/
theorem written_ofSymbol {cs : List Char} {lexeme : Lexeme}
    (h : Lexeme.ofSymbol cs = .ok lexeme) : lexeme.token.Written lexeme.text := by
  unfold Lexeme.ofSymbol at h
  split at h
  · cases h
  next raw rest hbody =>
    simp only at h
    split at h
    · cases h
    next hname =>
      cases h
      have hsigils : BetweenSigils raw (.ofList (Text.trim raw)) :=
        ⟨(symbolBody_eq_some_iff.mp hbody).2, rfl, hname⟩
      simp only
      split
      · exact .quotedCall hsigils
      · exact .reference hsigils

/-- The characters that a token covers spell it. -/
theorem written_of_read {expectOperand : Bool} {c : Char} {cs : List Char} {lexeme : Lexeme}
    (hc : Text.isBlank c = false)
    (h : Lexeme.read registry expectOperand c cs = .ok lexeme) :
    lexeme.token.Written lexeme.text := by
  unfold Lexeme.read at h
  split at h
  next hopening =>
    cases h
    rw [hopening]
    exact .opening
  next hopening =>
  split at h
  next hclosing =>
    cases h
    rw [hclosing]
    exact .closing
  next hclosing =>
  split at h
  next hcomma =>
    cases h
    rw [hcomma]
    exact .comma
  next hcomma =>
  split at h
  · exact written_ofSymbol h
  next hsigil =>
  have hword : (!(Text.isBlank c || ['$', '(', ')', ','].contains c)) = true := by
    simp [hc, hopening, hclosing, hcomma, hsigil]
  split at h
  · cases h
    exact written_ofWord hword
  split at h
  · unfold Lexeme.ofOperator at h
    split at h <;> cases h
    exact .operator
  · cases h
    exact written_ofWord hword

/-! ### Tiles -/

/-- A token with the part of a text that it covers. -/
structure Tile where
  /-- The token. -/
  token : Token
  /-- Index of its first character. -/
  start : Nat
  /-- Index behind its last character. -/
  stop : Nat
deriving DecidableEq, Repr

/-- Scan a token for each flag, which says whether an operand is expected, up to the first error. -/
def Cursor.tiles (registry : Registry) : List Bool → Cursor → Except SyntaxError (List Tile)
  | [], _ => .ok []
  | expectOperand :: flags, cursor =>
    match cursor.next registry expectOperand with
    | (.error error, _) => .error error
    | (.ok located, after) =>
      (tiles registry flags after).map (⟨located.token, located.index, after.position⟩ :: ·)

/-- The characters of a text from one index to before another. -/
def part (source : String) (start stop : Nat) : List Char :=
  (source.toList.drop start).take (stop - start)

/-- A tile lies in a text and is what it says. -/
structure Tile.Covers (source : String) (t : Tile) : Prop where
  /-- It ends in the text. -/
  stop_le : t.stop ≤ source.length
  /-- It does not end before it starts. -/
  start_le : t.start ≤ t.stop
  /-- The characters between spell its token. -/
  written : t.token.Written (part source t.start t.stop)
  /-- Every token but the end has a character. -/
  start_lt : t.token ≠ .finish → t.start < t.stop
  /-- The end is where the text ends, and nothing else is there. -/
  finish_iff : t.token = .finish ↔ t.start = source.length

/-- From a place in a text on, tiles follow each other with nothing but blanks between them. -/
inductive Tiling (source : String) : Nat → List Tile → Prop where
  /-- No tile follows. -/
  | nil {place} : Tiling source place []
  /-- A tile follows behind blanks, and then others. -/
  | cons {place t tiles} (place_le : place ≤ t.start)
      (blank : (part source place t.start).all Text.isBlank = true) (covers : t.Covers source)
      (further : Tiling source t.stop tiles) : Tiling source place (t :: tiles)

/-! ### One step -/

/-- Skipping blanks loses no character. -/
theorem skipBlanks_total (cursor : Cursor) :
    cursor.skipBlanks.position + cursor.skipBlanks.rest.length =
      cursor.position + cursor.rest.length := by
  have hsplit : (cursor.rest.takeWhile Text.isBlank).length +
      (cursor.rest.dropWhile Text.isBlank).length = cursor.rest.length := by
    rw [← List.length_append, List.takeWhile_append_dropWhile]
  simp only [Cursor.skipBlanks]
  omega

/-- The blanks that are skipped lie between the two places. -/
theorem part_skipBlanks {source : String} {cursor : Cursor} (hw : cursor.Within source) :
    (part source cursor.position cursor.skipBlanks.position).all Text.isBlank = true := by
  have hlength : cursor.skipBlanks.position - cursor.position =
      (cursor.rest.takeWhile Text.isBlank).length :=
    Nat.add_sub_cancel_left _ _
  have htake : (cursor.rest.takeWhile Text.isBlank ++ cursor.rest.dropWhile Text.isBlank).take
      (cursor.rest.takeWhile Text.isBlank).length = cursor.rest.takeWhile Text.isBlank :=
    List.take_left' rfl
  rw [List.takeWhile_append_dropWhile] at htake
  rw [part, hlength, ← hw, htake]
  exact List.all_takeWhile

/-- The first character behind the blanks is none. -/
theorem isBlank_of_front {cursor : Cursor} {c : Char} {cs : List Char}
    (front : cursor.skipBlanks.rest = c :: cs) : Text.isBlank c = false := by
  have hdrop : cursor.rest.dropWhile Text.isBlank = c :: cs := front
  have hhead := List.head?_dropWhile_not Text.isBlank cursor.rest
  rw [hdrop] at hhead
  simpa using hhead

/-- A step that succeeds reads a tile behind blanks. -/
theorem covers_of_next {source : String} {expectOperand : Bool} {cursor after : Cursor}
    {located : Located} (hw : cursor.Within source)
    (htotal : cursor.position + cursor.rest.length = source.length)
    (h : cursor.next registry expectOperand = (.ok located, after)) :
    cursor.position ≤ located.index ∧
      (part source cursor.position located.index).all Text.isBlank = true ∧
      Tile.Covers source ⟨located.token, located.index, after.position⟩ ∧
      after.position + after.rest.length = source.length := by
  have hskip : cursor.skipBlanks.rest = source.toList.drop cursor.skipBlanks.position :=
    hw.skipBlanks
  have hhere : cursor.skipBlanks.position + cursor.skipBlanks.rest.length = source.length :=
    (skipBlanks_total cursor).trans htotal
  have hle : cursor.position ≤ cursor.skipBlanks.position := Nat.le_add_right _ _
  have hblank := part_skipBlanks hw
  cases Cursor.steps_iff.mpr h with
  | finish blank =>
    have hend : cursor.skipBlanks.position = source.length := by
      rw [blank, List.length_nil] at hhere
      exact hhere
    have hwritten : Token.Written .finish
        (part source cursor.skipBlanks.position cursor.skipBlanks.position) := by
      rw [part, Nat.sub_self, List.take_zero]
      exact .finish
    have hcovers : Tile.Covers source
        ⟨.finish, cursor.skipBlanks.position, cursor.skipBlanks.position⟩ :=
      ⟨Nat.le_of_eq hend, Nat.le_refl _, hwritten, fun hne => absurd rfl hne,
        ⟨fun _ => hend, fun _ => rfl⟩⟩
    exact ⟨hle, hblank, hcovers, hhere⟩
  | @token c cs lexeme front read apart =>
    obtain ⟨hsplit, hne⟩ := Lexeme.lexeme_split read
    have hpositive : 0 < lexeme.text.length := List.length_pos_iff.mpr hne
    have hrest : cursor.skipBlanks.rest = lexeme.text ++ lexeme.rest := front.trans hsplit.symm
    have hafter : cursor.skipBlanks.position + lexeme.text.length + lexeme.rest.length =
        source.length := by
      rw [hrest, List.length_append] at hhere
      omega
    have hpart : part source cursor.skipBlanks.position
        (cursor.skipBlanks.position + lexeme.text.length) = lexeme.text := by
      rw [part, Nat.add_sub_cancel_left, ← hskip, hrest]
      exact List.take_left' rfl
    have hwritten : lexeme.token.Written lexeme.text :=
      written_of_read (isBlank_of_front front) read
    have hfinish : lexeme.token ≠ .finish := by
      intro htoken
      rw [htoken] at hwritten
      exact hne hwritten.eq_nil
    have hcovers : Tile.Covers source ⟨lexeme.token, cursor.skipBlanks.position,
        cursor.skipBlanks.position + lexeme.text.length⟩ :=
      ⟨by simp only; omega, Nat.le_add_right _ _, hpart.symm ▸ hwritten,
        fun _ => Nat.lt_add_of_pos_right hpositive,
        ⟨fun htoken => absurd htoken hfinish, fun hend => by simp only at hend; omega⟩⟩
    exact ⟨hle, hblank, hcovers, hafter⟩

/-! ### Tokens of a scan -/

/-- A token stands in a text: it covers characters from its index on that spell it. -/
def Located.StandsIn (source : String) (located : Located) : Prop :=
  ∃ stop, Tile.Covers source ⟨located.token, located.index, stop⟩

/-- A text starts with all its characters in front. -/
theorem start_total (source : String) :
    (Cursor.start source).position + (Cursor.start source).rest.length = source.length := by
  change 0 + source.toList.length = source.length
  rw [String.length_toList, Nat.zero_add]

/-- What holds of every token that is read in a text holds of all tokens of the text. -/
theorem scanOf_forall {source : String} {P : Located → Prop}
    (h : ∀ expectOperand (cursor : Cursor) located after, cursor.Within source →
      cursor.position + cursor.rest.length = source.length →
        cursor.next registry expectOperand = (.ok located, after) → P located) :
    ∀ located ∈ (scanOf registry source).all, P located := by
  have hscan : ∀ expectOperand (cursor : Cursor), cursor.Within source →
      cursor.position + cursor.rest.length = source.length →
        ∀ located ∈ (scan registry expectOperand cursor).all, P located := by
    intro expectOperand cursor
    induction expectOperand, cursor using scan_induction registry with
    | error expectOperand cursor e after hs => simp [scan_error hs, Scan.all]
    | finish expectOperand cursor located after hs ht =>
      intro hw htotal
      have hlast := h _ _ _ _ hw htotal hs
      rw [scan_finish hs ht]
      obtain ⟨index, token⟩ := located
      cases ht
      exact List.forall_mem_singleton.mpr hlast
    | token expectOperand cursor located after hs ht ih =>
      intro hw htotal
      have hafter := (covers_of_next hw htotal hs).2.2.2
      rw [scan_token hs ht, Scan.all_cons]
      exact List.forall_mem_cons.mpr ⟨h _ _ _ _ hw htotal hs, ih (next_within hw hs).1 hafter⟩
  exact hscan true (.start source) (within_start source) (start_total source)

/-- All tokens of a text stand in it. -/
theorem scanOf_standsIn (registry : Registry) (source : String) :
    ∀ located ∈ (scanOf registry source).all, located.StandsIn source :=
  scanOf_forall fun _ _ _ _ hw htotal h => ⟨_, (covers_of_next hw htotal h).2.2.1⟩

namespace Located.StandsIn

variable {source : String} {located : Located}

/-- A token stands at a character or at the end of the text. -/
theorem index_le (h : located.StandsIn source) : located.index ≤ source.length := by
  obtain ⟨stop, hcovers⟩ := h
  exact Nat.le_trans hcovers.start_le hcovers.stop_le

/-- What spells a token comes from its index on. -/
theorem written (h : located.StandsIn source) :
    ∃ text, located.token.Written text ∧ text <+: source.toList.drop located.index := by
  obtain ⟨stop, hcovers⟩ := h
  exact ⟨_, hcovers.written, List.take_prefix _ _⟩

/-- The end stands where the text ends, and every other token before. -/
theorem finish_iff (h : located.StandsIn source) :
    located.token = .finish ↔ located.index = source.length := by
  obtain ⟨stop, hcovers⟩ := h
  exact hcovers.finish_iff

/-- A token that is written as a single character stands at this character. -/
theorem head_of_written (h : located.StandsIn source) {c : Char}
    (hsingle : ∀ text, located.token.Written text → text = [c]) :
    (source.toList.drop located.index).head? = some c := by
  obtain ⟨text, hwritten, rest, hrest⟩ := h.written
  rw [← hrest, hsingle text hwritten]
  rfl

/-- The symbol of an operator is written from its index on. -/
theorem operator_prefix (h : located.StandsIn source) {symbol : String}
    (ht : located.token = .operator symbol) :
    symbol.toList ≠ [] ∧ symbol.toList <+: source.toList.drop located.index := by
  obtain ⟨stop, hcovers⟩ := h
  have hlt : located.index < stop := hcovers.start_lt (by simp [ht])
  have hlength : (part source located.index stop).length = stop - located.index := by
    have hstop : stop ≤ source.toList.length := by
      rw [String.length_toList]
      exact hcovers.stop_le
    rw [part, List.length_take, List.length_drop]
    omega
  have hwritten := hcovers.written
  simp only [ht] at hwritten
  generalize hpart : part source located.index stop = text at hwritten hlength
  cases hwritten
  rw [String.toList_ofList]
  refine ⟨fun hnil => ?_, hpart ▸ List.take_prefix _ _⟩
  rw [hnil, List.length_nil] at hlength
  omega

end Located.StandsIn

/-! ### Rows of tiles -/

/-- No tiles come from a step that fails. -/
theorem tiles_of_error {expectOperand : Bool} {flags : List Bool} {cursor after : Cursor}
    {e : SyntaxError} (h : cursor.next registry expectOperand = (.error e, after)) :
    cursor.tiles registry (expectOperand :: flags) = .error e := by
  rw [Cursor.tiles, h]

/-- A step that succeeds reads the first tile. -/
theorem tiles_of_ok {expectOperand : Bool} {flags : List Bool} {cursor after : Cursor}
    {located : Located} (h : cursor.next registry expectOperand = (.ok located, after)) :
    cursor.tiles registry (expectOperand :: flags) =
      (after.tiles registry flags).map
        (⟨located.token, located.index, after.position⟩ :: ·) := by
  rw [Cursor.tiles, h]

/-- The tiles of steps that succeed cover the text from where the cursor stands. -/
theorem tiling_of_tiles {source : String} {flags : List Bool} {cursor : Cursor}
    {tiles : List Tile} (hw : cursor.Within source)
    (htotal : cursor.position + cursor.rest.length = source.length)
    (h : cursor.tiles registry flags = .ok tiles) :
    Tiling source cursor.position tiles ∧ tiles.length = flags.length := by
  induction flags generalizing cursor tiles with
  | nil =>
    cases h
    exact ⟨.nil, rfl⟩
  | cons expectOperand flags ih =>
    rcases hs : cursor.next registry expectOperand with ⟨e | located, after⟩
    · rw [tiles_of_error hs] at h
      cases h
    · rw [tiles_of_ok hs] at h
      cases hfurther : after.tiles registry flags with
      | error e =>
        rw [hfurther] at h
        cases h
      | ok further =>
        rw [hfurther] at h
        cases h
        obtain ⟨hle, hblank, hcovers, hafter⟩ := covers_of_next hw htotal hs
        obtain ⟨htiling, hlength⟩ := ih (next_within hw hs).1 hafter hfurther
        exact ⟨.cons hle hblank hcovers htiling, congrArg (· + 1) hlength⟩

variable {source : String} {place : Nat} {tiles : List Tile}

/-- No tile starts before the place from which the tiles cover the text. -/
theorem Tiling.place_le_start (h : Tiling source place tiles) :
    ∀ t ∈ tiles, place ≤ t.start := by
  induction h with
  | nil => exact fun t ht => absurd ht List.not_mem_nil
  | cons place_le blank covers further ih =>
    refine List.forall_mem_cons.mpr ⟨place_le, fun t ht => ?_⟩
    have hstart := ih t ht
    have hcovers := covers.start_le
    omega

/-- Tiles follow each other. -/
theorem Tiling.pairwise (h : Tiling source place tiles) :
    tiles.Pairwise fun s t => s.stop ≤ t.start := by
  induction h with
  | nil => exact .nil
  | cons place_le blank covers further ih =>
    exact List.pairwise_cons.mpr ⟨further.place_le_start, ih⟩

/-- A character that is no blank, behind the first place and before the end of some tile, belongs
to a tile. -/
theorem Tiling.covered (h : Tiling source place tiles) {k : Nat} {c : Char}
    (hk : source.toList[k]? = some c) (hc : Text.isBlank c = false) (hplace : place ≤ k)
    (hbefore : ∃ t ∈ tiles, k < t.stop) : ∃ t ∈ tiles, t.start ≤ k ∧ k < t.stop := by
  induction h with
  | nil =>
    obtain ⟨t, ht, -⟩ := hbefore
    exact absurd ht List.not_mem_nil
  | @cons place t tiles place_le blank covers further ih =>
    by_cases hstart : t.start ≤ k
    · by_cases hstop : k < t.stop
      · exact ⟨t, List.mem_cons_self, hstart, hstop⟩
      · have hlater : ∃ s ∈ tiles, k < s.stop := by
          obtain ⟨s, hs, hlt⟩ := hbefore
          rcases List.mem_cons.mp hs with rfl | hs
          · exact absurd hlt hstop
          · exact ⟨s, hs, hlt⟩
        obtain ⟨s, hs, hcovered⟩ := ih (by omega) hlater
        exact ⟨s, List.mem_cons_of_mem _ hs, hcovered⟩
    · -- Before the tile there are blanks only.
      have hgap : (part source place t.start)[k - place]? = some c := by
        rw [part, List.getElem?_take_of_lt (by omega), List.getElem?_drop,
          Nat.add_sub_of_le hplace, hk]
      have hblank : Text.isBlank c = true :=
        List.all_eq_true.mp blank c (List.mem_of_getElem? hgap)
      rw [hc] at hblank
      cases hblank

/-- No character belongs to two tiles. -/
theorem Tiling.disjoint (h : Tiling source place tiles) {i j k : Nat} {s t : Tile}
    (hi : tiles[i]? = some s) (hj : tiles[j]? = some t) (hs : s.start ≤ k ∧ k < s.stop)
    (ht : t.start ≤ k ∧ k < t.stop) : i = j := by
  have hordered : ∀ {i j : Nat} {s t : Tile}, tiles[i]? = some s → tiles[j]? = some t → i < j →
      s.stop ≤ t.start := by
    intro i j s t hi hj hlt
    obtain ⟨hi, rfl⟩ := List.getElem?_eq_some_iff.mp hi
    obtain ⟨hj, rfl⟩ := List.getElem?_eq_some_iff.mp hj
    exact List.pairwise_iff_getElem.mp h.pairwise _ _ _ _ hlt
  rcases Nat.lt_trichotomy i j with hlt | heq | hlt
  · have hle := hordered hi hj hlt
    omega
  · exact heq
  · have hle := hordered hj hi hlt
    omega

/-- Every tile covers what it says. -/
theorem Tiling.covers (h : Tiling source place tiles) : ∀ t ∈ tiles, t.Covers source := by
  induction h with
  | nil => exact fun t ht => absurd ht List.not_mem_nil
  | cons place_le blank covers further ih => exact List.forall_mem_cons.mpr ⟨covers, ih⟩

/-- Whatever a scanner is told of operands, the tokens that it reads before its first error cover
the text as tiles do: between the end of one and the start of the next there are blanks only,
every token but the end has a character, the end comes where the text ends and nowhere else, and
the characters that a token covers spell it. Every character that is no blank belongs to exactly
one of them, if it stands before the end of the last one or the end of the text is among them. -/
theorem tiles_cover (registry : Registry) (source : String) (flags : List Bool)
    (tiles : List Tile) (h : (Cursor.start source).tiles registry flags = .ok tiles) :
    tiles.length = flags.length ∧ Tiling source 0 tiles ∧
    ∀ k c, source.toList[k]? = some c → Text.isBlank c = false →
      ((∃ t ∈ tiles, k < t.stop) ∨ ∃ t ∈ tiles, t.token = .finish) →
        ∃! i : Nat, ∃ t, tiles[i]? = some t ∧ t.start ≤ k ∧ k < t.stop := by
  have htotal : (Cursor.start source).position + (Cursor.start source).rest.length =
      source.length := by
    change 0 + source.toList.length = source.length
    rw [String.length_toList, Nat.zero_add]
  obtain ⟨htiling, hlength⟩ := tiling_of_tiles (within_start source) htotal h
  refine ⟨hlength, htiling, fun k c hk hc hreached => ?_⟩
  have hbound : k < source.length := by
    rw [← String.length_toList]
    exact (List.getElem?_eq_some_iff.mp hk).1
  have hbefore : ∃ t ∈ tiles, k < t.stop := by
    rcases hreached with hbefore | ⟨t, ht, hfinish⟩
    · exact hbefore
    · have hcovers := htiling.covers t ht
      have hend := hcovers.finish_iff.mp hfinish
      have hle := hcovers.start_le
      exact ⟨t, ht, by omega⟩
  obtain ⟨t, ht, hcovered⟩ := htiling.covered hk hc (Nat.zero_le k) hbefore
  obtain ⟨i, hi⟩ := List.getElem?_of_mem ht
  refine ⟨i, ⟨t, hi, hcovered⟩, ?_⟩
  rintro j ⟨s, hj, hs⟩
  exact htiling.disjoint hj hi hs hcovered

/-- A number, a name between sigils with blanks, a symbol behind it without one, a name that is
called and the end, which is read twice. -/
theorem tiles_cover_names :
    ∃ tiles, (Cursor.start " -2<=$ a b $>max ( ").tiles .builtin
        [true, false, true, false, true, true, true, false] = .ok tiles ∧
      tiles.length = 8 ∧ Tiling " -2<=$ a b $>max ( " 0 tiles := by
  have htiles : (Cursor.start " -2<=$ a b $>max ( ").tiles .builtin
      [true, false, true, false, true, true, true, false] =
        .ok [⟨.literal (-2), 1, 3⟩, ⟨.operator "<=", 3, 5⟩, ⟨.reference "a b", 5, 12⟩,
          ⟨.operator ">", 12, 13⟩, ⟨.call "max", 13, 16⟩, ⟨.opening, 17, 18⟩, ⟨.finish, 19, 19⟩,
          ⟨.finish, 19, 19⟩] := by
    decide +kernel
  obtain ⟨hlength, htiling, -⟩ := tiles_cover _ _ _ _ htiles
  exact ⟨_, htiles, hlength, htiling⟩

end GateFormula
