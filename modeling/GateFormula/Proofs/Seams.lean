import GateFormula.Proofs.Declaring
import GateFormula.Proofs.LongestMatch

/-!
# Tokens in front of a seam

A blank, a parenthesis or a comma belongs to no word, number or symbol: these end in front of the
next one of them, and a name between sigils ends with the second of them. Behind that, nothing is
read but whether an argument list opens. So the text behind a token may be replaced by any other
that starts with no longer run of other characters and opens an argument list where it did.
`read_of_replaces` says so of a single token: the exponent sign of a number, the longest symbol and
the sign of a number all stay. Text that starts with a delimiter and in which no argument list opens
is a seam; `read_append` puts it behind a token.
-/

namespace GateFormula

variable {registry : Registry}

/-! ### Delimiters -/

/-- Whether a character belongs to no word, number or symbol. -/
def isDelimiter (c : Char) : Bool :=
  Text.isBlank c || ['(', ')', ','].contains c

/-- Whether a text is empty or starts with a delimiter. -/
def startsApart (rest : List Char) : Bool :=
  rest.head?.all isDelimiter

/-- A text that changes no token before it. -/
structure Seam (rest : List Char) : Prop where
  /-- It starts with a delimiter. -/
  apart : startsApart rest = true
  /-- No argument list opens there. -/
  closed : Lexeme.opensCall rest = false

/-- No number starts with a delimiter. -/
theorem startsNumber_of_isDelimiter {c : Char} (h : isDelimiter c = true) :
    Lexeme.startsNumber c = false := by
  have hpoint : c ≠ '.' := ne_of_charClass h (by decide)
  have hdigit : c.isDigit = false := by
    refine eq_false_of_ne_true fun hd => ?_
    have hrange : 48 ≤ c.toNat ∧ c.toNat ≤ 57 := Char.isDigit_iff_toNat.mp hd
    simp only [isDelimiter, Bool.or_eq_true, List.contains_iff_mem, List.mem_cons,
      List.not_mem_nil, or_false] at h
    rcases h with hblank | rfl | rfl | rfl
    · simp only [Text.isBlank, Bool.or_eq_true, Bool.and_eq_true, decide_eq_true_eq,
        beq_iff_eq] at hblank
      omega
    all_goals exact absurd hrange (by decide)
  simp [Lexeme.startsNumber, hdigit, hpoint]

/-- No symbol has a delimiter. -/
theorem isSymbolChar_of_isDelimiter {c : Char} (h : isDelimiter c = true) :
    Registry.isSymbolChar c = false := by
  simp only [isDelimiter, Bool.or_eq_true, List.contains_iff_mem, List.mem_cons,
    List.not_mem_nil, or_false] at h
  rcases h with hblank | rfl | rfl | rfl
  · simp [Registry.isSymbolChar, hblank]
  all_goals decide

/-- No number starts with a character of a symbol. -/
theorem startsNumber_of_isSymbolChar {c : Char} (h : Registry.isSymbolChar c = true) :
    Lexeme.startsNumber c = false := by
  have hpoint : c ≠ '.' := ne_of_charClass h (by decide)
  have hdigit : c.isDigit = false := by
    refine eq_false_of_ne_true fun hd => ?_
    have hrange : c.toNat < 0x80 :=
      Nat.lt_of_le_of_lt (Char.isDigit_iff_toNat.mp hd).2 (by decide)
    simp [Registry.isSymbolChar, Text.isAlphanumeric, hrange, Char.isAlphanum, hd] at h
  simp [Lexeme.startsNumber, hdigit, hpoint]

/-- No character of a symbol is blank. -/
theorem isBlank_of_isSymbolChar {c : Char} (h : Registry.isSymbolChar c = true) :
    Text.isBlank c = false := by
  simp only [Registry.isSymbolChar, Bool.not_eq_true', Bool.or_eq_false_iff] at h
  exact h.1.2

/-- A delimiter ends a word. -/
theorem endsWord_of_isDelimiter {c : Char} (h : isDelimiter c = true) :
    Lexeme.endsWord registry c = true := by
  simp only [isDelimiter, Bool.or_eq_true, List.contains_iff_mem, List.mem_cons,
    List.not_mem_nil, or_false] at h
  rcases h with hblank | rfl | rfl | rfl
  · simp [Lexeme.endsWord, hblank]
  all_goals simp [Lexeme.endsWord]

/-- No symbol has a delimiter. -/
theorem isDelimiter_of_leads (reachable : registry.Reachable) {symbol : String} {text : List Char}
    (h : registry.Leads symbol text) : ∀ c ∈ symbol.toList, isDelimiter c = false := by
  intro c hc
  obtain ⟨o, ho⟩ := Option.isSome_iff_exists.mp h.registered
  have hchar : Registry.isSymbolChar c = true := (reachable.symbol_chars ho).2 c hc
  refine eq_false_of_ne_true fun hdelimiter => ?_
  rw [isSymbolChar_of_isDelimiter hdelimiter] at hchar
  cases hchar

/-- A run without delimiters that starts a text stands in front of the first place that starts
apart. -/
theorem run_front {run front rest : List Char} (hrun : ∀ c ∈ run, isDelimiter c = false)
    (h : run <+: front ++ rest) (apart : startsApart rest = true) : run <+: front := by
  by_cases hlength : run.length ≤ front.length
  · exact List.prefix_of_prefix_length_le h (List.prefix_append front rest) hlength
  · cases rest with
    | nil => rwa [List.append_nil] at h
    | cons d rest =>
      have htext : front ++ [d] <+: front ++ d :: rest :=
        (List.prefix_append_right_inj front).mpr ⟨rest, rfl⟩
      have hbound : (front ++ [d]).length ≤ run.length := by
        rw [List.length_append, List.length_singleton]
        omega
      have hfront : front ++ [d] <+: run := List.prefix_of_prefix_length_le htext h hbound
      have hd : isDelimiter d = false :=
        hrun d (hfront.subset (List.mem_append_right _ (List.mem_singleton_self d)))
      have hdelimiter : isDelimiter d = true := apart
      rw [hd] at hdelimiter
      cases hdelimiter

/-! ### One token with other text behind it -/

/-- A text that may stand in the place of another behind a token. -/
structure Replaces (other rest : List Char) : Prop where
  /-- A run without delimiters that starts it starts the other one, too. -/
  runs : ∀ run, (∀ c ∈ run, isDelimiter c = false) → run <+: other → run <+: rest
  /-- An argument list opens in both or in neither. -/
  opensCall_eq : Lexeme.opensCall other = Lexeme.opensCall rest

/-- Text that starts apart may be put into a text where it leaves the next argument list alone. -/
theorem replaces_of_insert {front gap back : List Char} (apart : startsApart gap = true)
    (calls : Lexeme.opensCall (front ++ gap ++ back) = Lexeme.opensCall (front ++ back)) :
    Replaces (front ++ gap ++ back) (front ++ back) := by
  refine ⟨fun run hrun h => ?_, calls⟩
  cases gap with
  | nil => rwa [List.append_nil] at h
  | cons d gap =>
    rw [List.append_assoc] at h
    exact (run_front hrun h apart).trans (List.prefix_append front back)

/-- The first character of a replacement is that of the text replaced, or a delimiter. -/
theorem Replaces.head {other rest : List Char} (h : Replaces other rest) {d : Char}
    (hd : other.head? = some d) : isDelimiter d = true ∨ rest.head? = some d := by
  by_cases hdelimiter : isDelimiter d = true
  · exact .inl hdelimiter
  · have hrun : ∀ c ∈ [d], isDelimiter c = false :=
      List.forall_mem_singleton.mpr (eq_false_of_ne_true hdelimiter)
    have hstart : [d] <+: other := by
      obtain ⟨more, rfl⟩ := List.head?_eq_some_iff.mp hd
      exact ⟨more, rfl⟩
    obtain ⟨more, rfl⟩ := h.runs [d] hrun hstart
    exact .inr rfl

/-- No sigil is attached to a token in a replacement of a text in which none is. -/
theorem apart_of_replaces {other rest text : List Char} {token : Token} (h : Replaces other rest)
    (apart : (Lexeme.mk text token rest).hasSigilAttached = false) :
    (Lexeme.mk text token other).hasSigilAttached = false := by
  simp only [Lexeme.hasSigilAttached, Bool.and_eq_false_iff, decide_eq_false_iff_not]
    at apart ⊢
  refine apart.imp_right fun hne hsigil => ?_
  have hplain : isDelimiter '$' = false := by decide
  obtain hd | hd := h.head hsigil
  · rw [hplain] at hd
    cases hd
  · exact hne hd

namespace Lexeme

/-- Whether an argument list opens does not depend on text that opens none. -/
theorem opensCall_append {rest : List Char} (h : opensCall rest = false) (cs : List Char) :
    opensCall (cs ++ rest) = opensCall cs := by
  unfold opensCall at h ⊢
  rw [List.dropWhile_append]
  cases hd : cs.dropWhile Text.isBlank with
  | nil => simpa using h
  | cons c tail => simp

variable {tail rest other : List Char}

/-- A word ends where it ended. -/
theorem wordTail_of_replaces (h : Replaces other rest) {numeric : Bool} {previous : Char}
    (hread : wordTail registry numeric previous (tail ++ rest) = (tail, rest)) :
    wordTail registry numeric previous (tail ++ other) = (tail, other) := by
  induction tail generalizing previous with
  | nil =>
    cases other with
    | nil => rfl
    | cons d more =>
      have hends : (!(numeric && ['+', '-'].contains d && ['e', 'E'].contains previous) &&
          endsWord registry d) = true := by
        obtain hd | hd := h.head (rfl : (d :: more).head? = some d)
        · have hplus : d ≠ '+' := ne_of_charClass hd (by decide)
          have hminus : d ≠ '-' := ne_of_charClass hd (by decide)
          simp [endsWord_of_isDelimiter hd, hplus, hminus]
        · obtain ⟨rest, rfl⟩ := List.head?_eq_some_iff.mp hd
          rw [List.nil_append, wordTail] at hread
          simp only at hread
          split at hread
          next hends => exact hends
          · cases hread
      rw [List.nil_append, wordTail]
      exact if_pos hends
  | cons c tail ih =>
    rw [List.cons_append, wordTail] at hread ⊢
    simp only at hread ⊢
    split at hread
    · cases hread
    next hends =>
      rw [if_neg hends]
      simp only [Prod.mk.injEq, List.cons.injEq, true_and] at hread
      rw [ih (Prod.ext hread.1 hread.2)]

/-- No number starts in a replacement of a text in which none starts. -/
theorem startsNumber_of_replaces (h : Replaces other rest)
    (hnumber : rest.head?.any startsNumber = false) : other.head?.any startsNumber = false := by
  cases hhead : other.head? with
  | none => rfl
  | some d =>
    obtain hd | hd := h.head hhead
    · exact startsNumber_of_isDelimiter hd
    · rwa [hd] at hnumber

/-- The first character of a number ends no word. -/
theorem endsWord_of_startsNumber (reachable : registry.Reachable) {c : Char}
    (h : startsNumber c = true) : endsWord registry c = false := by
  have hdelimiter : isDelimiter c = false := by
    refine eq_false_of_ne_true fun hc => ?_
    rw [startsNumber_of_isDelimiter hc] at h
    cases h
  have hsymbol : registry.startsOperator c = false := by
    refine eq_false_of_ne_true fun hc => ?_
    rw [startsNumber_of_isSymbolChar (reachable.isSymbolChar_of_startsOperator hc)] at h
    cases h
  have hsigil : c ≠ '$' := ne_of_charClass h (by decide)
  simp only [isDelimiter, Bool.or_eq_false_iff] at hdelimiter
  simpa [endsWord, hdelimiter.1, hsymbol, hsigil] using hdelimiter.2

/-- The sign of a number is no word by itself. -/
theorem wordTail_of_startsNumber (reachable : registry.Reachable) {numeric : Bool}
    {previous : Char} (h : rest.head?.any startsNumber = true) :
    (wordTail registry numeric previous rest).1 ≠ [] := by
  obtain ⟨d, hhead, hd⟩ := (Option.any_eq_true _ _).mp h
  obtain ⟨more, rfl⟩ := List.head?_eq_some_iff.mp hhead
  simp [wordTail, endsWord_of_startsNumber reachable hd]

variable {c : Char} {token : Token}

/-- A word is the same word with other text behind it. -/
theorem ofWord_of_replaces (h : Replaces other rest)
    (hread : ofWord registry c (tail ++ rest) = ⟨c :: tail, token, rest⟩) :
    ofWord registry c (tail ++ other) = ⟨c :: tail, token, other⟩ := by
  simp only [ofWord, Lexeme.mk.injEq, List.cons.injEq, true_and] at hread
  obtain ⟨htail, htoken, hrest⟩ := hread
  have hword := wordTail_of_replaces h (Prod.ext htail hrest)
  rw [htail, hrest] at htoken
  simp only [ofWord, hword, ← htoken, wordToken, h.opensCall_eq]

/-- A name between sigils is the same name with other text behind it. -/
theorem ofSymbol_of_replaces (h : Replaces other rest)
    (hread : ofSymbol (tail ++ rest) = .ok ⟨'$' :: tail, token, rest⟩) :
    ofSymbol (tail ++ other) = .ok ⟨'$' :: tail, token, other⟩ := by
  unfold ofSymbol at hread ⊢
  split at hread
  · cases hread
  next body after hbody =>
    simp only at hread
    split at hread
    · cases hread
    next hname =>
      simp only [Except.ok.injEq, Lexeme.mk.injEq, List.cons_append, List.cons.injEq,
        true_and] at hread
      obtain ⟨rfl, htoken, rfl⟩ := hread
      have hplain := (symbolBody_eq_some_iff.mp hbody).2
      have hother : symbolBody (body ++ ['$'] ++ other) = some (body, other) :=
        symbolBody_eq_some_iff.mpr ⟨by simp, hplain⟩
      simp only [hother, hname, if_false, h.opensCall_eq, htoken, List.cons_append]

/-- An operator is the same operator with other text behind it. -/
theorem ofOperator_of_replaces (reachable : registry.Reachable) (h : Replaces other rest)
    (hread : ofOperator registry (c :: (tail ++ rest)) = .ok ⟨c :: tail, token, rest⟩) :
    ofOperator registry (c :: (tail ++ other)) = .ok ⟨c :: tail, token, other⟩ := by
  unfold ofOperator at hread ⊢
  split at hread
  · cases hread
  next found after hfound =>
    simp only [Except.ok.injEq, Lexeme.mk.injEq] at hread
    obtain ⟨rfl, rfl, rfl⟩ := hread
    obtain ⟨hlead, hne, -⟩ := longestOperator_eq_some_iff.mp hfound
    have hfront : (String.ofList (c :: tail)).toList <+: c :: tail ++ other := by
      rw [String.toList_ofList]
      exact List.prefix_append _ _
    have hlongest : ∀ symbol, registry.Leads symbol (c :: tail ++ other) →
        symbol.length ≤ (String.ofList (c :: tail)).length := by
      intro symbol hs
      have hrun := isDelimiter_of_leads reachable hs
      by_cases hlength : symbol.toList.length ≤ (c :: tail).length
      · rwa [String.length_toList, ← String.length_ofList] at hlength
      · have hsymbol : c :: tail <+: symbol.toList :=
          List.prefix_of_prefix_length_le (List.prefix_append _ other) hs.front (by omega)
        obtain ⟨run, hsplit⟩ := hsymbol
        have hstart : run <+: other :=
          (List.prefix_append_right_inj (c :: tail)).mp (hsplit ▸ hs.front)
        have hreplaced : run <+: after := by
          refine h.runs run (fun d hd => hrun d ?_) hstart
          rw [← hsplit]
          exact List.mem_append_right _ hd
        have hold : registry.Leads symbol (c :: tail ++ after) := by
          refine ⟨hs.registered, ?_⟩
          rw [← hsplit]
          exact (List.prefix_append_right_inj (c :: tail)).mpr hreplaced
        exact hlead.longest symbol hold
    have hnew : longestOperator registry [] (c :: (tail ++ other)) = some (c :: tail, other) :=
      longestOperator_eq_some_iff.mpr ⟨⟨⟨hlead.registered, hfront⟩, hlongest⟩, hne, rfl⟩
    rw [hnew]

/-- A token is the same token with other text behind it. -/
theorem read_of_replaces (reachable : registry.Reachable) (h : Replaces other rest)
    {expectOperand : Bool}
    (hread : read registry expectOperand c (tail ++ rest) = .ok ⟨c :: tail, token, rest⟩) :
    read registry expectOperand c (tail ++ other) = .ok ⟨c :: tail, token, other⟩ := by
  -- A minus is the sign of a number before both texts or before none of them.
  have hsign : c ≠ '(' → c ≠ ')' → c ≠ ',' → c ≠ '$' →
      (c = '-' && expectOperand && (tail ++ other).head?.any startsNumber) =
        (c = '-' && expectOperand && (tail ++ rest).head?.any startsNumber) := by
    intro hopening hclosing hcomma hsigil
    cases tail with
    | cons d tail => rfl
    | nil =>
      cases hnumber : rest.head?.any startsNumber with
      | false =>
        rw [List.nil_append, List.nil_append, hnumber, startsNumber_of_replaces h hnumber]
      | true =>
        cases hminus : c = '-' && expectOperand with
        | false => rfl
        | true =>
          simp only [read, hopening, hclosing, hcomma, hsigil, if_false, List.nil_append, hminus,
            hnumber, Bool.and_self, if_true, Except.ok.injEq] at hread
          have htail := congrArg (List.tail ∘ Lexeme.text) hread
          exact absurd htail (wordTail_of_startsNumber reachable hnumber)
  unfold read at hread ⊢
  split at hread
  next hc =>
    cases hread
    exact if_pos hc
  next hopening =>
  rw [if_neg hopening]
  split at hread
  next hc =>
    cases hread
    exact if_pos hc
  next hclosing =>
  rw [if_neg hclosing]
  split at hread
  next hc =>
    cases hread
    exact if_pos hc
  next hcomma =>
  rw [if_neg hcomma]
  split at hread
  next hc =>
    subst hc
    exact ofSymbol_of_replaces h hread
  next hsigil =>
  rw [if_neg hsigil, hsign hopening hclosing hcomma hsigil]
  split at hread
  next hminus => rw [if_pos hminus, ofWord_of_replaces h (Except.ok.inj hread)]
  next hminus =>
  rw [if_neg hminus]
  split at hread
  next hstarts =>
    rw [if_pos hstarts]
    exact ofOperator_of_replaces reachable h hread
  next hstarts => rw [if_neg hstarts, ofWord_of_replaces h (Except.ok.inj hread)]

/-- A seam may stand behind any text in the place of its end. -/
theorem replaces_of_seam {rest : List Char} (h : Seam rest) (front : List Char) :
    Replaces (front ++ rest) front := by
  have hcalls : opensCall (front ++ rest ++ []) = opensCall (front ++ []) := by
    rw [List.append_nil, List.append_nil]
    exact opensCall_append h.closed front
  simpa using replaces_of_insert h.apart hcalls

/-- A token is the same token with more text behind it. -/
theorem read_append (reachable : registry.Reachable) {rest : List Char} (h : Seam rest)
    {expectOperand : Bool} {c : Char} {cs text after : List Char} {token : Token}
    (hread : read registry expectOperand c cs = .ok ⟨text, token, after⟩) :
    read registry expectOperand c (cs ++ rest) = .ok ⟨text, token, after ++ rest⟩ := by
  obtain ⟨hsplit, hne⟩ := lexeme_split hread
  cases text with
  | nil => exact absurd rfl hne
  | cons d tail =>
    obtain ⟨rfl, rfl⟩ : d = c ∧ tail ++ after = cs := by simpa using hsplit
    rw [List.append_assoc]
    exact read_of_replaces reachable (replaces_of_seam h after) hread

/-- A registered symbol is read as a whole in front of text that starts apart. -/
theorem read_symbol (reachable : registry.Reachable) {symbol : String} {o : Operator}
    (ho : registry.operator? symbol = some o) {c : Char} {cs : List Char}
    (hsymbol : symbol.toList = c :: cs) (expectOperand : Bool) {rest : List Char}
    (apart : startsApart rest = true) :
    read registry expectOperand c (cs ++ rest) =
      .ok ⟨symbol.toList, .operator symbol, rest⟩ := by
  have hs : (registry.operator? symbol).isSome = true := Option.isSome_iff_exists.mpr ⟨o, ho⟩
  obtain ⟨hne, hchars⟩ := reachable.symbol_chars ho
  have hlead : registry.LeadsFarthest symbol (symbol.toList ++ rest) := by
    refine ⟨⟨hs, List.prefix_append _ rest⟩, fun other hother => ?_⟩
    have hfront := run_front (isDelimiter_of_leads reachable hother) hother.front apart
    have hlength := hfront.length_le
    rwa [String.length_toList, String.length_toList] at hlength
  have hlongest : longestOperator registry [] (symbol.toList ++ rest) =
      some (symbol.toList, rest) :=
    longestOperator_eq_some_iff.mpr ⟨(String.ofList_toList).symm ▸ hlead, hne, rfl⟩
  rw [hsymbol] at hchars
  have hstarts : registry.startsOperator c = true :=
    Registry.hasOperatorStarting_iff.mpr ⟨symbol, hs, cs, hsymbol.symm⟩
  -- The minus of a number is not meant, since no number goes on with a symbol.
  have hsign : (cs ++ rest).head?.any startsNumber = false := by
    cases cs with
    | cons d cs => exact startsNumber_of_isSymbolChar (hchars d (by simp))
    | nil =>
      cases rest with
      | nil => rfl
      | cons d rest => exact startsNumber_of_isDelimiter apart
  have hscans : scansOperator registry expectOperand c (cs ++ rest) = true := by
    simp only [scansOperator, hstarts, hsign, Bool.and_false, Bool.not_false, Bool.and_self]
  rw [read_of_scansOperator reachable hscans, ofOperator, ← List.cons_append, ← hsymbol,
    hlongest]
  simp only [String.ofList_toList]

/-- A token that is read is not the end. -/
theorem read_ne_finish {expectOperand : Bool} {c : Char} {cs : List Char} {lexeme : Lexeme}
    (h : read registry expectOperand c cs = .ok lexeme) : lexeme.token ≠ .finish := by
  rcases read_cases registry expectOperand c cs with ⟨token, htoken, hr⟩ | ⟨rfl, _⟩ | ⟨_, hr⟩ | hr
  · cases hr.symm.trans h
    rcases htoken with rfl | rfl | rfl <;> simp
  · obtain ⟨body, rest, _, htoken⟩ := read_sigil h
    rw [htoken]
    split <;> simp
  · obtain ⟨symbol, hsymbol⟩ := ofOperator_token (hr.symm.trans h)
    simp [hsymbol]
  · cases hr.symm.trans h
    rcases ofWord_cases registry c cs with ⟨_, hw⟩ | ⟨_, hw⟩ | ⟨_, hw⟩ <;> simp [hw]

end Lexeme

end GateFormula
