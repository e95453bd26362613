import GateFormula.Builtin
import GateFormula.Proofs.Findings
import GateFormula.Proofs.HollowGroups
import GateFormula.Proofs.Tracing

/-!
# Which problems are reported

A text whose tokens are those of a formula compiles exactly if nothing is wrong in the formula.
If something is wrong, then what is reported is the list of its problems unless assembling has
been misled: by a hollow group, which it refuses as if it were empty, or by a single hollow
operand, which it does not count. `hasSeenOperands` says that no call is misjudged so, and
`findings_map_eq_iff` that nothing else makes a difference.
-/

namespace GateFormula

namespace Formula

mutual

/-- Whether no call of a formula is misjudged for the number of its operands. A single hollow
operand is taken for none, which matters if there is such a function, unless it accepts one
operand and none as well. -/
def hasSeenOperands (registry : Registry) : Formula → Bool
  | .literal _ | .reference _ | .constant _ => true
  | .group inner => inner.hasSeenOperands registry
  | .call name operands =>
    haveSeenOperands registry operands &&
      (operands.length != 1 || !areHollow registry operands ||
        (registry.function? name).all fun function => function.accepts 0 && function.accepts 1)
  | .unary _ operand => operand.hasSeenOperands registry
  | .binary _ left right => left.hasSeenOperands registry && right.hasSeenOperands registry

/-- Whether no call of several formulas is misjudged. -/
def haveSeenOperands (registry : Registry) : List Formula → Bool
  | [] => true
  | f :: fs => f.hasSeenOperands registry && haveSeenOperands registry fs

end

variable {registry : Registry} {place : Nat → Nat}

/-! ### No problems at all -/

/-- Operands without problems are counted as they are written. -/
theorem countedOperands_of_notedOf {start : Nat} {fs : List Formula}
    (hf : areOrdered registry fs = true) (h : notedOf registry place start fs = []) :
    countedOperands registry fs = fs.length := by
  obtain ⟨ts, hts⟩ := terms_of_noted fs hf h
  rw [countedOperands, writtenOf_of_terms fs hts]
  exact seenOperands_codeOf hts

mutual

/-- Assembling notes nothing in an ordered formula exactly if nothing is wrong in it. -/
theorem findings_eq_nil_iff (start : Nat) (f : Formula) (hf : f.isOrdered registry = true) :
    f.findings registry place (countedOperands registry) start = [] ↔
      f.findings registry place List.length start = [] := by
  match f with
  | .literal value | .reference name | .constant name => rw [findings, findings]
  | .group inner =>
    rw [isOrdered] at hf
    rw [findings, findings]
    exact findings_eq_nil_iff (start + 1) inner hf
  | .call name operands =>
    rw [isOrdered] at hf
    have hinside := findingsOf_eq_nil_iff (start + 2) operands hf
    rw [findings, findings]
    simp only [List.append_eq_nil_iff, hinside]
    refine and_congr_right fun hnone => ?_
    have hnoted : notedOf registry place (start + 2) operands = [] := by
      rw [notedOf_eq_findings, hinside.mpr hnone.2, List.map_nil]
    rw [countedOperands_of_notedOf hf hnoted]
  | .unary symbol operand =>
    simp only [isOrdered, Bool.and_eq_true] at hf
    rw [findings, findings]
    exact findings_eq_nil_iff (start + 1) operand hf.2
  | .binary symbol left right =>
    simp only [isOrdered, Bool.and_eq_true] at hf
    rw [findings, findings, List.append_eq_nil_iff, List.append_eq_nil_iff,
      findings_eq_nil_iff start left hf.1.2, findings_eq_nil_iff _ right hf.2]

/-- So it does in several ordered formulas. -/
theorem findingsOf_eq_nil_iff (start : Nat) (fs : List Formula)
    (hf : areOrdered registry fs = true) :
    findingsOf registry place (countedOperands registry) start fs = [] ↔
      findingsOf registry place List.length start fs = [] := by
  match fs with
  | [] => rw [findingsOf, findingsOf]
  | f :: fs =>
    rw [areOrdered, Bool.and_eq_true] at hf
    rw [findingsOf, findingsOf, List.append_eq_nil_iff, List.append_eq_nil_iff,
      findings_eq_nil_iff start f hf.1, findingsOf_eq_nil_iff _ fs hf.2]

end

/-- An ordered formula has a term exactly if nothing is wrong in it. -/
theorem term_iff_problems (start : Nat) {f : Formula} (hf : f.isOrdered registry = true) :
    (∃ t, f.term? registry = some t) ↔ f.problems registry place start = [] := by
  rw [problems_eq_findings, List.map_eq_nil_iff, ← findings_eq_nil_iff start f hf]
  have hnoted : f.noted registry place start = [] ↔
      f.findings registry place (countedOperands registry) start = [] := by
    rw [noted_eq_findings, List.map_eq_nil_iff]
  rw [← hnoted]
  constructor
  · rintro ⟨t, ht⟩
    exact noted_of_term place start f ht
  · exact term_of_noted f hf

/-! ### Places of problems -/

/-- The tokens before the one with the number `bound` stand one behind the other. -/
def Ascending (place : Nat → Nat) (bound : Nat) : Prop :=
  ∀ m n, m < n → n < bound → place m < place n

/-- So do those before an earlier one. -/
theorem Ascending.mono {bound other : Nat} (h : Ascending place bound) (hle : other ≤ bound) :
    Ascending place other :=
  fun m n hmn hn => h m n hmn (Nat.lt_of_lt_of_le hn hle)

/-- What is wrong in a formula stands before the token behind it. -/
theorem findings_lt {count : List Formula → Nat} {start : Nat} {f : Formula}
    (hp : Ascending place (start + f.tokens.length + 1)) :
    ∀ x ∈ f.findings registry place count start,
      x.2.index < place (start + f.tokens.length) := by
  intro x hx
  obtain ⟨-, n, -, hlt, hindex⟩ := findings_range hx
  rw [hindex]
  exact hp n _ hlt (Nat.lt_succ_self _)

/-- What is wrong in a formula stands behind the tokens before it. -/
theorem lt_findings {count : List Formula → Nat} {start line : Nat} {f : Formula}
    (hp : Ascending place (start + f.tokens.length)) (hline : line < start) :
    ∀ x ∈ f.findings registry place count start, place line < x.2.index := by
  intro x hx
  obtain ⟨-, n, hle, hlt, hindex⟩ := findings_range hx
  rw [hindex]
  exact hp line n (by omega) hlt

/-- What is wrong in operands stands behind the tokens before them. -/
theorem lt_findingsOf {count : List Formula → Nat} {start line : Nat} {fs : List Formula}
    (hp : Ascending place (start + (tokensOf fs).length)) (hline : line < start) :
    ∀ x ∈ findingsOf registry place count start fs, place line < x.2.index := by
  intro x hx
  obtain ⟨-, n, hle, hlt, hindex⟩ := findingsOf_range hx
  rw [hindex]
  exact hp line n (by omega) hlt

/-- Operands that each have a comma behind them take one token more, if there are any. -/
theorem operandTokens_length (fs : List Formula) :
    (tokensOf fs).length ≤ (operandTokens fs).length ∧
      (operandTokens fs).length ≤ (tokensOf fs).length + 1 := by
  rcases List.eq_nil_or_concat fs with rfl | ⟨before, f, rfl⟩
  · exact ⟨Nat.le_refl _, Nat.zero_le _⟩
  · rw [List.concat_eq_append, operandTokens_concat, tokensOf_concat]
    simp only [List.length_append, List.length_singleton]
    omega

/-! ### The same problems -/

/-- Two lists of problems that a property divides alike are equal part by part. -/
theorem map_append_eq_iff {xs ys us vs : List (Nat × Problem)} (p : Problem → Bool)
    (hx : ∀ x ∈ xs ++ us, p x.2 = true) (hy : ∀ y ∈ ys ++ vs, p y.2 = false) :
    (xs ++ ys).map Prod.snd = (us ++ vs).map Prod.snd ↔
      xs.map Prod.snd = us.map Prod.snd ∧ ys.map Prod.snd = vs.map Prod.snd := by
  obtain ⟨hxs, hus⟩ := List.forall_mem_append.mp hx
  obtain ⟨hys, hvs⟩ := List.forall_mem_append.mp hy
  have hkept : ∀ zs ws : List (Nat × Problem), (∀ z ∈ zs, p z.2 = true) →
      (∀ w ∈ ws, p w.2 = false) → ((zs ++ ws).map Prod.snd).filter p = zs.map Prod.snd := by
    intro zs ws hz hw
    rw [List.map_append, List.filter_append, List.filter_eq_self.mpr (List.forall_mem_map.mpr hz),
      List.filter_eq_nil_iff.mpr (List.forall_mem_map.mpr fun w hm => by simp [hw w hm]),
      List.append_nil]
  constructor
  · intro h
    have hfirst : xs.map Prod.snd = us.map Prod.snd := by
      rw [← hkept xs ys hxs hys, h, hkept us vs hus hvs]
    rw [List.map_append, List.map_append, hfirst] at h
    exact ⟨hfirst, List.append_cancel_left h⟩
  · rintro ⟨hfirst, hsecond⟩
    rw [List.map_append, List.map_append, hfirst, hsecond]

/-- The problems of two parts, however operands are counted, are equal part by part if a token
stands between the parts. -/
theorem map_append_eq_iff_of_between {first second : (List Formula → Nat) → List (Nat × Problem)}
    {bound : Nat} (hbefore : ∀ count, ∀ x ∈ first count, x.2.index < bound)
    (hbehind : ∀ count, ∀ x ∈ second count, bound < x.2.index) (count other : List Formula → Nat) :
    (first count ++ second count).map Prod.snd = (first other ++ second other).map Prod.snd ↔
      (first count).map Prod.snd = (first other).map Prod.snd ∧
        (second count).map Prod.snd = (second other).map Prod.snd := by
  refine map_append_eq_iff (fun p => decide (p.index < bound)) ?_ ?_
  · refine List.forall_mem_append.mpr ⟨?_, ?_⟩ <;> simpa using hbefore _
  · refine List.forall_mem_append.mpr ⟨?_, ?_⟩ <;>
      exact fun x hx => decide_eq_false (Nat.lt_asymm (hbehind _ x hx))

/-- What is wrong with the number of operands stands at the name. -/
theorem countNoted_index {start count : Nat} {name : String} {p : Problem}
    (h : p ∈ countNoted registry place start name count) : p.index = place start := by
  rw [countNoted] at h
  split at h
  · cases h
  · split at h
    · cases h
    · rw [List.mem_singleton.mp h]
      rfl

/-- The number of operands of a call is judged alike if it is counted as written, or if this
does not matter. -/
theorem countNoted_eq_iff {start : Nat} {name : String} {operands : List Formula}
    (hf : areOrdered registry operands = true) :
    countNoted registry place start name (countedOperands registry operands) =
        countNoted registry place start name operands.length ↔
      (operands.length != 1 || !areHollow registry operands ||
        (registry.function? name).all fun function =>
          function.accepts 0 && function.accepts 1) = true := by
  by_cases hh : operands.length = 1 ∧ areHollow registry operands = true
  · obtain ⟨hlength, hhollow⟩ := hh
    have hcounted : countedOperands registry operands = 0 := by
      rw [countedOperands, (writtenOf_eq_nil_iff operands hf).mpr hhollow, hlength]
      rfl
    rw [hcounted, hlength, hhollow, countNoted, countNoted]
    cases registry.function? name with
    | none => simp
    | some function =>
      by_cases hzero : function.accepts 0 = true <;>
        by_cases hone : function.accepts 1 = true <;> simp [hzero, hone]
  · have hcounted : countedOperands registry operands = operands.length := by
      rw [countedOperands, seenOperands]
      split
      next hs =>
        simp only [Bool.and_eq_true, List.isEmpty_iff, decide_eq_true_eq] at hs
        have hhollow := (writtenOf_eq_nil_iff operands hf).mp hs.1
        have hne : operands.length ≠ 1 := fun hlength => hh ⟨hlength, hhollow⟩
        omega
      · rfl
    rw [hcounted]
    by_cases hlength : operands.length = 1
    · have hhollow : areHollow registry operands = false :=
        eq_false_of_ne_true fun hhollow => hh ⟨hlength, hhollow⟩
      simp [hhollow]
    · simp [hlength]

/-- The problems of a call are equal exactly if those of its operands are and their number is
judged alike. The number is a problem of the name, which stands before the operands. -/
theorem call_findings_map_eq_iff {start : Nat} {name : String} {operands : List Formula}
    (hf : areOrdered registry operands = true)
    (hp : Ascending place (start + 2 + (tokensOf operands).length)) :
    ((Formula.call name operands).findings registry place (countedOperands registry) start).map
          Prod.snd =
        ((Formula.call name operands).findings registry place List.length start).map Prod.snd ↔
      (findingsOf registry place (countedOperands registry) (start + 2) operands).map Prod.snd =
          (findingsOf registry place List.length (start + 2) operands).map Prod.snd ∧
        (operands.length != 1 || !areHollow registry operands ||
          (registry.function? name).all fun function =>
            function.accepts 0 && function.accepts 1) = true := by
  have hbehind : ∀ count, ∀ x ∈ findingsOf registry place count (start + 2) operands,
      decide (place start < x.2.index) = true :=
    fun count x hx => decide_eq_true (lt_findingsOf hp (by omega) x hx)
  have hname : ∀ count, ∀ x ∈ (countNoted registry place start name count).map
      (Prod.mk (start + 2 + (tokensOf operands).length)),
      decide (place start < x.2.index) = false := by
    intro count
    refine List.forall_mem_map.mpr fun p hp => decide_eq_false ?_
    rw [countNoted_index hp]
    exact Nat.lt_irrefl _
  have hparts := map_append_eq_iff (fun p => decide (place start < p.index))
    (List.forall_mem_append.mpr ⟨hbehind (countedOperands registry), hbehind List.length⟩)
    (List.forall_mem_append.mpr ⟨hname (countedOperands registry operands), hname operands.length⟩)
  rw [map_snd_mk, map_snd_mk, countNoted_eq_iff hf] at hparts
  rw [findings, findings, ← hparts]
  simp only [List.map_append, List.append_assoc, List.append_right_inj]

mutual

/-- The problems that assembling notes in an ordered formula are those of the formula exactly if
no call is misjudged. Problems of different parts cannot be mistaken for one another, because
the tokens of the parts stand at different places. -/
theorem findings_map_eq_iff (start : Nat) (f : Formula) (hf : f.isOrdered registry = true)
    (hp : Ascending place (start + f.tokens.length)) :
    (f.findings registry place (countedOperands registry) start).map Prod.snd =
        (f.findings registry place List.length start).map Prod.snd ↔
      f.hasSeenOperands registry = true := by
  match f with
  | .literal value | .reference name | .constant name =>
    rw [findings, findings, hasSeenOperands]
    simp
  | .group inner =>
    rw [isOrdered] at hf
    rw [findings, findings, hasSeenOperands]
    refine findings_map_eq_iff (start + 1) inner hf (hp.mono ?_)
    simp only [Formula.tokens, List.length_append, List.length_cons]
    omega
  | .call name operands =>
    rw [isOrdered] at hf
    rw [call_tokens_length] at hp
    obtain ⟨-, hle⟩ := operandTokens_length operands
    have hinside := findingsOf_map_eq_iff (start + 2) operands hf (hp.mono (by omega))
    rw [call_findings_map_eq_iff hf (hp.mono (by omega)), hinside, hasSeenOperands,
      Bool.and_eq_true]
  | .unary symbol operand =>
    simp only [isOrdered, Bool.and_eq_true] at hf
    rw [findings, findings, hasSeenOperands]
    refine findings_map_eq_iff (start + 1) operand hf.2 (hp.mono ?_)
    simp only [Formula.tokens, List.length_cons]
    omega
  | .binary symbol left right =>
    simp only [isOrdered, Bool.and_eq_true] at hf
    have hlength : start + (Formula.binary symbol left right).tokens.length =
        start + left.tokens.length + 1 + right.tokens.length := by
      simp only [Formula.tokens, List.length_append, List.length_cons]
      omega
    rw [hlength] at hp
    have hl := findings_map_eq_iff start left hf.1.2 (hp.mono (by omega))
    have hr := findings_map_eq_iff (start + left.tokens.length + 1) right hf.2 hp
    have hbefore : ∀ count, ∀ x ∈ left.findings registry place count start,
        x.2.index < place (start + left.tokens.length) :=
      fun count => findings_lt (hp.mono (by omega))
    have hbehind : ∀ count, ∀ x ∈ right.findings registry place count
        (start + left.tokens.length + 1), place (start + left.tokens.length) < x.2.index :=
      fun count => lt_findings hp (Nat.lt_succ_self _)
    rw [findings, findings, hasSeenOperands, Bool.and_eq_true, ← hl, ← hr]
    exact map_append_eq_iff_of_between hbefore hbehind _ _

/-- So are those in several ordered formulas. -/
theorem findingsOf_map_eq_iff (start : Nat) (fs : List Formula)
    (hf : areOrdered registry fs = true)
    (hp : Ascending place (start + (operandTokens fs).length)) :
    (findingsOf registry place (countedOperands registry) start fs).map Prod.snd =
        (findingsOf registry place List.length start fs).map Prod.snd ↔
      haveSeenOperands registry fs = true := by
  match fs with
  | [] =>
    rw [findingsOf, findingsOf, haveSeenOperands]
    simp
  | f :: fs =>
    rw [areOrdered, Bool.and_eq_true] at hf
    have hlength : start + (operandTokens (f :: fs)).length =
        start + f.tokens.length + 1 + (operandTokens fs).length := by
      simp only [operandTokens, List.flatMap_cons, List.length_append, List.length_singleton]
      omega
    rw [hlength] at hp
    obtain ⟨hle, -⟩ := operandTokens_length fs
    have hfirst := findings_map_eq_iff start f hf.1 (hp.mono (by omega))
    have hrest := findingsOf_map_eq_iff (start + f.tokens.length + 1) fs hf.2 hp
    have hbefore : ∀ count, ∀ x ∈ f.findings registry place count start,
        x.2.index < place (start + f.tokens.length) :=
      fun count => findings_lt (hp.mono (by omega))
    have hbehind : ∀ count, ∀ x ∈ findingsOf registry place count
        (start + f.tokens.length + 1) fs, place (start + f.tokens.length) < x.2.index :=
      fun count => lt_findingsOf (hp.mono (by omega)) (Nat.lt_succ_self _)
    rw [findingsOf, findingsOf, haveSeenOperands, Bool.and_eq_true, ← hfirst, ← hrest]
    exact map_append_eq_iff_of_between hbefore hbehind _ _

end

end Formula

open Formula

variable {registry : Registry}

/-! ### Whole texts -/

/-- The tokens of a scan that stand one behind the other ascend. -/
theorem indexAt_ascending {s : Scan} (h : s.tokens.Pairwise (·.index < ·.index)) :
    Ascending s.indexAt s.tokens.length := by
  intro m n hmn hn
  have hm : m < s.tokens.length := Nat.lt_trans hmn hn
  rw [Scan.indexAt, Scan.indexAt, List.getElem?_eq_getElem hm, List.getElem?_eq_getElem hn]
  exact List.pairwise_iff_getElem.mp h m n hm hn hmn

/-- Every token of a text stands where its scan says. -/
theorem indexAt_of_tokenize {source : String} {tokens : List Located}
    (ht : tokenize registry source = .ok tokens) {n : Nat} {located : Located}
    (hn : tokens[n]? = some located) : (scanOf registry source).indexAt n = located.index := by
  obtain ⟨last, hlast, rfl⟩ := tokenize_eq_ok_iff.mp ht
  rcases Nat.lt_trichotomy n (scanOf registry source).tokens.length with hlt | rfl | hgt
  · rw [List.getElem?_append_left hlt] at hn
    rw [Scan.indexAt, hn]
  · rw [List.getElem?_append_right (Nat.le_refl _), Nat.sub_self] at hn
    cases hn
    exact (Scan.indexAt_ending hlast).symm
  · rw [List.getElem?_eq_none (by simp only [List.length_append]; exact hgt)] at hn
    cases hn

/-- A text whose formula has only full groups is refused for the problems that assembling notes,
if there are any. -/
theorem unsupported_iff {source : String} {tokens : List Located} {f : Formula}
    (ht : tokenize registry source = .ok tokens) (hf : f.Yields registry tokens)
    (hg : f.hasFullGroups registry = true) {problems : List Problem} :
    (compile registry source).result = .error ⟨source, .unsupported problems⟩ ↔
      problems ≠ [] ∧ f.noted registry (scanOf registry source).indexAt 0 = problems := by
  have hdraft := read_drafts_iff.mpr ⟨tokens, f, ht, hf, rfl⟩
  obtain ⟨herror, hholds⟩ := read_source registry source
  have hnone : Draft.initial.hollowGroup? registry (scanOf registry source).tokens = none :=
    (hollowGroup?_eq_none_iff ht hf).mpr hg
  replace hholds := hholds hnone
  rw [hnone, hdraft] at herror
  rw [hdraft] at hholds
  have hproblems := hholds.problems
  rw [whole_noted] at hproblems
  rw [← hproblems]
  simp only [compile, run_source]
  generalize (scanOf registry source).read (Assembly.take registry) .initial = read at herror ⊢
  obtain ⟨final, error?⟩ := read
  change error? = none at herror
  subst herror
  by_cases hp : final.problems.toList = []
  · rw [if_pos (by simpa using hp), hp]
    constructor
    · intro h
      cases h
    · rintro ⟨hne, rfl⟩
      exact absurd rfl hne
  · rw [if_neg (by simpa using hp)]
    constructor
    · intro h
      cases h
      exact ⟨hp, rfl⟩
    · rintro ⟨-, rfl⟩
      rfl

/-- A text whose formula has a group that is not full is not refused for problems. -/
theorem not_unsupported {source : String} {tokens : List Located} {f : Formula}
    (ht : tokenize registry source = .ok tokens) (hf : f.Yields registry tokens)
    (hg : ¬f.hasFullGroups registry = true) (problems : List Problem) :
    (compile registry source).result ≠ .error ⟨source, .unsupported problems⟩ := by
  intro h
  obtain ⟨index, hindex⟩ := Option.ne_none_iff_exists'.mp
    fun hnone => hg ((hollowGroup?_eq_none_iff ht hf).mp hnone)
  have herror := syntaxErrorOf_compileIn registry .empty source
  change syntaxErrorOf (compile registry source).result = _ at herror
  rw [h, hindex] at herror
  cases herror

/-- A text whose tokens are those of a formula compiles exactly if nothing is wrong in the
formula: every constant and every called function is known, and every function accepts the
number of operands that are written. Otherwise exactly these problems are reported, in the order
of the tokens at which they show, if and only if no group of the formula is hollow and no call is
misjudged for a single hollow operand. -/
theorem compileIn_unsupported_iff {source : String} {tokens : List Located} {f : Formula}
    (ht : tokenize registry source = .ok tokens) (hf : f.Yields registry tokens)
    (store : Store) :
    let place := (scanOf registry source).indexAt
    (∀ (n : Nat) (located : Located), tokens[n]? = some located → place n = located.index) ∧
    ((∃ program, (compileIn registry store source).1 = .ok program) ↔
      f.problems registry place 0 = []) ∧
    ((compileIn registry store source).1 =
        .error ⟨source, .unsupported (f.problems registry place 0)⟩ ↔
      f.problems registry place 0 ≠ [] ∧ f.hasFullGroups registry = true ∧
        f.hasSeenOperands registry = true) ∧
    ∃ found : List (Nat × Problem), found.map Prod.snd = f.problems registry place 0 ∧
      found.Pairwise (·.1 < ·.1) ∧
      ∀ shows problem, (shows, problem) ∈ found ↔
        ∃ n g, Contains 0 f n g ∧ g.Fails registry place List.length n shows problem := by
  intro place
  have hlength : (scanOf registry source).tokens.length = f.tokens.length := by
    rw [← hf.scan_tokens ht, List.length_map]
  have hascending : Ascending place (0 + f.tokens.length) := by
    rw [Nat.zero_add, ← hlength]
    exact indexAt_ascending (scanOf_pairwise registry source)
  have hsame : f.noted registry place 0 = f.problems registry place 0 ↔
      f.hasSeenOperands registry = true := by
    rw [noted_eq_findings, problems_eq_findings]
    exact findings_map_eq_iff 0 f hf.ordered hascending
  refine ⟨fun n located => indexAt_of_tokenize ht, ?_, ?_,
    f.findings registry place List.length 0, (problems_eq_findings 0 f).symm,
    findings_pairwise 0 f, fun shows problem => mem_findings_iff⟩
  · rw [← term_iff_problems 0 hf.ordered]
    constructor
    · rintro ⟨program, hprogram⟩
      obtain ⟨others, g, t, hothers, hg, hterm, -⟩ := formula_of_compile hprogram
      cases ht.symm.trans hothers
      exact ⟨t, hf.unique hg ▸ hterm⟩
    · rintro ⟨t, hterm⟩
      exact ⟨_, compile_of_formula ht hf hterm⟩
  · change (compile registry source).result = _ ↔ _
    by_cases hg : f.hasFullGroups registry = true
    · rw [unsupported_iff ht hf hg, hsame]
      simp [hg]
    · simp [hg, not_unsupported ht hf hg]

/-- A call of one operand whose only operand is a call of an unknown function. The unknown
function is all that is wrong, and something else is reported. -/
theorem compileIn_unsupported_misjudged :
    ∃ (tokens : List Located) (f : Formula), tokenize .builtin "abs(g())" = .ok tokens ∧
      f.Yields .builtin tokens ∧
      f.problems .builtin (scanOf .builtin "abs(g())").indexAt 0 = [.unknownFunction "g" 4] ∧
      (∀ program, (compileIn .builtin .empty "abs(g())").1 ≠ .ok program) ∧
      (compileIn .builtin .empty "abs(g())").1 ≠
        .error ⟨"abs(g())", .unsupported [.unknownFunction "g" 4]⟩ := by
  have htokens : tokenize .builtin "abs(g())" =
      .ok [⟨0, .call "abs"⟩, ⟨3, .opening⟩, ⟨4, .call "g"⟩, ⟨5, .opening⟩, ⟨6, .closing⟩,
        ⟨7, .closing⟩, ⟨8, .finish⟩] := by
    decide +kernel
  let f : Formula := .call "abs" [.call "g" []]
  have hordered : f.isOrdered .builtin = true := by decide +kernel
  obtain ⟨hplace, hok, hreported, -⟩ :=
    compileIn_unsupported_iff htokens ⟨hordered, rfl⟩ .empty
  have hproblems : f.problems .builtin (scanOf .builtin "abs(g())").indexAt 0 =
      [.unknownFunction "g" 4] := by
    have hg : Registry.builtin.function? "g" = none :=
      Option.isNone_iff_eq_none.mp (by decide +kernel)
    have habs : (Registry.builtin.function? "abs").any (·.accepts 1) = true := by decide +kernel
    obtain ⟨function, habs, haccepts⟩ := (Option.any_eq_true _ _).mp habs
    simp only [f, Formula.problems, Formula.problemsOf, habs, hg, List.length_singleton, haccepts,
      if_true, hplace 2 ⟨4, .call "g"⟩ rfl, List.append_nil]
  have hseen : f.hasSeenOperands .builtin = false := by decide +kernel
  rw [hproblems] at hok hreported
  refine ⟨_, f, htokens, ⟨hordered, rfl⟩, hproblems, fun program hprogram => ?_, fun herror => ?_⟩
  · cases hok.mp ⟨program, hprogram⟩
  · have hmisjudged := (hreported.mp herror).2.2
    rw [hseen] at hmisjudged
    cases hmisjudged

end GateFormula
