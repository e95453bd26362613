import GateFormula.Proofs.Draft.Emission

/-!
# Findings

What is wrong in a formula, part by part. `Contains` says which formulas a formula contains and
at which tokens they start, and `Fails` what is wrong with one of them by itself: a name that the
registry does not have, which shows at the name, or a number of operands that a function does not
accept, which shows at the closing parenthesis. `findings` lists all of it in the order of the
tokens at which it shows. How many operands a call has is left open here, since assembling
counts them by the code that they write.
-/

namespace GateFormula

namespace Formula

/-- A formula that starts at the token number `start` contains a formula `g` that starts at the
token number `n`. -/
inductive Contains : (start : Nat) → Formula → (n : Nat) → (g : Formula) → Prop where
  /-- The formula itself. -/
  | here {start f} : Contains start f start f
  /-- What a group holds. -/
  | group {start inner n g} (inside : Contains (start + 1) inner n g) :
      Contains start (.group inner) n g
  /-- What an operand of a call holds. -/
  | operand {start name before f after n g}
      (inside : Contains (start + 2 + (operandTokens before).length) f n g) :
      Contains start (.call name (before ++ f :: after)) n g
  /-- What the operand of an operator holds. -/
  | unary {start symbol operand n g} (inside : Contains (start + 1) operand n g) :
      Contains start (.unary symbol operand) n g
  /-- What the left operand of an operator holds. -/
  | left {start symbol left right n g} (inside : Contains start left n g) :
      Contains start (.binary symbol left right) n g
  /-- What the right operand of an operator holds. -/
  | right {start symbol left right n g}
      (inside : Contains (start + left.tokens.length + 1) right n g) :
      Contains start (.binary symbol left right) n g

/-- What is wrong with a formula by itself that starts at the token number `n`: the number of the
token at which it shows, and the problem. -/
inductive Fails (registry : Registry) (place : Nat → Nat) (count : List Formula → Nat) (n : Nat) :
    Formula → (shows : Nat) → Problem → Prop where
  /-- There is no constant of the name. -/
  | constant {name} (unknown : registry.constant? name = none) :
      Fails registry place count n (.constant name) n (.unknownConstant name (place n))
  /-- There is no function of the name. -/
  | callee {name operands} (unknown : registry.function? name = none) :
      Fails registry place count n (.call name operands) n (.unknownFunction name (place n))
  /-- The function does not accept the number of operands. -/
  | count {name operands function closing} (known : registry.function? name = some function)
      (refused : function.accepts (count operands) = false)
      (last : closing + 1 = n + (Formula.call name operands).tokens.length) :
      Fails registry place count n (.call name operands) closing
        (.arityMismatch name (place n) (count operands) function)

mutual

/-- What is wrong in a formula which starts at the token number `start`, each problem with the
number of the token at which it shows. -/
def findings (registry : Registry) (place : Nat → Nat) (count : List Formula → Nat)
    (start : Nat) : Formula → List (Nat × Problem)
  | .literal _ | .reference _ => []
  | .constant name =>
    match registry.constant? name with
    | some _ => []
    | none => [(start, .unknownConstant name (place start))]
  | .group inner => inner.findings registry place count (start + 1)
  | .call name operands =>
    (calleeNoted registry place start name).map (Prod.mk start)
      ++ findingsOf registry place count (start + 2) operands
      ++ (countNoted registry place start name (count operands)).map
        (Prod.mk (start + 2 + (tokensOf operands).length))
  | .unary _ operand => operand.findings registry place count (start + 1)
  | .binary _ left right =>
    left.findings registry place count start
      ++ right.findings registry place count (start + left.tokens.length + 1)

/-- What is wrong in formulas each of which one token follows. -/
def findingsOf (registry : Registry) (place : Nat → Nat) (count : List Formula → Nat)
    (start : Nat) : List Formula → List (Nat × Problem)
  | [] => []
  | f :: fs =>
    f.findings registry place count start
      ++ findingsOf registry place count (start + f.tokens.length + 1) fs

end

variable {registry : Registry} {place : Nat → Nat} {count : List Formula → Nat}

/-! ### Tokens of the formulas that a formula contains -/

/-- Further operands are operands behind a comma. -/
theorem furtherTokens_cons (f : Formula) (fs : List Formula) :
    furtherTokens (f :: fs) = .comma :: tokensOf (f :: fs) := by
  rw [furtherTokens, tokensOf, List.cons_append]

/-- The tokens of an operand stand behind those of the operands before it. -/
theorem tokensOf_append_cons (before : List Formula) (f : Formula) (after : List Formula) :
    tokensOf (before ++ f :: after) =
      operandTokens before ++ f.tokens ++ furtherTokens after := by
  induction before with
  | nil => rfl
  | cons g before ih =>
    have hfurther : furtherTokens (before ++ f :: after) =
        .comma :: tokensOf (before ++ f :: after) := by
      cases before <;> exact furtherTokens_cons _ _
    rw [List.cons_append, tokensOf, hfurther, ih, operandTokens, operandTokens, List.flatMap_cons]
    simp only [List.append_assoc, List.cons_append, List.nil_append]

/-- The tokens of a formula that a formula contains stand in it from their first one on. -/
theorem Contains.tokens {start n : Nat} {f g : Formula} (h : Contains start f n g) :
    ∃ before after, f.tokens = before ++ g.tokens ++ after ∧ n = start + before.length := by
  -- What stands in a part of a formula stands in the formula, behind the tokens before the part.
  have hpart : ∀ {outer g : Formula} {n : Nat} (inner : Formula) (start : Nat)
      (xs ys : List Token),
      outer.tokens = xs ++ inner.tokens ++ ys →
      (∃ before after, inner.tokens = before ++ g.tokens ++ after ∧
        n = start + xs.length + before.length) →
      ∃ before after, outer.tokens = before ++ g.tokens ++ after ∧ n = start + before.length := by
    rintro outer g n inner start xs ys houter ⟨before, after, hinner, hn⟩
    refine ⟨xs ++ before, after ++ ys, ?_, ?_⟩
    · rw [houter, hinner]
      simp only [List.append_assoc]
    · rw [hn, List.length_append, Nat.add_assoc]
  induction h with
  | here => exact ⟨[], [], by simp, rfl⟩
  | @group start inner n g inside ih =>
    exact hpart inner start [.opening] [.closing] (by rw [Formula.tokens]; rfl) ih
  | @operand start name before f after n g inside ih =>
    refine hpart f start (.call name :: .opening :: operandTokens before)
      (furtherTokens after ++ [.closing]) ?_ ?_
    · rw [Formula.tokens, tokensOf_append_cons]
      simp only [List.cons_append, List.append_assoc]
    · have hlength : start + (Token.call name :: .opening :: operandTokens before).length =
          start + 2 + (operandTokens before).length := by
        simp only [List.length_cons]
        omega
      rw [hlength]
      exact ih
  | @unary start symbol operand n g inside ih =>
    exact hpart operand start [.operator symbol] [] (by rw [Formula.tokens]; simp) ih
  | @left start symbol left right n g inside ih =>
    exact hpart left start [] (.operator symbol :: right.tokens) (by rw [Formula.tokens]; rfl) ih
  | @right start symbol left right n g inside ih =>
    refine hpart right start (left.tokens ++ [.operator symbol]) []
      (by rw [Formula.tokens]; simp) ?_
    rw [List.length_append, List.length_singleton, ← Nat.add_assoc]
    exact ih

/-! ### What the list holds -/

/-- The tokens of a call. -/
theorem call_tokens_length (name : String) (operands : List Formula) :
    (Formula.call name operands).tokens.length = (tokensOf operands).length + 3 := by
  rw [Formula.tokens]
  simp only [List.length_append, List.length_cons, List.length_nil]

/-- What is wrong in two rows of formulas. -/
theorem findingsOf_append (start : Nat) (xs ys : List Formula) :
    findingsOf registry place count start (xs ++ ys) =
      findingsOf registry place count start xs ++
        findingsOf registry place count (start + (operandTokens xs).length) ys := by
  induction xs generalizing start with
  | nil => rfl
  | cons f xs ih =>
    have hl : start + f.tokens.length + 1 + (operandTokens xs).length =
        start + (operandTokens (f :: xs)).length := by
      simp only [operandTokens, List.flatMap_cons, List.length_append, List.length_singleton]
      omega
    rw [List.cons_append, findingsOf, findingsOf, ih, hl, List.append_assoc]

/-- What is wrong with a formula that a formula contains is listed. -/
theorem mem_findings_of_contains {start n shows : Nat} {f g : Formula} {p : Problem}
    (h : Contains start f n g) (hg : g.Fails registry place count n shows p) :
    (shows, p) ∈ f.findings registry place count start := by
  induction h with
  | @here start f =>
    cases hg with
    | constant unknown => rw [findings, unknown]; exact List.mem_singleton_self _
    | @callee name operands unknown =>
      rw [findings, calleeNoted, unknown]
      simp
    | @count name operands function closing known refused last =>
      rw [call_tokens_length] at last
      obtain rfl : shows = start + 2 + (tokensOf operands).length := by omega
      rw [findings, countNoted, known]
      simp [refused]
  | group inside ih | unary inside ih =>
    rw [findings]
    exact ih hg
  | @operand start name before f after n g inside ih =>
    rw [findings, findingsOf_append, findingsOf]
    exact List.mem_append_left _ (List.mem_append_right _ (List.mem_append_right _
      (List.mem_append_left _ (ih hg))))
  | left inside ih =>
    rw [findings]
    exact List.mem_append_left _ (ih hg)
  | right inside ih =>
    rw [findings]
    exact List.mem_append_right _ (ih hg)

mutual

/-- What is listed is wrong with a formula that the formula contains. -/
theorem contains_of_mem_findings {start : Nat} (f : Formula) {x : Nat × Problem}
    (h : x ∈ f.findings registry place count start) :
    ∃ n g, Contains start f n g ∧ g.Fails registry place count n x.1 x.2 := by
  match f with
  | .literal value | .reference name =>
    rw [findings] at h
    cases h
  | .constant name =>
    rw [findings] at h
    split at h
    · cases h
    next unknown =>
      cases List.mem_singleton.mp h
      exact ⟨start, _, .here, .constant unknown⟩
  | .group inner =>
    rw [findings] at h
    obtain ⟨n, g, hg, hf⟩ := contains_of_mem_findings inner h
    exact ⟨n, g, .group hg, hf⟩
  | .call name operands =>
    rw [findings, List.mem_append, List.mem_append] at h
    rcases h with (h | h) | h
    · obtain ⟨p, hp, rfl⟩ := List.mem_map.mp h
      rw [calleeNoted] at hp
      split at hp
      next unknown =>
        cases List.mem_singleton.mp hp
        exact ⟨start, _, .here, .callee unknown⟩
      · cases hp
    · obtain ⟨before, f, after, rfl, n, g, hg, hf⟩ := contains_of_mem_findingsOf operands h
      exact ⟨n, g, .operand hg, hf⟩
    · obtain ⟨p, hp, rfl⟩ := List.mem_map.mp h
      rw [countNoted] at hp
      split at hp
      · cases hp
      next function known =>
        split at hp
        · cases hp
        next refused =>
          cases List.mem_singleton.mp hp
          refine ⟨start, _, .here, .count known (eq_false_of_ne_true refused) ?_⟩
          rw [call_tokens_length]
          omega
  | .unary symbol operand =>
    rw [findings] at h
    obtain ⟨n, g, hg, hf⟩ := contains_of_mem_findings operand h
    exact ⟨n, g, .unary hg, hf⟩
  | .binary symbol left right =>
    rw [findings, List.mem_append] at h
    rcases h with h | h
    · obtain ⟨n, g, hg, hf⟩ := contains_of_mem_findings left h
      exact ⟨n, g, .left hg, hf⟩
    · obtain ⟨n, g, hg, hf⟩ := contains_of_mem_findings right h
      exact ⟨n, g, .right hg, hf⟩

/-- What is listed for several formulas is wrong with a formula that one of them contains. -/
theorem contains_of_mem_findingsOf {start : Nat} (fs : List Formula) {x : Nat × Problem}
    (h : x ∈ findingsOf registry place count start fs) :
    ∃ before f after, fs = before ++ f :: after ∧
      ∃ n g, Contains (start + (operandTokens before).length) f n g ∧
        g.Fails registry place count n x.1 x.2 := by
  match fs with
  | [] =>
    rw [findingsOf] at h
    cases h
  | f :: fs =>
    rw [findingsOf, List.mem_append] at h
    rcases h with h | h
    · exact ⟨[], f, fs, rfl, contains_of_mem_findings f h⟩
    · obtain ⟨before, next, after, rfl, hnext⟩ := contains_of_mem_findingsOf fs h
      refine ⟨f :: before, next, after, rfl, ?_⟩
      have hl : start + (operandTokens (f :: before)).length =
          start + f.tokens.length + 1 + (operandTokens before).length := by
        simp only [operandTokens, List.flatMap_cons, List.length_append, List.length_singleton]
        omega
      rw [hl]
      exact hnext

end

/-- The list holds what is wrong with the formulas that a formula contains. -/
theorem mem_findings_iff {start shows : Nat} {f : Formula} {p : Problem} :
    (shows, p) ∈ f.findings registry place count start ↔
      ∃ n g, Contains start f n g ∧ g.Fails registry place count n shows p := by
  constructor
  · exact contains_of_mem_findings f
  · rintro ⟨n, g, hg, hf⟩
    exact mem_findings_of_contains hg hf

/-! ### The order of the list -/

/-- What is wrong with a formula shows at one of its tokens, and is about the first one. -/
theorem Fails.range {n shows : Nat} {g : Formula} {p : Problem}
    (h : g.Fails registry place count n shows p) :
    n ≤ shows ∧ shows < n + g.tokens.length ∧ p.index = place n := by
  have hpos : 0 < g.tokens.length := List.length_pos_iff.mpr g.tokens_ne_nil
  cases h with
  | constant | callee => exact ⟨Nat.le_refl _, by omega, rfl⟩
  | count known refused last =>
    rw [call_tokens_length] at last ⊢
    exact ⟨by omega, by omega, rfl⟩

/-- So does what is wrong with a formula that it contains. -/
theorem Contains.range {start n shows : Nat} {f g : Formula} {p : Problem}
    (h : Contains start f n g) (hg : g.Fails registry place count n shows p) :
    (start ≤ shows ∧ shows < start + f.tokens.length) ∧
      start ≤ n ∧ n < start + f.tokens.length ∧ p.index = place n := by
  obtain ⟨before, after, htokens, hn⟩ := h.tokens
  obtain ⟨hle, hlt, hindex⟩ := hg.range
  rw [htokens, List.length_append, List.length_append]
  exact ⟨⟨by omega, by omega⟩, by omega, by omega, hindex⟩

/-- What is listed for a formula shows at one of its tokens, and is about one of them. -/
theorem findings_range {start : Nat} {f : Formula} {x : Nat × Problem}
    (h : x ∈ f.findings registry place count start) :
    (start ≤ x.1 ∧ x.1 < start + f.tokens.length) ∧
      ∃ n, start ≤ n ∧ n < start + f.tokens.length ∧ x.2.index = place n := by
  obtain ⟨n, g, hg, hf⟩ := contains_of_mem_findings f h
  obtain ⟨hshows, hn⟩ := hg.range hf
  exact ⟨hshows, n, hn⟩

/-- What is listed for operands shows at one of their tokens, and is about one of them. -/
theorem findingsOf_range {start : Nat} {fs : List Formula} {x : Nat × Problem}
    (h : x ∈ findingsOf registry place count start fs) :
    (start ≤ x.1 ∧ x.1 < start + (tokensOf fs).length) ∧
      ∃ n, start ≤ n ∧ n < start + (tokensOf fs).length ∧ x.2.index = place n := by
  obtain ⟨before, f, after, rfl, n, g, hg, hf⟩ := contains_of_mem_findingsOf fs h
  obtain ⟨hshows, hle, hlt, hindex⟩ := hg.range hf
  rw [tokensOf_append_cons, List.length_append, List.length_append]
  exact ⟨⟨by omega, by omega⟩, n, by omega, by omega, hindex⟩

mutual

/-- The list is in the order of the tokens at which the problems show, one at most at each. -/
theorem findings_pairwise (start : Nat) (f : Formula) :
    (f.findings registry place count start).Pairwise (·.1 < ·.1) := by
  match f with
  | .literal value | .reference name =>
    rw [findings]
    exact .nil
  | .constant name =>
    rw [findings]
    split
    · exact .nil
    · exact List.pairwise_singleton _ _
  | .group inner =>
    rw [findings]
    exact findings_pairwise (start + 1) inner
  | .call name operands =>
    have hinside := findingsOf_pairwise (start + 2) operands
    rw [findings, calleeNoted, countNoted]
    split
    · rw [List.map_nil, List.append_nil]
      refine List.pairwise_cons.mpr ⟨fun x hx => ?_, hinside⟩
      have hrange := (findingsOf_range hx).1
      omega
    next function known =>
      rw [List.map_nil, List.nil_append]
      split
      · rw [List.map_nil, List.append_nil]
        exact hinside
      · refine List.pairwise_append.mpr ⟨hinside, List.pairwise_singleton _ _, ?_⟩
        intro x hx y hy
        have hrange := (findingsOf_range hx).1
        rw [List.mem_singleton.mp hy]
        omega
  | .unary symbol operand =>
    rw [findings]
    exact findings_pairwise (start + 1) operand
  | .binary symbol left right =>
    rw [findings]
    refine List.pairwise_append.mpr
      ⟨findings_pairwise start left, findings_pairwise _ right, fun x hx y hy => ?_⟩
    have hleft := (findings_range hx).1
    have hright := (findings_range hy).1
    omega

/-- So it is for several formulas. -/
theorem findingsOf_pairwise (start : Nat) (fs : List Formula) :
    (findingsOf registry place count start fs).Pairwise (·.1 < ·.1) := by
  match fs with
  | [] =>
    rw [findingsOf]
    exact .nil
  | f :: fs =>
    rw [findingsOf]
    refine List.pairwise_append.mpr
      ⟨findings_pairwise start f, findingsOf_pairwise _ fs, fun x hx y hy => ?_⟩
    have hfirst := (findings_range hx).1
    have hrest := (findingsOf_range hy).1
    omega

end

/-! ### Problems and what assembling notes -/

/-- Problems that show at one token. -/
theorem map_snd_mk (n : Nat) (ps : List Problem) : (ps.map (Prod.mk n)).map Prod.snd = ps := by
  simp only [List.map_map, Function.comp_def, List.map_id']

/-- The number of operands that assembling counts. -/
def countedOperands (registry : Registry) (operands : List Formula) : Nat :=
  seenOperands (writtenOf registry operands) operands.length

mutual

/-- Assembling notes what is wrong with the numbers of operands that it counts. -/
theorem noted_eq_findings (start : Nat) (f : Formula) :
    f.noted registry place start =
      (f.findings registry place (countedOperands registry) start).map Prod.snd := by
  match f with
  | .literal value | .reference name =>
    rw [noted, findings]
    rfl
  | .constant name =>
    rw [noted, findings]
    cases registry.constant? name <;> rfl
  | .group inner =>
    rw [noted, findings]
    exact noted_eq_findings (start + 1) inner
  | .call name operands =>
    rw [noted, findings, notedOf_eq_findings (start + 2) operands, List.map_append,
      List.map_append, map_snd_mk, map_snd_mk, countedOperands]
  | .unary symbol operand =>
    rw [noted, findings]
    exact noted_eq_findings (start + 1) operand
  | .binary symbol left right =>
    rw [noted, findings, noted_eq_findings start left, noted_eq_findings _ right, List.map_append]

/-- So it does in several formulas. -/
theorem notedOf_eq_findings (start : Nat) (fs : List Formula) :
    notedOf registry place start fs =
      (findingsOf registry place (countedOperands registry) start fs).map Prod.snd := by
  match fs with
  | [] =>
    rw [notedOf, findingsOf]
    rfl
  | f :: fs =>
    rw [notedOf, findingsOf, noted_eq_findings start f, notedOf_eq_findings _ fs, List.map_append]

end

mutual

/-- The problems of a formula are what is wrong with the numbers of operands as written. -/
theorem problems_eq_findings (start : Nat) (f : Formula) :
    f.problems registry place start =
      (f.findings registry place List.length start).map Prod.snd := by
  match f with
  | .literal value | .reference name =>
    rw [problems, findings]
    rfl
  | .constant name =>
    rw [problems, findings]
    cases registry.constant? name <;> rfl
  | .group inner =>
    rw [problems, findings]
    exact problems_eq_findings (start + 1) inner
  | .call name operands =>
    rw [problems, findings, problemsOf_eq_findings (start + 2) operands, calleeNoted, countNoted]
    cases registry.function? name with
    | none => simp
    | some function => by_cases ha : function.accepts operands.length = true <;> simp [ha]
  | .unary symbol operand =>
    rw [problems, findings]
    exact problems_eq_findings (start + 1) operand
  | .binary symbol left right =>
    rw [problems, findings, problems_eq_findings start left, problems_eq_findings _ right,
      List.map_append]

/-- So are those of operands. -/
theorem problemsOf_eq_findings (start : Nat) (fs : List Formula) :
    problemsOf registry place start fs =
      (findingsOf registry place List.length start fs).map Prod.snd := by
  match fs with
  | [] =>
    rw [problemsOf, findingsOf]
    rfl
  | f :: fs =>
    rw [problemsOf, findingsOf, problems_eq_findings start f, problemsOf_eq_findings _ fs,
      List.map_append]

end

end Formula

end GateFormula
