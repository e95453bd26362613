import GateFormula.Proofs.Phrases

/-!
# Composing texts

Since every text that compiles is a phrase, texts may be put together without looking into them:
nothing but that they compile is asked of them.
-/

namespace GateFormula

variable {registry : Registry}

/-- Texts that compile are phrases. -/
theorem phrases_of_compilesTo {pieces : List (String × List Instruction)}
    (h : ∀ piece ∈ pieces, CompilesTo registry piece.1 piece.2) :
    ∃ ps : List (Phrase registry), ps.map Phrase.chars = pieces.map (fun piece => piece.1.toList) ∧
      ps.map (fun p => p.term.code) = pieces.map Prod.snd := by
  induction pieces with
  | nil => exact ⟨[], rfl, rfl⟩
  | cons piece pieces ih =>
    obtain ⟨hpiece, hpieces⟩ := List.forall_mem_cons.mp h
    obtain ⟨p, hchars, hcode⟩ := hpiece.phrase
    obtain ⟨ps, hallChars, hallCode⟩ := ih hpieces
    exact ⟨p :: ps, congrArg₂ List.cons hchars hallChars, congrArg₂ List.cons hcode hallCode⟩

/-- The instructions of several terms are those of each. -/
theorem Term.codeOf_eq (terms : List Term) : codeOf terms = terms.flatMap code := by
  induction terms with
  | nil => rfl
  | cons term terms ih => rw [codeOf, ih, List.flatMap_cons]

/-- Texts that compile are composed without looking into them. With parentheses around each, an
operator between two of them or before one compiles to their instructions and then its call, and a
plain name between sigils before a list of them in parentheses to theirs and the call of the
function, if the function accepts their number. -/
theorem compilesTo_composed (reachable : registry.Reachable) :
    (∀ a b A B symbol o, CompilesTo registry a A → CompilesTo registry b B →
      registry.operator? symbol = some o → o.isUnary = false →
        CompilesTo registry ("(" ++ a ++ ") " ++ symbol ++ " (" ++ b ++ ")")
          (A ++ B ++ [.call o.function 2])) ∧
    (∀ a A symbol o, CompilesTo registry a A →
      registry.operator? symbol = some o → o.isUnary = true →
        CompilesTo registry (symbol ++ " (" ++ a ++ ")") (A ++ [.call o.function 1])) ∧
    ∀ (pieces : List (String × List Instruction)) name function,
      (∀ piece ∈ pieces, CompilesTo registry piece.1 piece.2) → isPlainName name = true →
      registry.function? name = some function → function.accepts pieces.length = true →
        CompilesTo registry
          ("$" ++ name ++ "$(" ++ ", ".intercalate (pieces.map Prod.fst) ++ ")")
          (pieces.flatMap Prod.snd ++ [.call function pieces.length]) := by
  refine ⟨?_, ?_, ?_⟩
  · intro a b A B symbol o ha hb ho hbinary
    obtain ⟨p, hp, rfl⟩ := ha.phrase
    obtain ⟨q, hq, rfl⟩ := hb.phrase
    let whole : Phrase registry :=
      .binary reachable ho hbinary (p.group reachable [] rfl) (q.group reachable [] rfl).indent
        rfl rfl rfl
    have hchars : ("(" ++ a ++ ") " ++ symbol ++ " (" ++ b ++ ")").toList = whole.chars := by
      simp [whole, Phrase.binary, Phrase.group, Phrase.indent, hp, hq]
    have hcode : whole.term.code = p.term.code ++ q.term.code ++ [.call o.function 2] := by
      simp [whole, Phrase.binary, Phrase.group, Phrase.indent, Term.code, Term.codeOf]
    rw [← hcode]
    exact whole.compilesTo (congrArg _ hchars)
  · intro a A symbol o ha ho hunary
    obtain ⟨p, hp, rfl⟩ := ha.phrase
    let whole : Phrase registry :=
      .unary reachable ho hunary (p.group reachable [] rfl).indent rfl rfl
    have hchars : (symbol ++ " (" ++ a ++ ")").toList = whole.chars := by
      simp [whole, Phrase.unary, Phrase.group, Phrase.indent, hp]
    have hcode : whole.term.code = p.term.code ++ [.call o.function 1] := by
      simp [whole, Phrase.unary, Phrase.group, Phrase.indent, Term.code, Term.codeOf]
    rw [← hcode]
    exact whole.compilesTo (congrArg _ hchars)
  · intro pieces name function hpieces plain hf accepts
    obtain ⟨ps, hps, hcodes⟩ := phrases_of_compilesTo hpieces
    have hlength : ps.length = pieces.length := by
      simpa using congrArg List.length hcodes
    let whole : Phrase registry :=
      .call reachable plain hf ps (hlength ▸ accepts) [] [' '] rfl all_isBlank_space
    have hchars : ("$" ++ name ++ "$(" ++ ", ".intercalate (pieces.map Prod.fst) ++ ")").toList =
        whole.chars := by
      simp [whole, Phrase.call, hps, String.toList_intercalate, Function.comp_def]
    have hcode : whole.term.code = pieces.flatMap Prod.snd ++ [.call function pieces.length] := by
      have hall : (ps.map Phrase.term).flatMap Term.code = pieces.flatMap Prod.snd := by
        rw [List.flatMap_map, List.flatMap_def, hcodes, ← List.flatMap_def]
      simp [whole, Phrase.call, Term.code, Term.codeOf_eq, hall, hlength]
    rw [← hcode]
    exact whole.compilesTo (congrArg _ hchars)

/-- Two variables, one of them in parentheses with blanks, behind each other under an operator, a
prefix and a function. -/
theorem compilesTo_composed_variables :
    Registry.builtin.Reachable ∧ ∃ o p function,
      Registry.builtin.operator? "&&" = some o ∧ Registry.builtin.operator? "!" = some p ∧
      Registry.builtin.function? "max" = some function ∧
      CompilesTo .builtin "($x$) && (( $y$ ))" [.load "x", .load "y", .call o.function 2] ∧
      CompilesTo .builtin "! ($x$)" [.load "x", .call p.function 1] ∧
      CompilesTo .builtin "$max$($x$, ( $y$ ))"
        [.load "x", .load "y", .call function 2] := by
  have hx : CompilesTo .builtin "$x$" [.load "x"] := by
    have htokens : tokenize .builtin "$x$" = .ok [⟨0, .reference "x"⟩, ⟨3, .finish⟩] := by
      decide +kernel
    have hterm : (Formula.reference "x").term? .builtin = some (.reference "x") := rfl
    exact fun _ => compile_of_formula htokens ⟨rfl, rfl⟩ hterm
  have hy : CompilesTo .builtin "( $y$ )" [.load "y"] := by
    have htokens : tokenize .builtin "( $y$ )" =
        .ok [⟨0, .opening⟩, ⟨2, .reference "y"⟩, ⟨6, .closing⟩, ⟨7, .finish⟩] := by
      decide +kernel
    have hterm : (Formula.group (.reference "y")).term? .builtin = some (.reference "y") := rfl
    exact fun _ => compile_of_formula htokens ⟨rfl, rfl⟩ hterm
  have ho : (Registry.builtin.operator? "&&").any (fun o => !o.isUnary) = true := by
    decide +kernel
  have hp : (Registry.builtin.operator? "!").any Operator.isUnary = true := by decide +kernel
  have hf : (Registry.builtin.function? "max").any (fun f => f.accepts 2) = true := by
    decide +kernel
  obtain ⟨o, ho, hbinary⟩ := (Option.any_eq_true _ _).mp ho
  obtain ⟨p, hp, hunary⟩ := (Option.any_eq_true _ _).mp hp
  obtain ⟨function, hf, accepts⟩ := (Option.any_eq_true _ _).mp hf
  obtain ⟨hbetween, hbefore, hcall⟩ := compilesTo_composed .builtin
  have hoperands : ∀ piece ∈ [("$x$", [Instruction.load "x"]), ("( $y$ )", [.load "y"])],
      CompilesTo .builtin piece.1 piece.2 := by
    simp [hx, hy]
  have hbetween := hbetween "$x$" "( $y$ )" _ _ "&&" o hx hy ho (by simpa using hbinary)
  have hbefore := hbefore "$x$" _ "!" p hx hp hunary
  have hcall := hcall _ "max" function hoperands (by decide) hf accepts
  have htexts : "(" ++ "$x$" ++ ") " ++ "&&" ++ " (" ++ "( $y$ )" ++ ")" = "($x$) && (( $y$ ))" ∧
      "!" ++ " (" ++ "$x$" ++ ")" = "! ($x$)" ∧
      "$" ++ "max" ++ "$(" ++ ", ".intercalate ["$x$", "( $y$ )"] ++ ")" =
        "$max$($x$, ( $y$ ))" := by
    decide +kernel
  rw [htexts.1] at hbetween
  rw [htexts.2.1] at hbefore
  rw [List.map_cons, List.map_cons, List.map_nil, htexts.2.2] at hcall
  exact ⟨.builtin, o, p, function, ho, hp, hf, hbetween, hbefore, hcall⟩

end GateFormula
