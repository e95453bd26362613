import GateFormula.Proofs.Draft.Emission

/-!
# Assemblies and drafts

An assembly holds a draft if its groupings are the layers of the draft, its code is what
is written for the trees of the draft, and its problems are those noted in them.
`completeOperand_holds`, `leave_group` and `leave_call` say this of the assembly behind
an operand that has just become complete, by itself, in parentheses or as a call.
-/

namespace GateFormula

open Formula

/-! ### What is written and noted for a draft -/

/-- The formulas of a layer that are complete and not at its end. -/
def Layer.pieces (l : Layer) : List Formula :=
  l.operands ++ leftOperands l.lefts

/-- Where no operator waits these are the complete arguments. -/
theorem Layer.pieces_nil (kind : LayerKind) (index : Nat) :
    Layer.pieces ⟨kind, index, []⟩ = Layer.operands ⟨kind, index, []⟩ :=
  List.append_nil _

/-- The code of a layer up to its end. -/
def Layer.written (registry : Registry) (l : Layer) : List Instruction :=
  writtenOf registry l.pieces

/-- The code of layers, the innermost of which comes first. -/
def layersWritten (registry : Registry) : List (Layer × List String) → List Instruction
  | [] => []
  | (l, _) :: ls => layersWritten registry ls ++ l.written registry

/-- The code of the end of the innermost layer. -/
def Focus.written (registry : Registry) : Focus → List Instruction
  | .awaiting _ | .callee _ _ => []
  | .filled f => f.written registry

/-- The code that assembling has written for a draft. -/
def Draft.written (registry : Registry) (d : Draft) : List Instruction :=
  layersWritten registry d.enclosing ++ d.current.written registry ++ d.focus.written registry

/-- The problem with the name before a layer that starts at the token number `start`. -/
def LayerKind.noted (registry : Registry) (place : Nat → Nat) (start : Nat) :
    LayerKind → List Problem
  | .root | .group => []
  | .call name _ => calleeNoted registry place start name

/-- The problems of a layer up to its end. -/
def Layer.noted (registry : Registry) (place : Nat → Nat) (start : Nat) (l : Layer) :
    List Problem :=
  l.kind.noted registry place start ++
    notedOf registry place (start + l.kind.opening.length) l.pieces

/-- The problems of layers, the innermost of which comes first. -/
def layersNoted (registry : Registry) (place : Nat → Nat) :
    List (Layer × List String) → List Problem
  | [] => []
  | (l, _) :: ls =>
    layersNoted registry place ls ++ l.noted registry place (layerTokens ls).length

/-- The problems of the end of the innermost layer. -/
def Focus.noted (registry : Registry) (place : Nat → Nat) (start : Nat) : Focus → List Problem
  | .awaiting _ => []
  | .callee us name => calleeNoted registry place (start + us.length) name
  | .filled f => f.noted registry place start

/-- The number of tokens before the end of the innermost layer. -/
def Draft.position (d : Draft) : Nat :=
  (layerTokens d.enclosing).length + d.current.tokens.length

/-- The problems that assembling has noted in a draft. -/
def Draft.noted (registry : Registry) (place : Nat → Nat) (d : Draft) : List Problem :=
  layersNoted registry place d.enclosing ++
    d.current.noted registry place (layerTokens d.enclosing).length ++
    d.focus.noted registry place d.position

/-! ### Groupings of layers -/

/-- The kind of grouping that a layer is, if the name before it has this index. -/
def LayerKind.grouping (registry : Registry) (index : Nat) : LayerKind → GroupingKind
  | .root => .root
  | .group => .group
  | .call name operands => .call ⟨name, index, registry.function? name⟩ operands.length

/-- A grouping holds a layer that ends with the operators `us` of one operand, in the layers
`outer`. -/
structure Grouping.Holds (registry : Registry) (place : Nat → Nat)
    (outer : List (Layer × List String)) (l : Layer) (us : List String) (expects : Bool)
    (g : Grouping) : Prop where
  /-- The same kind, with the same call and as many commas as complete arguments. -/
  kind : g.kind = l.kind.grouping registry (place (layerTokens outer).length)
  /-- The same opening parenthesis. -/
  index : g.index = l.index
  /-- It starts behind the code of the layers around it. -/
  start : g.start = (layersWritten registry outer).length
  /-- The same operators of two operands. -/
  binaries : Named registry (l.lefts.map Prod.snd) g.binaries
  /-- The same operators of one operand. -/
  unaries : Named registry us g.unaries
  /-- Whether an operand comes next. -/
  expects : g.expectsOperand = expects

/-- Groupings that hold the layers around the innermost one. -/
inductive Enclose (registry : Registry) (place : Nat → Nat) :
    List (Layer × List String) → List Grouping → Prop where
  /-- No layer. -/
  | nil : Enclose registry place [] []
  /-- A layer in others. -/
  | cons {l us ls g gs} (first : Grouping.Holds registry place ls l us true g)
      (rest : Enclose registry place ls gs) : Enclose registry place ((l, us) :: ls) (g :: gs)

/-- The operators of one operand at the end of a layer. -/
def Focus.unaries : Focus → List String
  | .awaiting us | .callee us _ => us
  | .filled _ => []

/-- The function whose argument list comes next, at the end of a layer with `position` tokens
before it. -/
def Focus.pending (registry : Registry) (place : Nat → Nat) (position : Nat) :
    Focus → Option PendingCall
  | .awaiting _ | .filled _ => none
  | .callee us name => some ⟨name, place (position + us.length), registry.function? name⟩

/-- An assembly that stands where a draft stands. -/
structure Assembly.Holds (registry : Registry) (place : Nat → Nat) (d : Draft) (a : Assembly) :
    Prop where
  /-- The innermost grouping holds the innermost layer. -/
  current : a.current.Holds registry place d.enclosing d.current d.focus.unaries d.expectsOperand
  /-- The groupings around it hold the layers around it. -/
  enclosing : Enclose registry place d.enclosing a.enclosing
  /-- The same argument list comes next. -/
  pending : a.pending = d.focus.pending registry place d.position
  /-- The code is that of the draft. -/
  code : a.code.toList = d.written registry
  /-- The problems are those of the draft. -/
  problems : a.problems.toList = d.noted registry place

/-- Results of taking a token on both sides: assemblies that hold drafts, or equal errors. -/
def Answers (registry : Registry) (place : Nat → Nat) :
    Except SyntaxError Assembly → Except SyntaxError Draft → Prop
  | .ok a, .ok d => a.Holds registry place d
  | .error e, .error f => e = f
  | _, _ => False

variable {registry : Registry} {place : Nat → Nat}

/-- The tokens of a layer, part by part. -/
theorem Layer.tokens_length (l : Layer) :
    l.tokens.length = l.kind.opening.length + (operandTokens l.operands).length +
      (leftTokens l.lefts).length := by
  simp only [Layer.tokens, List.length_append]

/-- The first assembly holds the first draft. -/
theorem initial_holds : Assembly.initial.Holds registry place .initial := by
  refine ⟨⟨rfl, rfl, rfl, .nil, .nil, rfl⟩, .nil, rfl, ?_, ?_⟩
  · simp [Assembly.initial, Draft.initial, Draft.written, layersWritten, Layer.written,
      Layer.pieces_nil, Layer.operands, writtenOf, Focus.written]
  · simp [Assembly.initial, Draft.initial, Draft.noted, layersNoted, Layer.noted,
      LayerKind.noted, Layer.pieces_nil, Layer.operands, notedOf, Focus.noted]

/-! ### Complete operands -/

/-- Completing an operand whose code and problems have just been added. -/
theorem completeOperand_holds {a : Assembly} {l : Layer} {us : List String}
    {ls : List (Layer × List String)} {f : Formula}
    (hc : a.current.Holds registry place ls l us true)
    (he : Enclose registry place ls a.enclosing) (hp : a.pending = none)
    (hcode : a.code.toList =
      layersWritten registry ls ++ l.written registry ++ f.written registry)
    (hproblems : a.problems.toList =
      layersNoted registry place ls ++ l.noted registry place (layerTokens ls).length ++
        f.noted registry place ((layerTokens ls).length + l.tokens.length + us.length)) :
    a.completeOperand.Holds registry place ⟨l, .filled (f.wrap us), ls⟩ := by
  refine ⟨⟨hc.kind, hc.index, hc.start, hc.binaries, .nil, rfl⟩, he, hp, ?_, ?_⟩
  · change (a.code ++ Assembly.callsOf a.current.unaries 1).toList = _
    rw [Array.toList_appendList, hcode, Draft.written, Focus.written, wrap_written hc.unaries]
    simp only [List.append_assoc]
  · change a.problems.toList = _
    rw [hproblems, Draft.noted, Focus.noted, wrap_noted, Draft.position]

/-- Completing an operand of one token. -/
theorem leaf_holds {a b : Assembly} {l : Layer} {us : List String}
    {ls : List (Layer × List String)} {f : Formula}
    (h : a.Holds registry place ⟨l, .awaiting us, ls⟩) (hc : b.current = a.current)
    (he : b.enclosing = a.enclosing) (hp : b.pending = a.pending)
    (hcode : b.code.toList = a.code.toList ++ f.written registry)
    (hproblems : b.problems.toList = a.problems.toList ++
      f.noted registry place ((layerTokens ls).length + l.tokens.length + us.length)) :
    b.completeOperand.Holds registry place ⟨l, .filled (f.wrap us), ls⟩ := by
  apply completeOperand_holds
  · rw [hc]
    exact h.current
  · rw [he]
    exact h.enclosing
  · rw [hp]
    exact h.pending
  · rw [hcode, h.code, Draft.written, Focus.written, List.append_nil]
  · rw [hproblems, h.problems, Draft.noted, Focus.noted, List.append_nil]

/-! ### Emptiness -/

/-- The number of commas is that of complete arguments. -/
theorem commas_eq {l : Layer} {us : List String} {ls : List (Layer × List String)}
    {expects : Bool} {g : Grouping} (h : g.Holds registry place ls l us expects) :
    g.commas = l.operands.length := by
  unfold Grouping.commas Layer.operands
  rw [h.kind]
  cases l.kind <;> rfl

/-- A grouping looks empty if its layer has neither operators nor complete arguments and no
code stands at its end. -/
theorem isEmpty_iff {a : Assembly} {d : Draft} (h : a.Holds registry place d) :
    a.current.isEmpty a.code.size = true ↔
      d.focus.written registry = [] ∧ d.focus.unaries = [] ∧ d.current.lefts = [] ∧
        d.current.operands = [] := by
  have hs : a.code.size = (layersWritten registry d.enclosing).length +
      ((d.current.written registry).length + (d.focus.written registry).length) := by
    rw [← Array.length_toList, h.code, Draft.written, List.append_assoc, List.length_append,
      List.length_append]
  have hu := h.current.unaries.length_eq
  have hb := h.current.binaries.length_eq
  have hc := commas_eq h.current
  have hw : d.current.lefts = [] → d.current.operands = [] →
      (d.current.written registry).length = 0 := by
    intro hl ho
    simp only [Layer.written, Layer.pieces, hl, ho, leftOperands, List.reverse_nil, List.map_nil,
      List.append_nil, writtenOf, List.length_nil]
  simp only [List.length_map] at hb
  simp only [Grouping.isEmpty, Bool.and_eq_true, decide_eq_true_eq, List.isEmpty_iff, hs,
    h.current.start, hc, ← List.length_eq_zero_iff]
  simp only [← List.length_eq_zero_iff] at hw
  constructor
  · rintro ⟨⟨⟨h1, h2⟩, h3⟩, h4⟩
    exact ⟨by omega, by omega, by omega, h4⟩
  · rintro ⟨h1, h2, h3, h4⟩
    have hz := hw h3 h4
    exact ⟨⟨⟨by omega, by omega⟩, by omega⟩, h4⟩

/-- Where an operand is expected a grouping looks empty if nothing has been taken in it. -/
theorem isEmpty_awaiting {a : Assembly} {l : Layer} {us : List String}
    {ls : List (Layer × List String)} (h : a.Holds registry place ⟨l, .awaiting us, ls⟩) :
    a.current.isEmpty a.code.size = Draft.isBare ⟨l, .awaiting us, ls⟩ us := by
  rw [Bool.eq_iff_iff, isEmpty_iff h]
  simp only [Focus.written, Focus.unaries, Draft.isBare, Bool.and_eq_true, List.isEmpty_iff,
    true_and, and_assoc]

/-! ### Released operators -/

/-- The code of a draft behind an operand, as if the operand were the last of its layer. -/
theorem filled_written {l : Layer} {f : Formula} {ls : List (Layer × List String)}
    {os : List Operator} (h : Named registry (l.lefts.map Prod.snd) os) :
    Draft.written registry ⟨l, .filled f, ls⟩ ++ Assembly.callsOf os 2 =
      layersWritten registry ls ++ writtenOf registry (l.operands ++ [f.join l.lefts]) := by
  rw [Draft.written, Focus.written, Layer.written, Layer.pieces, writtenOf_append,
    writtenOf_append, writtenOf_singleton, join_written h]
  simp only [List.append_assoc]

/-- The problems of a draft behind an operand, as if the operand were the last of its layer. -/
theorem filled_noted (l : Layer) (f : Formula) (ls : List (Layer × List String)) :
    Draft.noted registry place ⟨l, .filled f, ls⟩ =
      layersNoted registry place ls ++ (l.kind.noted registry place (layerTokens ls).length ++
        notedOf registry place ((layerTokens ls).length + l.kind.opening.length)
          (l.operands ++ [f.join l.lefts])) := by
  rw [Draft.noted, Focus.noted, Layer.noted, Layer.pieces, notedOf_append, notedOf_append,
    notedOf_singleton, join_noted, Draft.position, Layer.tokens_length]
  simp only [List.append_assoc, Nat.add_assoc]

/-- Released operators complete the last operand of a layer. -/
theorem release_code {a : Assembly} {l : Layer} {f : Formula} {ls : List (Layer × List String)}
    (h : a.Holds registry place ⟨l, .filled f, ls⟩) :
    a.release.code.toList =
      layersWritten registry ls ++ writtenOf registry (l.operands ++ [f.join l.lefts]) := by
  change (a.code ++ Assembly.callsOf a.current.binaries 2).toList = _
  rw [Array.toList_appendList, h.code, filled_written h.current.binaries]

/-- The problems of a layer whose last operand is complete. -/
theorem release_problems {a : Assembly} {l : Layer} {f : Formula}
    {ls : List (Layer × List String)} (h : a.Holds registry place ⟨l, .filled f, ls⟩) :
    a.release.problems.toList =
      layersNoted registry place ls ++ (l.kind.noted registry place (layerTokens ls).length ++
        notedOf registry place ((layerTokens ls).length + l.kind.opening.length)
          (l.operands ++ [f.join l.lefts])) :=
  h.problems.trans (filled_noted l f ls)

/-- The tokens of layers and one more. -/
theorem layerTokens_length (l : Layer) (us : List String) (ls : List (Layer × List String)) :
    (layerTokens ((l, us) :: ls)).length =
      (layerTokens ls).length + l.tokens.length + us.length := by
  simp only [layerTokens, unaryTokens, List.length_append, List.length_map, List.length_reverse]

/-! ### Finished calls -/

/-- Finishing a call writes it or notes its number of arguments, and changes nothing else. -/
theorem finishCall_eq (registry : Registry) (place : Nat → Nat) (a : Assembly) (name : String)
    (start count : Nat) :
    ∃ code problems,
      a.finishCall ⟨name, place start, registry.function? name⟩ count = { a with code, problems } ∧
      code.toList = a.code.toList ++ callCode registry name count ∧
      problems.toList = a.problems.toList ++ countNoted registry place start name count := by
  unfold Assembly.finishCall callCode countNoted
  cases registry.function? name with
  | none => exact ⟨a.code, a.problems, rfl, by simp, by simp⟩
  | some function =>
    by_cases hf : function.accepts count = true
    · exact ⟨a.code.push (.call function count), a.problems, by simp [hf, Assembly.emit],
        by simp [hf], by simp [hf]⟩
    · exact ⟨a.code, a.problems.push (.arityMismatch name (place start) count function),
        by simp [hf, Assembly.report], by simp [hf], by simp [hf]⟩

/-- Leaving a group. -/
theorem leave_group {a : Assembly} {l : Layer} {focus : Focus} {ls : List (Layer × List String)}
    {f : Formula} (index : Nat) (isEmpty : Bool) (hk : a.current.kind = .group)
    (he : Enclose registry place ls a.enclosing) (hp : a.pending = none)
    (hcode : a.code.toList = layersWritten registry ls ++ f.written registry)
    (hproblems : a.problems.toList =
      layersNoted registry place ls ++ f.noted registry place (layerTokens ls).length) :
    Answers registry place (a.leave index isEmpty) (Draft.leave ⟨l, focus, ls⟩ index f) := by
  generalize henc : a.enclosing = gs at he
  cases he with
  | nil =>
    simp only [Assembly.leave, henc, Draft.leave]
    rfl
  | @cons outer us ls g gs first rest =>
    simp only [Assembly.leave, henc, hk, Draft.leave]
    refine completeOperand_holds (a := { a with current := g, enclosing := gs }) first rest hp
      hcode ?_
    rw [← layerTokens_length]
    exact hproblems

/-- Leaving a call whose arguments are the formulas `fs`. -/
theorem leave_call {a : Assembly} {l : Layer} {focus : Focus} {ls : List (Layer × List String)}
    {name : String} {commas : Nat} {fs : List Formula} (index : Nat) (isEmpty : Bool)
    (hk : a.current.kind =
      .call ⟨name, place (layerTokens ls).length, registry.function? name⟩ commas)
    (hcount : (if isEmpty then 0 else commas + 1) =
      seenOperands (writtenOf registry fs) fs.length)
    (he : Enclose registry place ls a.enclosing) (hp : a.pending = none)
    (hcode : a.code.toList = layersWritten registry ls ++ writtenOf registry fs)
    (hproblems : a.problems.toList =
      layersNoted registry place ls ++ (calleeNoted registry place (layerTokens ls).length name ++
        notedOf registry place ((layerTokens ls).length + 2) fs)) :
    Answers registry place (a.leave index isEmpty)
      (Draft.leave ⟨l, focus, ls⟩ index (.call name fs)) := by
  generalize henc : a.enclosing = gs at he
  cases he with
  | nil =>
    simp only [Assembly.leave, henc, Draft.leave]
    rfl
  | @cons outer us ls g gs first rest =>
    obtain ⟨code, problems, hf, hfc, hfp⟩ := finishCall_eq registry place
      { a with current := g, enclosing := gs } name (layerTokens ((outer, us) :: ls)).length
      (seenOperands (writtenOf registry fs) fs.length)
    simp only [Assembly.leave, henc, hk, Draft.leave, hcount, hf]
    refine completeOperand_holds (a := { a with current := g, enclosing := gs, code, problems })
      first rest hp ?_ ?_
    · rw [hfc, hcode, written, layersWritten]
      simp only [List.append_assoc]
    · rw [← layerTokens_length, hfp, hproblems, noted, layersNoted]
      simp only [List.append_assoc]

end GateFormula
