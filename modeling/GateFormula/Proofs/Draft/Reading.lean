import GateFormula.Proofs.Draft.Order

/-!
# Ordered formulas are read back

The tokens of an ordered formula, taken one by one, build that formula, whatever stands
around it. `Formula.reads` is the induction over the tree; `eq_of_tokens` draws from it
that two ordered formulas with the same tokens are equal.
-/

namespace GateFormula

open Draft Formula

/-- Taking `row` behind the waiting operators `us` builds the formula `f` in a layer. Its
operators on the right edge may still wait, but none that binds less tightly than the
outermost one. -/
def Reads (registry : Registry) (l : Layer) (us : List String) (ls : List (Layer × List String))
    (row : List Located) (f : Formula) : Prop :=
  ∃ chain g, Moves registry ⟨l, .awaiting us, ls⟩ row
      ⟨{ l with lefts := chain ++ l.lefts }, .filled g, ls⟩ ∧
    g.join chain = f.wrap us ∧
    ∀ left ∈ chain, ∃ symbol, f.topmost? = some symbol ∧
      rankOf registry left.2 ≤ rankOf registry symbol

/-- A formula without an outermost operator between operands is built at once. -/
theorem Reads.of_moves {registry : Registry} {l : Layer} {us : List String}
    {ls : List (Layer × List String)} {row : List Located} {f : Formula}
    (h : Moves registry ⟨l, .awaiting us, ls⟩ row ⟨l, .filled (f.wrap us), ls⟩) :
    Reads registry l us ls row f :=
  ⟨[], f.wrap us, h, rfl, by simp⟩

/-- Such a formula leaves no operator waiting. -/
theorem Reads.moves {registry : Registry} {l : Layer} {us : List String}
    {ls : List (Layer × List String)} {row : List Located} {f : Formula}
    (h : Reads registry l us ls row f) (ht : f.topmost? = none) :
    Moves registry ⟨l, .awaiting us, ls⟩ row ⟨l, .filled (f.wrap us), ls⟩ := by
  obtain ⟨chain, g, hm, hj, hc⟩ := h
  cases chain with
  | nil =>
    rw [← hj]
    exact hm
  | cons left chain =>
    obtain ⟨symbol, hs, _⟩ := hc left List.mem_cons_self
    rw [ht] at hs
    cases hs

/-- In a layer that has just been opened nothing else waits. -/
theorem Reads.fresh {registry : Registry} {kind : LayerKind} {start : Nat}
    {ls : List (Layer × List String)} {row : List Located} {f : Formula}
    (h : Reads registry ⟨kind, start, []⟩ [] ls row f) :
    ∃ chain g, Moves registry ⟨⟨kind, start, []⟩, .awaiting [], ls⟩ row
        ⟨⟨kind, start, chain⟩, .filled g, ls⟩ ∧ g.join chain = f := by
  obtain ⟨chain, g, hm, hj, _⟩ := h
  exact ⟨chain, g, by simpa only [List.append_nil] using hm, hj⟩

/-- An operator releases those that bind before it and no others. -/
theorem extend_of_chain {registry : Registry} {l : Layer} {symbol : String} {f : Formula}
    {chain : List (Formula × String)}
    (hc : ∀ left ∈ chain, rankOf registry left.2 ≤ rankOf registry symbol)
    (hl : ∀ left ∈ l.lefts, rankOf registry symbol < rankOf registry left.2) :
    Layer.extend registry { l with lefts := chain ++ l.lefts } symbol f =
      { l with lefts := (f.join chain, symbol) :: l.lefts } := by
  have hp : ∀ left ∈ chain, Layer.bindsBefore registry symbol left = true := by
    intro left hx
    simpa only [Layer.bindsBefore, decide_eq_true_eq] using hc left hx
  have hn : l.lefts.takeWhile (Layer.bindsBefore registry symbol) = [] ∧
      l.lefts.dropWhile (Layer.bindsBefore registry symbol) = l.lefts := by
    cases hlefts : l.lefts with
    | nil => exact ⟨rfl, rfl⟩
    | cons left lefts =>
      have hb : ¬Layer.bindsBefore registry symbol left = true := by
        have hlt := hl left (hlefts ▸ List.mem_cons_self)
        simp only [Layer.bindsBefore, decide_eq_true_eq]
        omega
      exact ⟨List.takeWhile_cons_of_neg hb, List.dropWhile_cons_of_neg hb⟩
  simp only [Layer.extend, List.takeWhile_append_of_pos hp, List.dropWhile_append_of_pos hp,
    hn.1, hn.2, List.append_nil]

/-- The operand to the left of a symbol, the symbol, and the operand to its right. -/
theorem Reads.binary {registry : Registry} {l : Layer} {ls : List (Layer × List String)}
    {symbol : String} {left right : Formula} {xs ys : List Located} {index : Nat}
    (known : isBinary registry symbol = true)
    (hl : ∀ left ∈ l.lefts, rankOf registry symbol < rankOf registry left.2)
    (hleft : left.fitsLeft registry (rankOf registry symbol) = true)
    (hright : right.fitsRight registry (rankOf registry symbol) = true)
    (hx : Reads registry l [] ls xs left)
    (hy : Reads registry { l with lefts := (left, symbol) :: l.lefts } [] ls ys right) :
    Reads registry l [] ls (xs ++ ⟨index, .operator symbol⟩ :: ys) (.binary symbol left right) := by
  obtain ⟨xchain, xlast, hxm, hxj, hxc⟩ := hx
  obtain ⟨ychain, ylast, hym, hyj, hyc⟩ := hy
  -- What the left operand leaves waiting is outermost in it, so the symbol releases all of it.
  have hxle : ∀ waiting ∈ xchain, rankOf registry waiting.2 ≤ rankOf registry symbol := by
    intro waiting hw
    obtain ⟨top, htop, hle⟩ := hxc waiting hw
    have hfit := rank_le_of_fitsLeft hleft htop
    omega
  have hstep : Move registry ⟨{ l with lefts := xchain ++ l.lefts }, .filled xlast, ls⟩
      ⟨index, .operator symbol⟩
      ⟨Layer.extend registry { l with lefts := xchain ++ l.lefts } symbol xlast, .awaiting [],
        ls⟩ := .binary known
  rw [extend_of_chain hxle hl, hxj] at hstep
  refine ⟨ychain ++ [(left, symbol)], ylast, ?_, ?_, ?_⟩
  · have hm := hxm.append (.cons hstep hym)
    simpa only [List.append_assoc, List.singleton_append] using hm
  · rw [join_append, hyj]
    rfl
  · intro waiting hw
    refine ⟨symbol, rfl, ?_⟩
    rcases List.mem_append.mp hw with hw | hw
    · obtain ⟨top, htop, hle⟩ := hyc waiting hw
      have hfit := rank_lt_of_fitsRight hright htop
      omega
    · cases List.mem_singleton.mp hw
      exact Nat.le_refl _

/-- A formula in parentheses, whose inside is read in a layer of its own. -/
theorem Reads.group {registry : Registry} {l : Layer} {us : List String}
    {ls : List (Layer × List String)} {inner : Formula} {xs : List Located} {start index : Nat}
    (h : Reads registry ⟨.group, start, []⟩ [] ((l, us) :: ls) xs inner) :
    Reads registry l us ls (⟨start, .opening⟩ :: (xs ++ [⟨index, .closing⟩])) (.group inner) := by
  obtain ⟨chain, g, hm, hj⟩ := h.fresh
  have hclose : Move registry ⟨⟨.group, start, chain⟩, .filled g, (l, us) :: ls⟩
      ⟨index, .closing⟩ ⟨l, .filled ((Formula.group (g.join chain)).wrap us), ls⟩ := .closeGroup
  rw [hj] at hclose
  exact .of_moves (.cons .openGroup (hm.append hclose.moves))

/-- A call, whose arguments, if there are any, are read in a layer of their own. -/
theorem Reads.call {registry : Registry} {l : Layer} {us : List String}
    {ls : List (Layer × List String)} {name : String} {operands : List Formula}
    {xs : List Located} {place start index : Nat}
    (h : (xs = [] ∧ operands = []) ∨ ∃ done chain last,
      Moves registry ⟨⟨.call name [], start, []⟩, .awaiting [], (l, us) :: ls⟩ xs
        ⟨⟨.call name done, start, chain⟩, .filled last, (l, us) :: ls⟩ ∧
      done ++ [last.join chain] = operands) :
    Reads registry l us ls
      (⟨place, .call name⟩ :: ⟨start, .opening⟩ :: (xs ++ [⟨index, .closing⟩]))
      (.call name operands) := by
  refine .of_moves (.cons .callee (.cons .openCall ?_))
  rcases h with ⟨rfl, rfl⟩ | ⟨done, chain, last, hm, hdone⟩
  · exact (Move.closeBare).moves
  · have hclose : Move registry ⟨⟨.call name done, start, chain⟩, .filled last, (l, us) :: ls⟩
        ⟨index, .closing⟩
        ⟨l, .filled ((Formula.call name (done ++ [last.join chain])).wrap us), ls⟩ := .closeCall
    rw [hdone] at hclose
    exact hm.append hclose.moves

mutual

/-- The tokens of an ordered formula build it, if the operators before it let them. -/
theorem Formula.reads (registry : Registry) (f : Formula) (hf : f.isOrdered registry = true)
    (l : Layer) (us : List String) (ls : List (Layer × List String)) (row : List Located)
    (hrow : row.map Located.token = f.tokens)
    (hfit : ∀ symbol, f.topmost? = some symbol →
      us = [] ∧ ∀ left ∈ l.lefts, rankOf registry symbol < rankOf registry left.2) :
    Reads registry l us ls row f := by
  match f with
  | .literal value | .reference name | .constant name =>
    obtain ⟨⟨index, token⟩, rfl, rfl⟩ := List.map_eq_singleton_iff.mp hrow
    exact .of_moves (Move.leaf rfl).moves
  | .group inner =>
    rw [Formula.tokens, List.cons_append] at hrow
    obtain ⟨⟨start, _⟩, rest, rfl, rfl, hrest⟩ := List.map_eq_cons_iff.mp hrow
    obtain ⟨xs, ys, rfl, hxs, hys⟩ := List.map_eq_append_iff.mp hrest
    obtain ⟨⟨index, _⟩, rfl, rfl⟩ := List.map_eq_singleton_iff.mp hys
    exact .group (inner.reads registry (by rwa [isOrdered] at hf) ⟨.group, start, []⟩ []
      ((l, us) :: ls) xs hxs (by simp))
  | .call name operands =>
    rw [Formula.tokens, List.cons_append, List.cons_append] at hrow
    obtain ⟨⟨_, _⟩, tail, rfl, rfl, htail⟩ := List.map_eq_cons_iff.mp hrow
    obtain ⟨⟨start, _⟩, rest, rfl, rfl, hrest⟩ := List.map_eq_cons_iff.mp htail
    obtain ⟨xs, ys, rfl, hxs, hys⟩ := List.map_eq_append_iff.mp hrest
    obtain ⟨⟨index, _⟩, rfl, rfl⟩ := List.map_eq_singleton_iff.mp hys
    by_cases hne : operands = []
    · rw [hne, tokensOf, List.map_eq_nil_iff] at hxs
      exact .call (.inl ⟨hxs, hne⟩)
    · exact .call (.inr (readsOperands registry operands (by rwa [isOrdered] at hf) hne name []
        start ((l, us) :: ls) xs hxs))
  | .unary symbol operand =>
    rw [isOrdered, Bool.and_eq_true, Bool.and_eq_true, Option.isNone_iff_eq_none] at hf
    obtain ⟨⟨known, htop⟩, ho⟩ := hf
    rw [Formula.tokens] at hrow
    obtain ⟨⟨_, _⟩, rest, rfl, rfl, hrest⟩ := List.map_eq_cons_iff.mp hrow
    have hm := (operand.reads registry ho l (symbol :: us) ls rest hrest
      (by simp [htop])).moves htop
    exact .of_moves (.cons (.unary known) hm)
  | .binary symbol left right =>
    simp only [isOrdered, Bool.and_eq_true] at hf
    obtain ⟨⟨⟨⟨known, hleft⟩, hright⟩, hlo⟩, hro⟩ := hf
    obtain ⟨rfl, hl⟩ := hfit symbol rfl
    rw [Formula.tokens] at hrow
    obtain ⟨xs, rest, rfl, hxs, hrest⟩ := List.map_eq_append_iff.mp hrow
    obtain ⟨⟨index, _⟩, ys, rfl, rfl, hys⟩ := List.map_eq_cons_iff.mp hrest
    refine .binary known hl hleft hright (left.reads registry hlo l [] ls xs hxs ?_)
      (right.reads registry hro _ [] ls ys hys ?_)
    · intro top htop
      have hfit := rank_le_of_fitsLeft hleft htop
      exact ⟨rfl, fun waiting hw => Nat.lt_of_le_of_lt hfit (hl waiting hw)⟩
    · intro top htop
      have hfit := rank_lt_of_fitsRight hright htop
      refine ⟨rfl, List.forall_mem_cons.mpr ⟨hfit, fun waiting hw => ?_⟩⟩
      exact Nat.lt_trans hfit (hl waiting hw)

/-- The tokens of arguments build them in the layer of their call, where the last one is not
yet complete. -/
theorem readsOperands (registry : Registry) (operands : List Formula)
    (ho : areOrdered registry operands = true) (hne : operands ≠ []) (name : String)
    (done : List Formula) (start : Nat) (ls : List (Layer × List String)) (row : List Located)
    (hrow : row.map Located.token = tokensOf operands) :
    ∃ complete chain g, Moves registry ⟨⟨.call name done, start, []⟩, .awaiting [], ls⟩ row
        ⟨⟨.call name complete, start, chain⟩, .filled g, ls⟩ ∧
      complete ++ [g.join chain] = done ++ operands := by
  match operands with
  | [] => exact absurd rfl hne
  | [f] =>
    rw [areOrdered, areOrdered, Bool.and_true] at ho
    rw [tokensOf, furtherTokens, List.append_nil] at hrow
    obtain ⟨chain, g, hm, hj⟩ := (f.reads registry ho ⟨.call name done, start, []⟩ [] ls row
      hrow (by simp)).fresh
    exact ⟨done, chain, g, hm, by rw [hj]⟩
  | f :: g :: rest =>
    rw [areOrdered, Bool.and_eq_true] at ho
    rw [tokensOf, furtherTokens, List.cons_append] at hrow
    obtain ⟨xs, ys, rfl, hxs, hys⟩ := List.map_eq_append_iff.mp hrow
    obtain ⟨⟨index, _⟩, zs, rfl, rfl, hzs⟩ := List.map_eq_cons_iff.mp hys
    obtain ⟨chain, last, hm, hj⟩ := (f.reads registry ho.1 ⟨.call name done, start, []⟩ [] ls
      xs hxs (by simp)).fresh
    obtain ⟨complete, ychain, ylast, hym, hyj⟩ := readsOperands registry (g :: rest) ho.2
      (by simp) name (done ++ [f]) start ls zs hzs
    have hcomma : Move registry ⟨⟨.call name done, start, chain⟩, .filled last, ls⟩
        ⟨index, .comma⟩
        ⟨⟨.call name (done ++ [last.join chain]), start, []⟩, .awaiting [], ls⟩ := .comma
    rw [hj] at hcomma
    refine ⟨complete, ychain, ylast, hm.append (.cons hcomma hym), ?_⟩
    rw [hyj, List.append_assoc, List.singleton_append]

end

/-- The tokens of an ordered formula and the end of a text are taken, and the formula is what
they leave. -/
theorem Formula.moves {registry : Registry} {f : Formula} (hf : f.isOrdered registry = true)
    {row : List Located} (hrow : row.map Located.token = f.tokens) (index : Nat) :
    ∃ d, Moves registry .initial row d ∧
      Move registry d ⟨index, .finish⟩ ⟨⟨.root, 0, []⟩, .filled f, []⟩ := by
  obtain ⟨chain, g, hm, hj⟩ := (f.reads registry hf ⟨.root, 0, []⟩ [] [] row hrow
    (by simp)).fresh
  have hlast : Move registry ⟨⟨.root, 0, chain⟩, .filled g, []⟩ ⟨index, .finish⟩
      ⟨⟨.root, 0, []⟩, .filled (g.join chain), []⟩ := .finish
  rw [hj] at hlast
  exact ⟨_, hm, hlast⟩

/-- Two ordered formulas with the same tokens are equal. -/
theorem eq_of_tokens {registry : Registry} {f g : Formula} (hf : f.isOrdered registry = true)
    (hg : g.isOrdered registry = true) (h : f.tokens = g.tokens) : f = g := by
  have hrow : (f.tokens.map (Located.mk 0)).map Located.token = f.tokens := by
    rw [List.map_map]
    exact List.map_id _
  obtain ⟨d, hfm, hfl⟩ := Formula.moves hf hrow 0
  obtain ⟨e, hgm, hgl⟩ := Formula.moves hg (hrow.trans h) 0
  have hde := hfm.unique hgm
  subst hde
  have he := (take_eq_ok_iff.mpr hfl).symm.trans (take_eq_ok_iff.mpr hgl)
  cases he
  rfl

end GateFormula
