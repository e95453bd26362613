import GateFormula.CommandLine.Execution
import GateFormula.Proofs.ForeignStores
import GateFormula.Proofs.Spells
import GateFormula.Proofs.Tiling
import Mathlib.Data.List.TakeWhile

/-!
# Settings that formulas can see

A setting gives a value to a name, and a formula reads the value of the name between sigils. The
two agree on names that stand between sigils as they are: what has been set there is what the
formula reads, unless a constant has the name, which comes before the variable. A name with a
sigil, a parenthesis or a comma in it can be set, but no formula can spell it.
-/

namespace GateFormula

namespace CommandLine

/-- A formula reads what has been set: the name between sigils compiles for the store in which it
has the value, and evaluates to it there. -/
def Shows (store : Store) (name : String) (value : Float) : Prop :=
  ∃ program, (compileIn .builtin (store.set name value) ("$" ++ name ++ "$")).1 = .ok program ∧
    program.evaluate (compileIn .builtin (store.set name value) ("$" ++ name ++ "$")).2 = .ok value

/-- The value that a formula made of the name alone has where the name has been set. -/
theorem shows_iff {store : Store} {name : String} {value : Float} :
    Shows store name value ↔
      ((compileIn .builtin (store.set name value) ("$" ++ name ++ "$")).1.toOption.bind
        fun program => (program.evaluate
          (compileIn .builtin (store.set name value) ("$" ++ name ++ "$")).2).toOption) =
        some value := by
  rw [Shows]
  cases (compileIn .builtin (store.set name value) ("$" ++ name ++ "$")).1 with
  | error => simp [Except.toOption]
  | ok program =>
    cases hvalue : program.evaluate
      (compileIn .builtin (store.set name value) ("$" ++ name ++ "$")).2 with
    | error => simp [Except.toOption, hvalue]
    | ok other => simp [Except.toOption, hvalue]

instance (store : Store) (name : String) (value : Float) : Decidable (Shows store name value) :=
  decidable_of_iff _ shows_iff.symm

/-! ### Reading a setting -/

/-- A text is split at its first equals sign. -/
theorem splitAtEquals_eq_some_iff {cs before after : List Char} :
    splitAtEquals cs = some (before, after) ↔ cs = before ++ '=' :: after ∧ '=' ∉ before := by
  constructor
  · intro h
    induction cs generalizing before with
    | nil => cases h
    | cons c cs ih =>
      rw [splitAtEquals] at h
      split at h
      next hc =>
        obtain ⟨hbefore, hafter⟩ := Prod.mk.inj (Option.some.inj h)
        rw [← hbefore, ← hafter, hc]
        exact ⟨rfl, List.not_mem_nil⟩
      next hc =>
        obtain ⟨⟨rest, other⟩, hrest, heq⟩ := Option.map_eq_some_iff.mp h
        obtain ⟨hbefore, hafter⟩ := Prod.mk.inj heq
        rw [hafter] at hrest
        obtain ⟨hsplit, hnone⟩ := ih hrest
        rw [← hbefore]
        exact ⟨congrArg (c :: ·) hsplit,
          List.not_mem_cons_of_ne_of_not_mem (fun heq => hc heq.symm) hnone⟩
  · intro h
    obtain ⟨hcs, hnone⟩ := h
    rw [hcs]
    clear hcs
    induction before with
    | nil => rfl
    | cons c before ih =>
      rw [List.mem_cons, not_or] at hnone
      obtain ⟨hc, hrest⟩ := hnone
      rw [List.cons_append, splitAtEquals, if_neg fun heq => hc heq.symm, ih hrest]
      rfl

/-- A text is a setting if it has an equals sign, before the first of which something is left as
a name, and a number behind it. -/
theorem readSetting_eq_ok_iff {text name : String} {value : Float} :
    readSetting text = .ok (name, value) ↔
      ∃ before after, text.toList = before ++ '=' :: after ∧ '=' ∉ before ∧
        name = .ofList (dropSigils (Text.trim before)) ∧ name ≠ "" ∧
          Number.read (Text.trim after) = .ok value := by
  have hempty : ∀ cs : List Char, cs.isEmpty = true ↔ String.ofList cs = "" := by
    intro cs
    rw [List.isEmpty_iff, ← String.ofList_nil, String.ofList_inj]
  constructor
  · intro h
    unfold readSetting at h
    split at h
    · cases h
    next before after hsplit =>
      simp only at h
      split at h
      · cases h
      next hname =>
        split at h
        next read hread =>
          obtain ⟨hnamed, hvalue⟩ := Prod.mk.inj (Except.ok.inj h)
          obtain ⟨htext, hfirst⟩ := splitAtEquals_eq_some_iff.mp hsplit
          refine ⟨before, after, htext, hfirst, hnamed.symm, ?_, hvalue ▸ hread⟩
          rw [← hnamed]
          exact fun hnil => hname ((hempty _).mpr hnil)
        · cases h
  · intro h
    obtain ⟨before, after, htext, hfirst, hname, hne, hread⟩ := h
    have hsplit := splitAtEquals_eq_some_iff.mpr ⟨htext, hfirst⟩
    have hnonempty : ¬ (dropSigils (Text.trim before)).isEmpty = true := by
      rw [hempty, ← hname]
      exact hne
    rw [readSetting, hsplit]
    simp only
    rw [if_neg hnonempty, hread, hname]

/-- Nothing is trimmed between characters at the two ends that are no blanks. -/
theorem trim_enclosed {c d : Char} (hc : Text.isBlank c = false) (hd : Text.isBlank d = false)
    (cs : List Char) : Text.trim (c :: cs ++ [d]) = c :: cs ++ [d] := by
  have hstart : (c :: cs ++ [d]).dropWhile Text.isBlank = c :: cs ++ [d] :=
    List.dropWhile_cons_of_neg (by simp [hc])
  have hreverse : (c :: cs ++ [d]).reverse = d :: (c :: cs).reverse := List.reverse_concat
  have hend : (d :: (c :: cs).reverse).dropWhile Text.isBlank = d :: (c :: cs).reverse :=
    List.dropWhile_cons_of_neg (by simp [hd])
  rw [Text.trim, hstart, Text.trimEnd, hreverse, hend, ← hreverse, List.reverse_reverse]

/-- Between sigils stands what is left when they are dropped. -/
theorem dropSigils_enclosed {raw : List Char} (hne : raw ≠ []) (hraw : '$' ∉ raw) :
    dropSigils ('$' :: raw ++ ['$']) = raw := by
  have hkeep : ∀ cs : List Char, cs ≠ [] → '$' ∉ cs → ∀ rest,
      (cs ++ rest).dropWhile (· = '$') = cs ++ rest := by
    intro cs hcs hmem rest
    cases cs with
    | nil => exact absurd rfl hcs
    | cons c cs =>
      have hc : c ≠ '$' := fun heq => hmem (heq ▸ List.mem_cons_self)
      exact List.dropWhile_cons_of_neg (by simpa using hc)
  have hstart : ('$' :: raw ++ ['$']).dropWhile (· = '$') = raw ++ ['$'] := by
    rw [List.cons_append, List.dropWhile_cons_of_pos (by simp)]
    exact hkeep raw hne hraw ['$']
  have hend : ('$' :: raw.reverse).dropWhile (· = '$') = raw.reverse := by
    have hlast := hkeep raw.reverse (by simpa using hne) (by simpa using hraw) []
    rw [List.append_nil] at hlast
    rw [List.dropWhile_cons_of_pos (by simp)]
    exact hlast
  rw [dropSigils, hstart, List.reverse_concat, hend, List.reverse_reverse]

/-! ### Reading a name between sigils -/

/-- A plain name between sigils that names no constant compiles to the value of the variable. -/
theorem compile_plainName {registry : Registry} {name : String} (plain : isPlainName name = true)
    (free : registry.constant? name = none) :
    (compile registry ("$" ++ name ++ "$")).result =
      .ok ⟨"$" ++ name ++ "$", [.load name]⟩ := by
  have hchars : ("$" ++ name ++ "$").toList = '$' :: name.toList ++ ['$'] := by simp
  have hspells : Spells registry true ("$" ++ name ++ "$").toList [.reference name] false [] :=
    hchars ▸ spells_reference plain true
  obtain ⟨row, hrow, htokens⟩ := tokenize_iff_spells.mpr ⟨false, hspells⟩
  have hterm : (Formula.reference name).term? registry = some (.reference name) := by
    rw [Formula.term?, free]
  have hyields : (Formula.reference name).Yields registry row := ⟨rfl, htokens⟩
  exact compile_of_formula hrow hyields hterm

/-- What has been set under a plain name that names no constant is read. -/
theorem shows_of_plain {name : String} (plain : isPlainName name = true)
    (free : Registry.builtin.constant? name = none) (store : Store) (value : Float) :
    Shows store name value := by
  refine ⟨_, compile_plainName plain free, ?_⟩
  have hheld : ((store.set name value).declareAll
      (compile .builtin ("$" ++ name ++ "$")).mentioned).get? name = some value := by
    simp
  rw [compileIn, Program.evaluate, Machine.run, Machine.step]
  simp only [hheld]
  rfl

/-- Evaluating the name between sigils on the command line prints what it was set to last. -/
theorem executeEval_of_shows {name : String} {value : Float}
    (h : ∀ store, Shows store name value) (settings : List (String × Float)) :
    executeEval ("$" ++ name ++ "$") (settings ++ [(name, value)]) =
      { output := Number.text value ++ "\n" } := by
  let store : Store :=
    settings.foldl (fun store setting => store.set setting.1 setting.2) Store.empty
  obtain ⟨program, hcompile, hvalue⟩ := h store
  have hstore : (settings ++ [(name, value)]).foldl
      (fun store setting => store.set setting.1 setting.2) Store.empty = store.set name value := by
    rw [List.foldl_append]
    rfl
  rw [executeEval]
  simp only [hstore, hcompile, hvalue]

/-- What is left of a text when it is trimmed are characters of the text. -/
theorem mem_of_mem_trim {c : Char} {cs : List Char} (h : c ∈ Text.trim cs) : c ∈ cs := by
  rw [Text.trim, Text.trimEnd, List.mem_reverse] at h
  have hreversed := (List.dropWhile_suffix Text.isBlank).subset h
  exact (List.dropWhile_suffix Text.isBlank).subset (List.mem_reverse.mp hreversed)

/-- A name under which every value that is set is read has no character that ends a name, and it
names no constant. -/
theorem plain_of_shows {name : String} (h : ∀ store value, Shows store name value) :
    (∀ c ∈ name.toList, c ∉ ['$', '(', ')', ',']) ∧ Registry.builtin.constant? name = none := by
  let source := "$" ++ name ++ "$"
  obtain ⟨program, hcompile, hzero⟩ := h .empty 0
  obtain ⟨other, hother, hone⟩ := h .empty 1
  have hresult : (compile .builtin source).result = .ok program := hcompile
  have hsame : program = other := Except.ok.inj (hresult.symm.trans hother)
  have hread : name ∈ program.references := by
    by_contra hunread
    -- Stores that differ in the name alone would give one value.
    have hagrees : Store.AgreesOn program.references
        (compileIn .builtin (Store.empty.set name 0) source).2
        (compileIn .builtin (Store.empty.set name 1) source).2 := by
      intro read hmem
      have hne : name ≠ read := fun heq => hunread (heq ▸ hmem)
      simp [compileIn, hne]
    have hvalues := evaluate_of_agrees hagrees
    rw [hzero, hsame, hone] at hvalues
    have hdistinct : (0 : Float) ≠ 1 := by decide +kernel
    exact hdistinct (Except.ok.inj hvalues)
  rw [references_of_compile hresult, mem_firstOccurrences] at hread
  obtain ⟨index, hmentions⟩ := mem_mentioned_iff.mp hread
  obtain ⟨body, rest, -, hbody, hname, -⟩ := hmentions.standsAt
  refine ⟨fun c hc => ?_, hmentions.free⟩
  rw [hname, String.toList_ofList] at hc
  exact hbody c (mem_of_mem_trim hc)

/-! ### Setting a name between sigils -/

/-- A text between sigils that is scanned to one variable has no character in between that ends a
name, and what is in between is trimmed to the variable. -/
theorem sigils_of_tokenize {registry : Registry} {text name : String} {raw : List Char}
    {row : List Located} (enclosed : text.toList = '$' :: raw ++ ['$'])
    (scanned : tokenize registry text = .ok row)
    (single : row.map Located.token = [.reference name, .finish]) : BetweenSigils raw name := by
  have hspelled : ∃ expectsAfter,
      Spells registry true text.toList [.reference name] expectsAfter [] :=
    tokenize_iff_spells.mp ⟨row, scanned, single⟩
  obtain ⟨expectsAfter, hspells⟩ := hspelled
  rw [enclosed] at hspells
  cases hspells with
  | @cons _ _ c tail spelled _ after _ _ _ front read apart further =>
    have hstart : ('$' :: raw ++ ['$']).dropWhile Text.isBlank = '$' :: (raw ++ ['$']) :=
      List.dropWhile_cons_of_neg (by decide)
    obtain ⟨hc, htail⟩ := List.cons.inj (hstart.symm.trans front)
    have hsplit := (Lexeme.lexeme_split read).1
    have hwritten : Token.Written (.reference name) spelled :=
      written_of_read (hc ▸ (by decide : Text.isBlank '$' = false)) read
    cases further with
    | nil blank =>
      cases hwritten with
      | @reference inner _ sigils =>
        rw [← hc, ← htail] at hsplit
        have hinner : inner ++ '$' :: after = raw ++ ['$'] := by simpa using hsplit
        rcases List.eq_nil_or_concat after with hnil | ⟨others, last, hlast⟩
        · rw [hnil] at hinner
          exact List.append_cancel_right hinner ▸ sigils
        · -- Otherwise the last sigil would be one of the blanks behind the name.
          rw [hlast, List.concat_eq_append, ← List.cons_append, ← List.append_assoc] at hinner
          have hsigil : last = '$' := (List.cons.inj (List.append_inj' hinner rfl).2).1
          have hblanks := List.dropWhile_eq_nil_iff.mp blank '$'
          rw [hlast, hsigil] at hblanks
          exact absurd (hblanks (by simp)) (by decide)

/-- A name between sigils that is scanned to one variable, without blanks next to the sigils, is
what a setting of the text gives a value to. -/
theorem readSetting_enclosed {registry : Registry} {text name number : String}
    {raw : List Char} {value : Float} {row : List Located}
    (enclosed : text.toList = '$' :: raw ++ ['$']) (trimmed : Text.trim raw = raw)
    (scanned : tokenize registry text = .ok row)
    (single : row.map Located.token = [.reference name, .finish])
    (bare : '=' ∉ text.toList) (spelled : Number.read (Text.trim number.toList) = .ok value) :
    readSetting (text ++ "=" ++ number) = .ok (name, value) := by
  have hsigils := sigils_of_tokenize enclosed scanned single
  have hname : name = .ofList raw := trimmed ▸ hsigils.trimmed
  have hraw : raw ≠ [] := by
    intro hnil
    rw [hnil] at hname
    exact hsigils.nonempty hname
  have hplain : '$' ∉ raw := fun hmem => hsigils.plain '$' hmem List.mem_cons_self
  have hsigil : Text.isBlank '$' = false := by decide
  refine readSetting_eq_ok_iff.mpr ⟨text.toList, number.toList, by simp, bare, ?_,
    hsigils.nonempty, spelled⟩
  rw [enclosed, trim_enclosed hsigil hsigil, dropSigils_enclosed hraw hplain, hname]

/-! ### Settings and formulas -/

/-- What is set under a name that has no blank at its ends, none of the characters that end a
name and that names no constant is what formulas read in every store, and what the command line
prints for the name between sigils. Only such names can be relied on: one under which every value
is read in every store has none of these characters and names no constant. The other way round,
the text of a variable in a formula, without blanks next to its sigils, is a setting of that
variable when an equals sign and a number are put behind it. -/
theorem readSetting_visible :
    (∀ (text name : String) (value : Float), readSetting text = .ok (name, value) →
      Text.trim name.toList = name.toList → (∀ c ∈ name.toList, c ∉ ['$', '(', ')', ',']) →
      Registry.builtin.constant? name = none →
        (∀ store, Shows store name value) ∧
        ∀ settings, executeEval ("$" ++ name ++ "$") (settings ++ [(name, value)]) =
          { output := Number.text value ++ "\n" }) ∧
    (∀ name : String, (∀ store value, Shows store name value) →
      (∀ c ∈ name.toList, c ∉ ['$', '(', ')', ',']) ∧ Registry.builtin.constant? name = none) ∧
    ∀ (registry : Registry) (text name number : String) (raw : List Char) (value : Float)
      (row : List Located), text.toList = '$' :: raw ++ ['$'] → Text.trim raw = raw →
      tokenize registry text = .ok row → row.map Located.token = [.reference name, .finish] →
      '=' ∉ text.toList → Number.read (Text.trim number.toList) = .ok value →
        readSetting (text ++ "=" ++ number) = .ok (name, value) := by
  refine ⟨?_, fun _ => plain_of_shows, fun _ _ _ _ _ _ _ => readSetting_enclosed⟩
  intro text name value accepted trimmed plain free
  obtain ⟨-, -, -, -, -, nonempty, -⟩ := readSetting_eq_ok_iff.mp accepted
  have hplain : isPlainName name = true := by
    simp only [isPlainName, Bool.and_eq_true, decide_eq_true_eq, List.all_eq_true,
      Bool.not_eq_true', List.contains_eq_mem, decide_eq_false_iff_not]
    exact ⟨⟨nonempty, trimmed⟩, plain⟩
  have hshows : ∀ store, Shows store name value := fun store =>
    shows_of_plain hplain free store value
  exact ⟨hshows, executeEval_of_shows hshows⟩

/-- A name that is set to a negative number, with blanks around it, and the same name between
sigils. -/
theorem readSetting_visible_time :
    readSetting " time = -1.5" = .ok ("time", -1.5) ∧
      (∀ store, Shows store "time" (-1.5)) ∧
      executeEval "$time$" [("dashes", 2), ("time", -1.5)] = { output := "-1.5\n" } ∧
      Registry.builtin.constant? "time" = none ∧
      readSetting "$time$= +3" = .ok ("time", 3) := by
  have hread : readSetting " time = -1.5" = .ok ("time", -1.5) := by decide +kernel
  have hplain : ∀ c ∈ "time".toList, c ∉ ['$', '(', ')', ','] := by simp
  have hvisible := readSetting_visible.1 _ _ _ hread (by decide) hplain (by decide)
  have hprinted := hvisible.2 [("dashes", 2)]
  have htext : Number.text (-1.5) ++ "\n" = "-1.5\n" := by decide +kernel
  rw [htext] at hprinted
  have hconverse := readSetting_visible.2.1 "time"
    (fun store value => shows_of_plain (by decide) (by decide) store value)
  have hset := readSetting_visible.2.2 .builtin "$time$" "time" " +3" "time".toList 3
    [⟨0, .reference "time"⟩, ⟨6, .finish⟩] rfl (by decide) (by decide +kernel) rfl (by decide)
    (by decide +kernel)
  exact ⟨hread, hvisible.1, hprinted, hconverse.2, hset⟩

/-- The value that is set is not what formulas read where the name is that of a constant, where
a parenthesis in it keeps it from being closed, and where blanks stand between it and the sigils,
which formulas leave out of the name and settings do not. -/
theorem readSetting_not_visible :
    (readSetting "pi=2" = .ok ("pi", 2) ∧ ¬ Shows .empty "pi" 2) ∧
    (readSetting "a(b=2" = .ok ("a(b", 2) ∧ ¬ Shows .empty "a(b" 2) ∧
    (readSetting "$ x $=2" = .ok (" x ", 2) ∧ ¬ Shows .empty " x " 2 ∧
      tokenize .builtin "$ x $" = .ok [⟨0, .reference "x"⟩, ⟨5, .finish⟩]) := by
  decide +kernel

end CommandLine

end GateFormula
