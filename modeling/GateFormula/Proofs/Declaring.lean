import GateFormula.Proofs.Stores
import GateFormula.Proofs.Tracing
import Mathlib.Data.List.Induction

/-!
# Variables that a text declares

Compiling a text adds to a store the variables that the text mentions and changes nothing
else. `Mentions` says it of the characters of the text: a name between sigils that no
parenthesis follows and that is no constant, whose token is taken. The code of a program
loads the same variables in the same order, so that those which it reads are listed by their
first places in the text.
-/

namespace GateFormula

/-- A name stands between sigils at an index of a text, and no parenthesis opens behind it. -/
def StandsAt (source : String) (index : Nat) (name : String) : Prop :=
  ∃ body rest, source.toList.drop index = '$' :: body ++ '$' :: rest ∧
    (∀ c ∈ body, c ∉ ['$', '(', ')', ',']) ∧ name = String.ofList (Text.trim body) ∧
      (rest.dropWhile Text.isBlank).head? ≠ some '('

/-- A text mentions a variable at an index: the token there has been taken, and it is the name
of the variable between sigils, which is not the name of a constant. -/
structure Mentions (registry : Registry) (source : String) (index : Nat) (name : String) :
    Prop where
  /-- The token at the index has been taken. -/
  taken : index ∈ (traceOf registry source).taken.map Located.index
  /-- It is the name between sigils. -/
  standsAt : StandsAt source index name
  /-- There is no constant of that name. -/
  free : registry.constant? name = none

variable {registry : Registry}

/-! ### Names between sigils -/

/-- The name between sigils ends at the first sigil, and no parenthesis or comma comes before. -/
theorem symbolBody_eq_some_iff {cs body rest : List Char} :
    Lexeme.symbolBody cs = some (body, rest) ↔
      cs = body ++ '$' :: rest ∧ ∀ c ∈ body, c ∉ ['$', '(', ')', ','] := by
  constructor
  · intro h
    refine ⟨(Lexeme.symbolBody_append h).symm, ?_⟩
    induction cs generalizing body with
    | nil => cases h
    | cons c cs ih =>
      rw [Lexeme.symbolBody] at h
      split at h
      · cases h
        simp
      next hsigil =>
        split at h
        · cases h
        next hother =>
          obtain ⟨⟨tail, after⟩, htail, heq⟩ := Option.map_eq_some_iff.mp h
          cases heq
          refine List.forall_mem_cons.mpr ⟨?_, ih htail⟩
          simpa [hsigil] using hother
  · rintro ⟨rfl, hbody⟩
    induction body with
    | nil => rfl
    | cons c body ih =>
      obtain ⟨hc, hrest⟩ := List.forall_mem_cons.mp hbody
      simp only [List.mem_cons, List.not_mem_nil, or_false, not_or] at hc
      rw [List.cons_append, Lexeme.symbolBody, if_neg hc.1, if_neg (by simp [hc]), ih hrest]
      rfl

/-- A token that does not start with a sigil is no name between sigils. -/
theorem read_ne_reference {expectOperand : Bool} {c : Char} {cs : List Char} {lexeme : Lexeme}
    (h : Lexeme.read registry expectOperand c cs = .ok lexeme) (hc : c ≠ '$') (name : String) :
    lexeme.token ≠ .reference name := by
  rcases Lexeme.read_cases registry expectOperand c cs with
    ⟨token, htoken, hr⟩ | ⟨hsigil, _⟩ | ⟨_, hr⟩ | hr
  · cases hr.symm.trans h
    rcases htoken with rfl | rfl | rfl <;> simp
  · exact absurd hsigil hc
  · obtain ⟨symbol, hsymbol⟩ := Lexeme.ofOperator_token (hr.symm.trans h)
    simp [hsymbol]
  · cases hr.symm.trans h
    rcases Lexeme.ofWord_cases registry c cs with ⟨_, hw⟩ | ⟨_, hw⟩ | ⟨_, hw⟩ <;> simp [hw]

/-- A token that starts with a sigil runs to the next one. -/
theorem read_sigil {expectOperand : Bool} {cs : List Char} {lexeme : Lexeme}
    (h : Lexeme.read registry expectOperand '$' cs = .ok lexeme) :
    ∃ body rest, Lexeme.symbolBody cs = some (body, rest) ∧
      lexeme.token = if Lexeme.opensCall rest then .call (.ofList (Text.trim body))
        else .reference (.ofList (Text.trim body)) := by
  change Lexeme.ofSymbol cs = .ok lexeme at h
  unfold Lexeme.ofSymbol at h
  split at h
  · cases h
  next body rest hbody =>
    simp only at h
    split at h
    · cases h
    · cases h
      exact ⟨body, rest, hbody, rfl⟩

/-- The token in front of a text is the name of a variable if that name stands there between
sigils and no parenthesis opens behind it. -/
theorem read_reference_iff {expectOperand : Bool} {c : Char} {cs : List Char} {lexeme : Lexeme}
    {name : String} (h : Lexeme.read registry expectOperand c cs = .ok lexeme) :
    lexeme.token = .reference name ↔
      ∃ body rest, c :: cs = '$' :: body ++ '$' :: rest ∧
        (∀ c ∈ body, c ∉ ['$', '(', ')', ',']) ∧ name = String.ofList (Text.trim body) ∧
          (rest.dropWhile Text.isBlank).head? ≠ some '(' := by
  by_cases hc : c = '$'
  · subst hc
    obtain ⟨body, rest, hbody, htoken⟩ := read_sigil h
    rw [htoken]
    constructor
    · intro hname
      split at hname <;> cases hname
      next hopens =>
        obtain ⟨hcs, hplain⟩ := symbolBody_eq_some_iff.mp hbody
        exact ⟨body, rest, congrArg ('$' :: ·) hcs, hplain, rfl,
          of_decide_eq_false (eq_false_of_ne_true hopens)⟩
    · rintro ⟨other, after, hcs, hplain, rfl, hopens⟩
      have hother := symbolBody_eq_some_iff.mpr ⟨(List.cons.inj hcs).2, hplain⟩
      rw [hbody] at hother
      cases hother
      rw [if_neg (by simpa [Lexeme.opensCall] using hopens)]
  · constructor
    · intro hname
      exact absurd hname (read_ne_reference h hc name)
    · rintro ⟨body, rest, hcs, -⟩
      exact absurd (List.cons.inj hcs).1 hc

/-! ### Places in a text -/

/-- A cursor stands where it says in a text. -/
def Cursor.Within (source : String) (cursor : Cursor) : Prop :=
  cursor.rest = source.toList.drop cursor.position

/-- The start of a text is its first place. -/
theorem within_start (source : String) : (Cursor.start source).Within source := rfl

/-- Skipping blanks keeps to the places. -/
theorem Cursor.Within.skipBlanks {source : String} {cursor : Cursor} (h : cursor.Within source) :
    cursor.skipBlanks.Within source := by
  change cursor.rest.dropWhile Text.isBlank =
    source.toList.drop (cursor.position + (cursor.rest.takeWhile Text.isBlank).length)
  have hskip : (cursor.rest.takeWhile Text.isBlank ++ cursor.rest.dropWhile Text.isBlank).drop
      (cursor.rest.takeWhile Text.isBlank).length = cursor.rest.dropWhile Text.isBlank :=
    List.drop_left' rfl
  rw [List.takeWhile_append_dropWhile] at hskip
  rw [← hskip, ← List.drop_drop]
  exact congrArg (List.drop _) h

/-- A token that is read is the name of a variable if that name stands at its place, and the
next step begins at its place. -/
theorem next_within {source : String} {expectOperand : Bool} {cursor after : Cursor}
    {located : Located} (hw : cursor.Within source)
    (h : cursor.next registry expectOperand = (.ok located, after)) :
    after.Within source ∧
      ∀ name, located.token = .reference name ↔ StandsAt source located.index name := by
  have hskip : cursor.skipBlanks.rest = source.toList.drop cursor.skipBlanks.position :=
    hw.skipBlanks
  cases Cursor.steps_iff.mpr h with
  | finish blank =>
    refine ⟨hskip, fun name => ⟨fun htoken => ?_, ?_⟩⟩
    · cases htoken
    · rintro ⟨body, rest, hplace, -⟩
      rw [← hskip, blank] at hplace
      cases hplace
  | @token c cs lexeme front read apart =>
    rw [front] at hskip
    constructor
    · change lexeme.rest = source.toList.drop (_ + lexeme.text.length)
      rw [← List.drop_drop, ← hskip, ← (Lexeme.lexeme_split read).1]
      exact (List.drop_left' rfl).symm
    · intro name
      unfold StandsAt
      rw [← hskip]
      exact read_reference_iff read

/-- The tokens of a scan that are names of variables are those that stand between sigils. -/
theorem scan_reference_iff {source : String} {expectOperand : Bool} {cursor : Cursor}
    (hw : cursor.Within source) :
    ∀ located ∈ (scan registry expectOperand cursor).all, ∀ name,
      located.token = .reference name ↔ StandsAt source located.index name := by
  induction expectOperand, cursor using scan_induction registry with
  | error expectOperand cursor e after hs => simp [scan_error hs, Scan.all]
  | finish expectOperand cursor located after hs ht =>
    rw [scan_finish hs ht]
    obtain ⟨index, token⟩ := located
    cases ht
    exact List.forall_mem_singleton.mpr (next_within hw hs).2
  | token expectOperand cursor located after hs ht ih =>
    obtain ⟨hafter, hlocated⟩ := next_within hw hs
    rw [scan_token hs ht, Scan.all_cons]
    exact List.forall_mem_cons.mpr ⟨hlocated, ih hafter⟩

/-! ### Variables that are read -/

/-- The variables that a row of tokens reads come in its order, and they are loaded in it. -/
theorem reads_of_takeAll {a b : Assembly} {row : List Located}
    (h : takeAll (Assembly.take registry) a row = (b, none)) :
    b.mentioned.toList =
        a.mentioned.toList ++ row.filterMap (fun located => located.token.reads? registry) ∧
      b.loaded = a.loaded ++ row.filterMap (fun located => located.token.reads? registry) := by
  refine takeAll_induction (motive := fun row b =>
    b.mentioned.toList =
        a.mentioned.toList ++ row.filterMap (fun located => located.token.reads? registry) ∧
      b.loaded = a.loaded ++ row.filterMap (fun located => located.token.reads? registry)) ?_ ?_ h
  · simp
  · rintro row c located d ⟨hmentioned, hloaded⟩ hd
    have htakes := takes_of_take hd
    rw [htakes.mentioned, htakes.loaded, hmentioned, hloaded, List.filterMap_append]
    cases hread : located.token.reads? registry <;> simp [hread]

/-- The tokens taken are those of the scan, in order. -/
theorem taken_scanned (registry : Registry) (source : String) :
    (traceOf registry source).taken <+: (scanOf registry source).all := by
  have hends : (traceOf registry source).Ends registry (scanOf registry source) :=
    trace_ends registry (.start source) .initial
  cases hends with
  | finished _ _ taken => exact taken ▸ List.prefix_rfl
  | refused _ _ _ further _ => exact (List.prefix_append _ _).trans further
  | unscanned _ _ _ taken => exact taken ▸ List.prefix_rfl

/-- The variables that tokens read, each with the index of its token. -/
def reads (registry : Registry) (row : List Located) : List (Nat × String) :=
  row.filterMap fun located =>
    (located.token.reads? registry).map fun name => (located.index, name)

/-- Without the indices they are the variables. -/
theorem reads_map_snd (registry : Registry) (row : List Located) :
    (reads registry row).map Prod.snd =
      row.filterMap fun located => located.token.reads? registry := by
  rw [reads, List.map_filterMap]
  refine List.filterMap_congr fun located _ => ?_
  cases located.token.reads? registry <;> rfl

/-- A token that reads a variable is its name between sigils, and there is no constant of that
name. -/
theorem reads?_eq_some_iff {token : Token} {name : String} :
    token.reads? registry = some name ↔
      token = .reference name ∧ registry.constant? name = none := by
  cases token with
  | reference other =>
    simp only [Token.reads?]
    cases hc : registry.constant? other with
    | none =>
      simp only [Option.isNone_none, if_true, Option.some.injEq, Token.reference.injEq]
      exact ⟨fun h => ⟨h, h ▸ hc⟩, And.left⟩
    | some value =>
      simp only [Option.isNone_some, Bool.false_eq_true, if_false, Token.reference.injEq]
      constructor
      · intro h
        cases h
      · rintro ⟨rfl, hnone⟩
        rw [hc] at hnone
        cases hnone
  | literal | call | constant | operator | opening | closing | comma | finish =>
    simp [Token.reads?]

/-- The variables that the tokens taken read are those that the text mentions. -/
theorem mem_reads_iff {source : String} {index : Nat} {name : String} :
    (index, name) ∈ reads registry (traceOf registry source).taken ↔
      Mentions registry source index name := by
  have hplace : ∀ located ∈ (traceOf registry source).taken,
      located.token = .reference name ↔ StandsAt source located.index name := fun located hl =>
    scan_reference_iff (within_start source) located
      ((taken_scanned registry source).subset hl) name
  rw [reads, List.mem_filterMap]
  constructor
  · rintro ⟨located, hl, hread⟩
    obtain ⟨other, hother, heq⟩ := Option.map_eq_some_iff.mp hread
    cases heq
    obtain ⟨htoken, hfree⟩ := reads?_eq_some_iff.mp hother
    exact ⟨List.mem_map_of_mem hl, (hplace located hl).mp htoken, hfree⟩
  · rintro ⟨htaken, hstands, hfree⟩
    obtain ⟨located, hl, rfl⟩ := List.mem_map.mp htaken
    have htoken := (hplace located hl).mpr hstands
    exact ⟨located, hl, Option.map_eq_some_iff.mpr
      ⟨name, reads?_eq_some_iff.mpr ⟨htoken, hfree⟩, rfl⟩⟩

/-- The end of a text reads no variable. -/
theorem reads_all (registry : Registry) (s : Scan) :
    reads registry s.all = reads registry s.tokens := by
  unfold Scan.all
  cases s.ending with
  | error e => rfl
  | ok n => rw [reads, List.filterMap_append]; exact List.append_nil _

/-- Variables are read at places one behind the other. -/
theorem reads_pairwise (registry : Registry) (source : String) :
    (reads registry (traceOf registry source).taken).Pairwise (·.1 < ·.1) := by
  have hinitial : reads registry (traceOf registry source).taken <+:
      reads registry (scanOf registry source).tokens :=
    reads_all registry (scanOf registry source) ▸ (taken_scanned registry source).filterMap _
  refine List.Pairwise.sublist hinitial.sublist ?_
  refine (scanOf_pairwise registry source).filterMap _ fun x y hlt p hp q hq => ?_
  obtain ⟨_, -, rfl⟩ := Option.map_eq_some_iff.mp hp
  obtain ⟨_, -, rfl⟩ := Option.map_eq_some_iff.mp hq
  exact hlt

/-! ### First occurrences -/

/-- One more name is listed if it has not occurred before. -/
theorem firstOccurrences_concat (names : List String) (name : String) :
    firstOccurrences (names ++ [name]) =
      if (firstOccurrences names).contains name then firstOccurrences names
      else firstOccurrences names ++ [name] := by
  rw [firstOccurrences, List.foldl_append]
  rfl

/-- The names that occur are listed. -/
theorem mem_firstOccurrences {names : List String} {name : String} :
    name ∈ firstOccurrences names ↔ name ∈ names := by
  induction names using List.reverseRecOn with
  | nil => rfl
  | append_singleton names last ih =>
    rw [firstOccurrences_concat, List.mem_append, List.mem_singleton]
    split
    next hlast =>
      rw [ih]
      constructor
      · exact .inl
      · rintro (h | rfl)
        · exact h
        · exact ih.mp (List.contains_iff_mem.mp hlast)
    · rw [List.mem_append, List.mem_singleton, ih]

/-- Every name is listed once. -/
theorem firstOccurrences_nodup (names : List String) : (firstOccurrences names).Nodup := by
  induction names using List.reverseRecOn with
  | nil => exact List.nodup_nil
  | append_singleton names last ih =>
    rw [firstOccurrences_concat]
    split
    · exact ih
    next hlast =>
      refine List.nodup_append.mpr ⟨ih, List.pairwise_singleton _ last, fun x hx y hy => ?_⟩
      rw [List.mem_singleton.mp hy]
      rintro rfl
      exact hlast (List.contains_iff_mem.mpr hx)

/-- Names with places one behind the other are listed by their first places. -/
theorem firstOccurrences_pairwise {places : List (Nat × String)}
    (h : places.Pairwise (·.1 < ·.1)) :
    (firstOccurrences (places.map Prod.snd)).Pairwise fun x y =>
      ∃ i, (i, x) ∈ places ∧ ∀ j, (j, y) ∈ places → i < j := by
  induction places using List.reverseRecOn with
  | nil => exact .nil
  | append_singleton places last ih =>
    obtain ⟨index, name⟩ := last
    obtain ⟨hbefore, -, hlast⟩ := List.pairwise_append.mp h
    have hless : ∀ i x, (i, x) ∈ places → i < index := fun i x hx =>
      hlast (i, x) hx (index, name) (List.mem_singleton_self _)
    -- A first place stays the first one, since the new place lies behind it.
    have hkept : (firstOccurrences (places.map Prod.snd)).Pairwise fun x y =>
        ∃ i, (i, x) ∈ places ++ [(index, name)] ∧
          ∀ j, (j, y) ∈ places ++ [(index, name)] → i < j := by
      refine (ih hbefore).imp ?_
      rintro x y ⟨i, hi, hfirst⟩
      refine ⟨i, List.mem_append_left _ hi, fun j hj => ?_⟩
      rcases List.mem_append.mp hj with hj | hj
      · exact hfirst j hj
      · cases List.mem_singleton.mp hj
        exact hless i x hi
    rw [List.map_append, List.map_cons, List.map_nil, firstOccurrences_concat]
    split
    · exact hkept
    next hnew =>
      refine List.pairwise_append.mpr ⟨hkept, List.pairwise_singleton _ _, fun x hx y hy => ?_⟩
      rw [List.mem_singleton.mp hy]
      obtain ⟨⟨i, _⟩, hi, rfl⟩ := List.mem_map.mp (mem_firstOccurrences.mp hx)
      refine ⟨i, List.mem_append_left _ hi, fun j hj => ?_⟩
      rcases List.mem_append.mp hj with hj | hj
      · have hseen := mem_firstOccurrences.mpr (List.mem_map_of_mem (f := Prod.snd) hj)
        exact absurd (List.contains_iff_mem.mpr hseen) hnew
      · cases List.mem_singleton.mp hj
        exact hless i _ hi

/-! ### Whole texts -/

/-- The variables that compiling a text declares are those that the tokens taken read. -/
theorem compile_mentioned (registry : Registry) (source : String) :
    (compile registry source).mentioned =
      (reads registry (traceOf registry source).taken).map Prod.snd := by
  rw [compile_eq_trace, reads_map_snd]
  exact (reads_of_takeAll (takeAll_taken _)).1

/-- The code of a program loads the variables that compiling its text declares, in the same
order. -/
theorem code_of_compile {source : String} {program : Program}
    (h : (compile registry source).result = .ok program) :
    program.code.filterMap Instruction.variable? = (compile registry source).mentioned := by
  rw [compile_mentioned, reads_map_snd]
  rw [compile_eq_trace] at h
  split at h
  · cases h
  · split at h <;> cases h
    exact (reads_of_takeAll (takeAll_taken _)).2

/-- The variables that a program reads are those that compiling its text declares. -/
theorem references_of_compile {source : String} {program : Program}
    (h : (compile registry source).result = .ok program) :
    program.references = firstOccurrences (compile registry source).mentioned := by
  rw [Program.references, code_of_compile h]

/-- A text mentions the variables that compiling it declares. -/
theorem mem_mentioned_iff {source name : String} :
    name ∈ (compile registry source).mentioned ↔ ∃ index, Mentions registry source index name := by
  rw [compile_mentioned, List.mem_map]
  constructor
  · rintro ⟨⟨index, _⟩, hread, rfl⟩
    exact ⟨index, mem_reads_iff.mp hread⟩
  · rintro ⟨index, hmentions⟩
    exact ⟨(index, name), mem_reads_iff.mpr hmentions, rfl⟩

/-- Compiling a text for a store, whether it succeeds or not, leaves every value and every rule
in the store as it was and adds the variables that the text mentions before its end or its
syntax error, with the value zero, if they were not there. A program reads just these
variables, and lists each once in the order of their first places in the text. -/
theorem compileIn_declares (registry : Registry) (store : Store) (source : String) :
    (∀ name value, store.get? name = some value →
      (compileIn registry store source).2.get? name = some value) ∧
    (compileIn registry store source).2.reducers = store.reducers ∧
    (∀ name, store.get? name = none →
      ((∃ index, Mentions registry source index name) →
        (compileIn registry store source).2.get? name = some 0) ∧
      ((¬∃ index, Mentions registry source index name) →
        (compileIn registry store source).2.get? name = none)) ∧
    ∀ program, (compileIn registry store source).1 = .ok program →
      program.references.Nodup ∧
      (∀ name, name ∈ program.references ↔ ∃ index, Mentions registry source index name) ∧
      program.references.Pairwise fun x y =>
        ∃ i, Mentions registry source i x ∧ ∀ j, Mentions registry source j y → i < j := by
  have hget : ∀ name, (compileIn registry store source).2.get? name =
      (store.get? name).or
        (if name ∈ (compile registry source).mentioned then some 0 else none) :=
    store.get?_declareAll (compile registry source).mentioned
  refine ⟨fun name value hvalue => ?_, store.reducers_declareAll _, fun name hnone => ⟨?_, ?_⟩,
    fun program hprogram => ?_⟩
  · rw [hget, hvalue, Option.some_or]
  · intro hmentions
    rw [hget, hnone, Option.none_or, if_pos (mem_mentioned_iff.mpr hmentions)]
  · intro hmentions
    rw [hget, hnone, Option.none_or, if_neg fun h => hmentions (mem_mentioned_iff.mp h)]
  · rw [references_of_compile hprogram]
    refine ⟨firstOccurrences_nodup _, fun name => ?_, ?_⟩
    · rw [mem_firstOccurrences, mem_mentioned_iff]
    · rw [compile_mentioned]
      refine (firstOccurrences_pairwise (reads_pairwise registry source)).imp ?_
      rintro x y ⟨i, hi, hfirst⟩
      exact ⟨i, mem_reads_iff.mp hi, fun j hj => hfirst j (mem_reads_iff.mpr hj)⟩

end GateFormula
