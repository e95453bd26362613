import GateFormula.Yaml.Property

/-!
# The tokens of a YAML text

Indentation is turned into tokens while the text is read. A token that may be a key is
remembered until a colon shows that it is one; then the mark of the key is put in
front of it after the fact. Such a key must end on the line on which it starts, and
within 1024 characters. Where a line of a block mapping starts, what stands there has
to be a key.
-/

namespace GateFormula.Yaml

/-- A token that may turn out to be a key. -/
structure PossibleKey where
  /-- Its index among the tokens. -/
  index : Nat
  /-- Its place. -/
  place : Place
  /-- Whether it has to be a key. -/
  required : Bool

/-- State between two tokens. -/
structure TokenStream where
  /-- The characters that remain. -/
  rest : List Char
  /-- Place of the first of them. -/
  place : Place := {}
  /-- Tokens so far. -/
  tokens : Array Token := #[]
  /-- Indentation of the innermost block collection, or `-1`. -/
  indent : Int := -1
  /-- Indentations around it, innermost first. -/
  outerIndents : List Int := []
  /-- A token of the innermost flow collection, or of the block, that may be a key. -/
  possible : Option PossibleKey := none
  /-- The same for the collections around it, innermost first. -/
  outerPossible : List (Option PossibleKey) := []
  /-- Whether the next token may be a key. -/
  keyAllowed : Bool := true

namespace TokenStream

/-- Whether the place is inside a flow collection. -/
def inFlow (s : TokenStream) : Bool :=
  !s.outerPossible.isEmpty

/-- Add a token. -/
def push (s : TokenStream) (token : Token) : TokenStream :=
  { s with tokens := s.tokens.push token }

/-- Put a token in front of one that is there. -/
def insertAt (s : TokenStream) (index : Nat) (token : Token) : TokenStream :=
  { s with tokens := s.tokens.insertIdxIfInBounds index token }

/-- Go on behind the characters in front of `rest`. -/
def advanceTo (s : TokenStream) (rest : List Char) : TokenStream :=
  { s with rest, place := s.place.after (s.rest.take (s.rest.length - rest.length)) }

/-- Go on behind `count` characters. -/
def skip (s : TokenStream) (count : Nat) : TokenStream :=
  s.advanceTo (s.rest.drop count)

/-- Drop blanks, comments and line breaks. In a block a line break allows a key, and a tab
may not stand where a key is allowed. -/
def dropGap (flow : Bool) : (keyAllowed inComment : Bool) → List Char → Bool × List Char
  | keyAllowed, _, [] => (keyAllowed, [])
  | keyAllowed, inComment, c :: cs =>
    if isBreak c then dropGap flow (keyAllowed || !flow) false cs
    else if inComment then dropGap flow keyAllowed true cs
    else if c = ' ' || (c = '\t' && (flow || !keyAllowed)) then dropGap flow keyAllowed false cs
    else if c = '#' then dropGap flow keyAllowed true cs
    else (keyAllowed, c :: cs)

/-- Go to the next token. -/
def toNext (s : TokenStream) : TokenStream :=
  let (keyAllowed, rest) := dropGap s.inFlow s.keyAllowed false s.rest
  { s.advanceTo rest with keyAllowed }

/-- Whether a token can no longer be a key at a place. -/
def PossibleKey.isStale (key : PossibleKey) (place : Place) : Bool :=
  key.place.line < place.line || key.place.index + 1024 < place.index

/-- Give up a possible key. -/
def giveUp : Option PossibleKey → Except Error Unit
  | some key => if key.required then .error .unfinishedKey else .ok ()
  | none => .ok ()

/-- Give up a possible key if it can no longer be one. -/
def refresh (place : Place) (possible : Option PossibleKey) :
    Except Error (Option PossibleKey) :=
  if possible.any fun key => PossibleKey.isStale key place then do
    giveUp possible
    return none
  else .ok possible

/-- Give up all possible keys that can no longer be keys. -/
def dropStale (s : TokenStream) : Except Error TokenStream := do
  let possible ← refresh s.place s.possible
  let outerPossible ← s.outerPossible.mapM (refresh s.place)
  return { s with possible, outerPossible }

/-- Close the block collections that are indented by more than `column`. -/
def closeBlocks (column : Int) (tokens : Array Token) : (indent : Int) → List Int →
    Array Token × Int × List Int
  | indent, [] => (tokens, indent, [])
  | indent, outer :: more =>
    if column < indent then closeBlocks column (tokens.push .blockEnd) outer more
    else (tokens, indent, outer :: more)

/-- Close the block collections that end in front of a column. -/
def unindent (s : TokenStream) (column : Int) : TokenStream :=
  if s.inFlow then s
  else
    let (tokens, indent, outerIndents) := closeBlocks column s.tokens s.indent s.outerIndents
    { s with tokens, indent, outerIndents }

/-- Open a block collection at a column unless it is open, in front of the token of an
index or behind all tokens. -/
def indentTo (s : TokenStream) (column : Nat) (index : Option Nat) (start : Token) :
    TokenStream :=
  if s.inFlow || column ≤ s.indent then s
  else
    let s := { s with indent := column, outerIndents := s.indent :: s.outerIndents }
    match index with
    | some index => s.insertAt index start
    | none => s.push start

/-- Remember that the next token may be a key. -/
def rememberKey (s : TokenStream) : Except Error TokenStream :=
  if s.keyAllowed then do
    giveUp s.possible
    let required := !s.inFlow && s.indent = s.place.column
    return { s with possible := some ⟨s.tokens.size, s.place, required⟩ }
  else .ok s

/-- Forget that a token may be a key. -/
def forgetKey (s : TokenStream) : Except Error TokenStream := do
  giveUp s.possible
  return { s with possible := none }

/-- Take the end of the text, which ends a line in any case. -/
def takeEnd (s : TokenStream) : Except Error TokenStream := do
  let s ← (s.unindent (-1)).forgetKey
  return { s with keyAllowed := false }.push .streamEnd

/-- Take a directive. -/
def takeDirective (s : TokenStream) : Except Error TokenStream := do
  let s ← (s.unindent (-1)).forgetKey
  let (token, rest) ← readDirective (s.rest.drop 1)
  return { s.advanceTo rest with keyAllowed := false }.push token

/-- Take the line that starts or ends a document. -/
def takeMarker (s : TokenStream) (token : Token) : Except Error TokenStream := do
  let s ← (s.unindent (-1)).forgetKey
  return { s.skip 3 with keyAllowed := false }.push token

/-- Take the start of a flow collection. -/
def takeFlowStart (s : TokenStream) (token : Token) : Except Error TokenStream := do
  let s ← s.rememberKey
  let s := { s with possible := none, outerPossible := s.possible :: s.outerPossible }
  return { s.skip 1 with keyAllowed := true }.push token

/-- Take the end of a flow collection. -/
def takeFlowEnd (s : TokenStream) (token : Token) : Except Error TokenStream := do
  let s ← s.forgetKey
  let s := match s.outerPossible with
    | [] => s
    | possible :: outerPossible => { s with possible, outerPossible }
  return { s.skip 1 with keyAllowed := false }.push token

/-- Take a comma. -/
def takeFlowEntry (s : TokenStream) : Except Error TokenStream := do
  let s ← s.forgetKey
  return { s.skip 1 with keyAllowed := true }.push .flowEntry

/-- Open a block collection where one may start. -/
def openBlock (s : TokenStream) (start : Token) : Except Error TokenStream :=
  if s.inFlow then .ok s
  else if s.keyAllowed then .ok (s.indentTo s.place.column none start)
  else .error .misplacedEntry

/-- Take the dash of an entry. -/
def takeBlockEntry (s : TokenStream) : Except Error TokenStream := do
  let s ← s.openBlock .blockSequenceStart
  let s ← s.forgetKey
  return { s.skip 1 with keyAllowed := true }.push .blockEntry

/-- Take the written mark of a key. -/
def takeKey (s : TokenStream) : Except Error TokenStream := do
  let s ← s.openBlock .blockMappingStart
  let s ← s.forgetKey
  return { s.skip 1 with keyAllowed := !s.inFlow }.push .key

/-- Take a colon. If the token in front of it may be a key, it is one. -/
def takeValue (s : TokenStream) : Except Error TokenStream :=
  match s.possible with
  | some key =>
    let s := s.insertAt key.index .key
    let s := s.indentTo key.place.column (some key.index) .blockMappingStart
    let s := { s with possible := none, keyAllowed := false }
    .ok ((s.skip 1).push .value)
  | none => do
    let s ← s.openBlock .blockMappingStart
    return { s.skip 1 with keyAllowed := !s.inFlow }.push .value

/-- Take an anchor or an alias. -/
def takeAnchor (s : TokenStream) (token : String → Token) : Except Error TokenStream := do
  let s ← s.rememberKey
  let (name, rest) ← readAnchor (s.rest.drop 1)
  return { s.advanceTo rest with keyAllowed := false }.push (token name)

/-- Take a tag. -/
def takeTag (s : TokenStream) : Except Error TokenStream := do
  let s ← s.rememberKey
  let (handle, tag, rest) ← readTag s.inFlow s.rest
  return { s.advanceTo rest with keyAllowed := false }.push (.tag handle tag)

/-- Take a block scalar. -/
def takeBlockScalar (s : TokenStream) (folds : Bool) : Except Error TokenStream := do
  let s ← s.forgetKey
  let scalar ← readBlock folds (s.indent + 1).toNat (s.rest.drop 1)
  return { s.advanceTo scalar.rest with keyAllowed := true }.push (.scalar scalar.text false)

/-- Take a quoted scalar. -/
def takeQuoted (s : TokenStream) (read : List Char → Except Error ScalarText) :
    Except Error TokenStream := do
  let s ← s.rememberKey
  let scalar ← read (s.rest.drop 1)
  return { s.advanceTo scalar.rest with keyAllowed := false }.push (.scalar scalar.text false)

/-- Take a plain scalar. A line break behind it allows a key. -/
def takePlain (s : TokenStream) : Except Error TokenStream := do
  let s ← s.rememberKey
  let scalar ← readPlain s.inFlow (s.indent + 1).toNat s.place.column [] {} s.rest
  return { s.advanceTo scalar.rest with keyAllowed := scalar.broken }.push
    (.scalar scalar.text true)

/-- Whether a plain scalar starts with a character. -/
def startsPlain (flow : Bool) (c : Char) (cs : List Char) : Bool :=
  if c = '-' then !(cs.head?.any isSpace)
  else if c = '?' || c = ':' then !flow && !startsBlank cs
  else
    !(isSpace c || isBreak c ||
      [',', '[', ']', '\x7b', '\x7d', '#', '&', '*', '!', '|', '>', '\'', '"', '%', '@',
        '\x60'].contains c)

/-- Take the token that starts with a character. -/
def takeAt (s : TokenStream) (c : Char) (cs : List Char) : Except Error TokenStream :=
  let text := c :: cs
  let startsLine := s.place.column = 0
  if startsLine && c = '%' then s.takeDirective
  else if startsLine && startsMarker '-' text then s.takeMarker .documentStart
  else if startsLine && startsMarker '.' text then s.takeMarker .documentEnd
  else if c = '[' then s.takeFlowStart .flowSequenceStart
  else if c = '\x7b' then s.takeFlowStart .flowMappingStart
  else if c = ']' then s.takeFlowEnd .flowSequenceEnd
  else if c = '\x7d' then s.takeFlowEnd .flowMappingEnd
  else if c = ',' then s.takeFlowEntry
  else if c = '-' && startsBlank cs then s.takeBlockEntry
  else if c = '?' && (s.inFlow || startsBlank cs) then s.takeKey
  else if c = ':' && (s.inFlow || startsBlank cs) then s.takeValue
  else if c = '*' then s.takeAnchor .alias
  else if c = '&' then s.takeAnchor .anchor
  else if c = '!' then s.takeTag
  else if c = '|' && !s.inFlow then s.takeBlockScalar false
  else if c = '>' && !s.inFlow then s.takeBlockScalar true
  else if c = '\'' then s.takeQuoted (readSingleQuoted false [] {})
  else if c = '"' then s.takeQuoted (readDoubleQuoted {})
  else if startsPlain s.inFlow c cs then s.takePlain
  else .error .unexpectedCharacter

/-- Take tokens up to the end of the text; `fuel` bounds their number, since every one of
them but the end covers a character. -/
def takeAll : (fuel : Nat) → TokenStream → Except Error (Array Token)
  | 0, _ => .error .unexpectedToken
  | fuel + 1, s => do
    let s ← s.toNext.dropStale
    let s := s.unindent s.place.column
    match s.rest with
    | [] => return (← s.takeEnd).tokens
    | c :: cs => takeAll fuel (← s.takeAt c cs)

/-- The start of a text. A byte order mark in front of it is passed over. -/
def start : List Char → TokenStream
  | c :: cs =>
    if c.toNat = 0xFEFF then { rest := cs, place := ⟨1, 0, 1⟩ } else { rest := c :: cs }
  | [] => { rest := [] }

end TokenStream

/-- The tokens of a text, the last of which is its end. -/
def tokensOf (text : String) : Except Error (List Token) :=
  let cs := text.toList
  if cs.all isAllowed then
    (TokenStream.takeAll (cs.length + 1) (.start cs)).map Array.toList
  else .error .forbiddenCharacter

end GateFormula.Yaml
