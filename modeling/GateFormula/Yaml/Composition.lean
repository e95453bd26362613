import GateFormula.Yaml.Node
import GateFormula.Yaml.TokenStream

/-!
# Composing nodes from tokens

The grammar of documents over tokens. Every function takes tokens from the front and
composes the node that they stand for; what the grammar lets out reads as an empty
plain scalar. A text holds one document at most.

A slot is the number of distinct anchor names before its anchor. When a name is used
again it gets a slot of its own, which the next new name shares.
-/

namespace GateFormula.Yaml

/-- State of composing. -/
structure Composer where
  /-- Tokens that remain. -/
  tokens : List Token
  /-- Tag handles of the document. -/
  handles : List (String × String) := []
  /-- Slots of the anchor names so far, each name once. -/
  names : List (String × Nat) := []
  /-- Nodes with an anchor that are complete. -/
  anchored : List Anchored := []
  /-- Number of events so far. -/
  events : Nat := 0

/-- A step of composing. -/
abbrev Compose := StateT Composer (Except Error)

namespace Compose

/-- Refuse the text. -/
def fail {α : Type} (error : Error) : Compose α :=
  fun _ => .error error

/-- The next token. -/
def peek : Compose Token := do
  return (← get).tokens.headD .streamEnd

/-- Pass over the next token. -/
def skip : Compose Unit :=
  modify fun c => { c with tokens := c.tokens.drop 1 }

/-- Count an event. -/
def count : Compose Unit :=
  modify fun c => { c with events := c.events + 1 }

/-- An empty plain scalar. -/
def emptyScalar : Compose Node := do
  count
  return .scalar "" true none

/-- Resolve the handle of a tag. -/
def resolveTag (handle rest : String) : Compose String := do
  if handle = "" then return rest
  else
    let declared := (← get).handles ++ [("!", "!"), ("!!", "tag:yaml.org,2002:")]
    match declared.lookup handle with
    | some start => return start ++ rest
    | none => fail .unknownHandle

/-- Anchor and tag in front of a node, in either order. -/
def properties : Compose (Option String × Option String) := do
  match ← peek with
  | .anchor name =>
    skip
    match ← peek with
    | .tag handle rest =>
      skip
      return (some name, some (← resolveTag handle rest))
    | _ => return (some name, none)
  | .tag handle rest =>
    skip
    let tag ← resolveTag handle rest
    match ← peek with
    | .anchor name =>
      skip
      return (some name, some tag)
    | _ => return (none, some tag)
  | _ => return (none, none)

/-- Give an anchor name its slot. -/
def openAnchor (name : String) : Compose Nat := do
  let slot := (← get).names.length
  let bind (names : List (String × Nat)) : List (String × Nat) :=
    if names.any fun entry => entry.1 = name then
      names.map fun entry => if entry.1 = name then (name, slot) else entry
    else names ++ [(name, slot)]
  modify fun c => { c with names := bind c.names }
  return slot

/-- The slot of an alias. -/
def aliasNode (name : String) : Compose Node := do
  match (← get).names.lookup name with
  | some slot =>
    count
    return .alias slot
  | none => fail .unknownAnchor

/-- Compose a node with its anchor, if it has one. -/
def withAnchor (anchor : Option String) (body : Compose Node) : Compose Node := do
  match anchor with
  | none => body
  | some name =>
    let start := (← get).events
    let slot ← openAnchor name
    let node ← body
    modify fun c => { c with anchored := ⟨slot, start, node⟩ :: c.anchored }
    return node

/-- Where a node stands. -/
structure Context where
  /-- Whether block collections may start. -/
  block : Bool
  /-- Whether the entries of a sequence may stand without indentation. -/
  indentless : Bool := false

/-- Whether a node is missing in front of a token of a block mapping. -/
def endsBlockEntry : Token → Bool
  | .key | .value | .blockEnd => true
  | _ => false

/-- Whether a node is missing in front of a token of a flow mapping. -/
def endsFlowPair : Token → Bool
  | .flowEntry | .flowMappingEnd => true
  | _ => false

mutual

/-- Compose a node. -/
def node (fuel : Nat) (context : Context) : Compose Node :=
  match fuel with
  | 0 => fail .unexpectedToken
  | fuel + 1 => do
    match ← peek with
    | .alias name =>
      skip
      aliasNode name
    | _ =>
      let (anchor, tag) ← properties
      withAnchor anchor (content fuel context (anchor.isSome || tag.isSome) tag)

/-- Compose a node behind its anchor and its tag; with one of them it may be empty. -/
def content (fuel : Nat) (context : Context) (mayBeEmpty : Bool) (tag : Option String) :
    Compose Node :=
  match fuel with
  | 0 => fail .unexpectedToken
  | fuel + 1 => do
    match ← peek with
    | .blockEntry =>
      if context.indentless then sequence (indentlessItems fuel) tag
      else empty mayBeEmpty tag
    | .scalar text plain =>
      skip
      count
      return .scalar text plain (tag.filter (· ≠ "!"))
    | .flowSequenceStart =>
      skip
      sequence (flowItems fuel true) tag
    | .flowMappingStart =>
      skip
      mapping (flowPairs fuel true) tag
    | .blockSequenceStart =>
      if context.block then do
        skip
        sequence (blockItems fuel) tag
      else empty mayBeEmpty tag
    | .blockMappingStart =>
      if context.block then do
        skip
        mapping (blockPairs fuel) tag
      else empty mayBeEmpty tag
    | _ => empty mayBeEmpty tag

/-- Compose an empty scalar, if the node may be empty. -/
def empty (mayBeEmpty : Bool) (tag : Option String) : Compose Node := do
  if mayBeEmpty then
    count
    return .scalar "" true tag
  else fail .unexpectedToken

/-- Compose a sequence from its items. -/
def sequence (items : Compose (List Node)) (tag : Option String) : Compose Node := do
  count
  let items ← items
  count
  return .sequence items tag

/-- Compose a mapping from its entries. -/
def mapping (entries : Compose (List (Node × Node))) (tag : Option String) :
    Compose Node := do
  count
  let entries ← entries
  count
  return .mapping entries tag

/-- Entries of a block sequence up to its end. -/
def blockItems (fuel : Nat) : Compose (List Node) :=
  match fuel with
  | 0 => fail .unexpectedToken
  | fuel + 1 => do
    match ← peek with
    | .blockEntry =>
      skip
      let item ← match ← peek with
        | .blockEntry | .blockEnd => emptyScalar
        | _ => node fuel { block := true }
      return item :: (← blockItems fuel)
    | .blockEnd =>
      skip
      return []
    | _ => fail .unexpectedToken

/-- Entries of a sequence without indentation, up to what is none. -/
def indentlessItems (fuel : Nat) : Compose (List Node) :=
  match fuel with
  | 0 => fail .unexpectedToken
  | fuel + 1 => do
    match ← peek with
    | .blockEntry =>
      skip
      let item ← match ← peek with
        | .blockEntry | .key | .value | .blockEnd => emptyScalar
        | _ => node fuel { block := true }
      return item :: (← indentlessItems fuel)
    | _ => return []

/-- Entries of a block mapping up to its end. -/
def blockPairs (fuel : Nat) : Compose (List (Node × Node)) :=
  match fuel with
  | 0 => fail .unexpectedToken
  | fuel + 1 => do
    match ← peek with
    | .key =>
      skip
      let name ← blockPart fuel
      let value ← blockValue fuel
      return (name, value) :: (← blockPairs fuel)
    | .blockEnd =>
      skip
      return []
    | _ => fail .unexpectedToken

/-- A key or a value of a block mapping, which may be missing. -/
def blockPart (fuel : Nat) : Compose Node :=
  match fuel with
  | 0 => fail .unexpectedToken
  | fuel + 1 => do
    if endsBlockEntry (← peek) then emptyScalar
    else node fuel { block := true, indentless := true }

/-- The value of an entry of a block mapping, which may be missing with its colon. -/
def blockValue (fuel : Nat) : Compose Node :=
  match fuel with
  | 0 => fail .unexpectedToken
  | fuel + 1 => do
    match ← peek with
    | .value =>
      skip
      blockPart fuel
    | _ => emptyScalar

/-- Pass over the comma in front of all entries of a flow collection but the first. -/
def separator (first : Bool) : Compose Unit := do
  if !first then
    match ← peek with
    | .flowEntry => skip
    | _ => fail .unexpectedToken

/-- Entries of a flow sequence up to its end. -/
def flowItems (fuel : Nat) (first : Bool) : Compose (List Node) :=
  match fuel with
  | 0 => fail .unexpectedToken
  | fuel + 1 => do
    match ← peek with
    | .flowSequenceEnd =>
      skip
      return []
    | _ =>
      separator first
      match ← peek with
      | .flowSequenceEnd =>
        skip
        return []
      | .key =>
        skip
        let item ← mapping (flowPair fuel) none
        return item :: (← flowItems fuel false)
      | _ =>
        let item ← node fuel { block := false }
        return item :: (← flowItems fuel false)

/-- The only entry of a mapping that stands in a flow sequence without braces. A missing
key takes the token in its place with it. -/
def flowPair (fuel : Nat) : Compose (List (Node × Node)) :=
  match fuel with
  | 0 => fail .unexpectedToken
  | fuel + 1 => do
    let name ← match ← peek with
      | .value | .flowEntry | .flowSequenceEnd => do
        skip
        emptyScalar
      | _ => node fuel { block := false }
    let value ← match ← peek with
      | .value => do
        skip
        match ← peek with
        | .flowEntry | .flowSequenceEnd => emptyScalar
        | _ => node fuel { block := false }
      | _ => emptyScalar
    return [(name, value)]

/-- Entries of a flow mapping up to its end. -/
def flowPairs (fuel : Nat) (first : Bool) : Compose (List (Node × Node)) :=
  match fuel with
  | 0 => fail .unexpectedToken
  | fuel + 1 => do
    match ← peek with
    | .flowMappingEnd =>
      skip
      return []
    | _ =>
      separator first
      match ← peek with
      | .flowMappingEnd =>
        skip
        return []
      | .key =>
        skip
        let name ← match ← peek with
          | .value | .flowEntry | .flowMappingEnd => emptyScalar
          | _ => node fuel { block := false }
        let value ← flowValue fuel
        return (name, value) :: (← flowPairs fuel false)
      | _ =>
        let name ← node fuel { block := false }
        let value ← emptyScalar
        return (name, value) :: (← flowPairs fuel false)

/-- The value of an entry of a flow mapping, which may be missing with its colon. -/
def flowValue (fuel : Nat) : Compose Node :=
  match fuel with
  | 0 => fail .unexpectedToken
  | fuel + 1 => do
    match ← peek with
    | .value =>
      skip
      if endsFlowPair (← peek) then emptyScalar else node fuel { block := false }
    | _ => emptyScalar

end

/-- Read the directives of a document. -/
def directives (fuel : Nat) (versioned : Bool) : Compose Unit :=
  match fuel with
  | 0 => fail .unexpectedToken
  | fuel + 1 => do
    match ← peek with
    | .versionDirective major minor =>
      skip
      if versioned then fail .repeatedDirective
      else if major = 1 ∧ (minor = 1 ∨ minor = 2) then directives fuel true
      else fail .unsupportedVersion
    | .tagDirective handle start =>
      skip
      if (← get).handles.any fun entry => entry.1 = handle then fail .repeatedDirective
      else
        modify fun c => { c with handles := c.handles ++ [(handle, start)] }
        directives fuel versioned
    | _ => return ()

/-- The root of a document that starts with a line of its own. -/
def explicitRoot (fuel : Nat) : Compose Node := do
  directives fuel false
  match ← peek with
  | .documentStart => do
    skip
    match ← peek with
    | .versionDirective _ _ | .tagDirective _ _ | .documentStart | .documentEnd | .streamEnd =>
      emptyScalar
    | _ => node fuel { block := true }
  | _ => fail .unexpectedToken

/-- The root of the first document, if there is a document. -/
def root? (fuel : Nat) : Compose (Option Node) := do
  match ← peek with
  | .streamEnd => return none
  | .versionDirective _ _ | .tagDirective _ _ | .documentStart => return some (← explicitRoot fuel)
  | _ => return some (← node fuel { block := true })

/-- Only lines that end a document may follow it. -/
def finish : Compose Unit := do
  let rest := (← get).tokens.dropWhile (· = .documentEnd)
  match rest.headD .streamEnd with
  | .streamEnd => return ()
  | _ => fail .severalDocuments

/-- Compose the only document of a text. -/
def document? (fuel : Nat) : Compose (Option Document) := do
  match ← root? fuel with
  | none => return none
  | some root =>
    finish
    let c ← get
    return some ⟨root, c.anchored, c.events⟩

end Compose

/-- The document of a text, if it has one. Every call of the grammar either takes a token or
is one of two calls in a row that take none, which bounds the fuel. -/
def Document.read? (text : String) : Except Error (Option Document) := do
  let tokens ← tokensOf text
  let (document, _) ← (Compose.document? (4 * tokens.length + 8)).run { tokens }
  return document

end GateFormula.Yaml
