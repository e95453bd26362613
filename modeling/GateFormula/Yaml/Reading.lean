import GateFormula.Yaml.Composition
import GateFormula.Yaml.Value

/-!
# Reading nodes

A document is read from its root downwards, following aliases where they stand. How
often aliases are followed in total and how deeply collections are nested is bounded,
so that reading ends even if a node contains its own alias. What nobody asks for is
not read, and its aliases are not followed.
-/

namespace GateFormula.Yaml

/-- A step of reading a document; the state is how many aliases have been followed. -/
abbrev Reading := ReaderT Document (StateT Nat (Except Mismatch))

namespace Reading

/-- How deeply collections may be nested. -/
def depthLimit : Nat := 128

/-- How many aliases may be followed for each event of the document. -/
def aliasLimit : Nat := 100

/-- Refuse the document. -/
def fail {α : Type} (mismatch : Mismatch) : Reading α :=
  fun _ _ => .error mismatch

/-- Accept what is accepted without the document. -/
def accept {α : Type} (result : Except Mismatch α) : Reading α :=
  fun _ followed => result.map (·, followed)

/-- The node itself, or the one that an alias stands for. -/
def follow : Node → Reading Node
  | .alias slot => do
    let document ← read
    let followed := (← get) + 1
    set followed
    if aliasLimit * document.events < followed then fail .tooManyAliases
    else
      match document.node? slot with
      | some node => return node
      | none => fail .tooManyAliases
  | node => return node

/-- The text of a scalar, whatever its tag. -/
def text (node : Node) : Reading String := do
  match ← follow node with
  | .scalar text _ _ => return text
  | _ => fail .noScalar

/-- Whether a scalar may stand for an empty collection. -/
def isVoid (text : String) (plain : Bool) : Bool :=
  text = "" && plain

/-- The items of a sequence; what is left empty is an empty sequence. -/
def items (node : Node) : Reading (List Node) := do
  match ← follow node with
  | .sequence items _ => return items
  | .scalar text plain _ => if isVoid text plain then return [] else fail .noSequence
  | _ => fail .noSequence

/-- The entries of a mapping; what is left empty is an empty mapping. -/
def entries (node : Node) : Reading (List (Node × Node)) := do
  match ← follow node with
  | .mapping entries _ => return entries
  | .scalar text plain _ => if isVoid text plain then return [] else fail .noMapping
  | _ => fail .noMapping

/-- The entries of a mapping with the texts of their keys. -/
def named (node : Node) : Reading (List (String × Node)) := do
  (← entries node).mapM fun (key, value) => return (← text key, value)

/-- The node of a field among entries, unless it is given twice. -/
def field? (entries : List (String × Node)) (name : String) : Reading (Option Node) :=
  match entries.filter fun entry => entry.1 = name with
  | [] => return none
  | [(_, node)] => return some node
  | _ => fail (.repeatedField name)

/-- The node of a field that has to be there. -/
def field (entries : List (String × Node)) (name : String) : Reading Node := do
  match ← field? entries name with
  | some node => return node
  | none => fail (.missingField name)

/-- The value of a node whose collections are nested no deeper than `depth`. -/
def value : (depth : Nat) → Node → Reading Value
  | 0, node => do
    match ← follow node with
    | .scalar text plain tag => accept (Value.ofScalar text plain tag)
    | _ => fail .tooDeep
  | depth + 1, node => do
    match ← follow node with
    | .scalar text plain tag => accept (Value.ofScalar text plain tag)
    | .sequence items tag =>
      accept (Value.checkTag tag)
      return .sequence (← items.mapM (value depth))
    | .mapping entries tag =>
      accept (Value.checkTag tag)
      let entries ← entries.mapM fun (key, entry) =>
        return (← value depth key, ← value depth entry)
      return .mapping entries
    | .alias _ => fail .tooDeep

/-- Read a document. -/
def run {α : Type} (reading : Reading α) (document : Document) : Except Mismatch α :=
  (StateT.run (ReaderT.run reading document) 0).map (·.1)

end Reading

end GateFormula.Yaml
