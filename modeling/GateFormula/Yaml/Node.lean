/-!
# Nodes of a YAML document

A document is a tree of scalars, sequences, mappings and aliases. An alias refers to
a slot, and the document says which node fills it. A node that contains its own alias
makes the document endless; it is up to the reader of the tree how far to go.
-/

namespace GateFormula.Yaml

/-- A node. -/
inductive Node where
  /-- A scalar, whether it is written plainly, and its tag. -/
  | scalar (text : String) (plain : Bool) (tag : Option String)
  /-- A sequence and its tag. -/
  | sequence (items : List Node) (tag : Option String)
  /-- A mapping and its tag. -/
  | mapping (entries : List (Node × Node)) (tag : Option String)
  /-- Another node, by its slot. -/
  | alias (slot : Nat)

/-- A node with an anchor. -/
structure Anchored where
  /-- The slot that aliases of the anchor refer to. -/
  slot : Nat
  /-- Number of events of the document before the node. -/
  start : Nat
  /-- The node. -/
  node : Node

/-- A document. -/
structure Document where
  /-- The node at the root. -/
  root : Node
  /-- Nodes with an anchor. -/
  anchored : List Anchored := []
  /-- Number of events: one for a scalar or an alias, two for a collection. -/
  events : Nat

/-- Of two nodes for one slot the one that starts later. -/
def Anchored.later (found : Option Anchored) (a : Anchored) : Option Anchored :=
  match found with
  | none => some a
  | some b => if b.start ≤ a.start then some a else some b

/-- The node that fills a slot: of all nodes with that slot the one that starts last. -/
def Document.node? (d : Document) (slot : Nat) : Option Node :=
  ((d.anchored.filter fun a => a.slot = slot).foldl Anchored.later none).map (·.node)

end GateFormula.Yaml
