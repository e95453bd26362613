import GateFormula.Compile
import GateFormula.Machine

/-!
# Requirements

A requirement is a formula, or a group of requirements of which all or any must be
met. The same tree serves before and after compiling: its leaves are texts first and
programs later. Compiling goes through all leaves, so that every broken one is found,
and checking evaluates all of them, so that an error shows even where the outcome
does not depend on it.
-/

namespace GateFormula

/-- A tree of conditions over leaves of some kind. -/
inductive Requirement (α : Type) where
  /-- Met when the leaf is. -/
  | single (leaf : α)
  /-- Met when every part is; an empty group is. -/
  | all (parts : List (Requirement α))
  /-- Met when some part is; an empty group is not. -/
  | any (parts : List (Requirement α))

namespace Requirement

variable {α β : Type}

mutual

/-- The leaves from left to right. -/
def leaves : Requirement α → List α
  | .single leaf => [leaf]
  | .all parts => leavesOf parts
  | .any parts => leavesOf parts

/-- The leaves of several requirements from left to right. -/
def leavesOf : List (Requirement α) → List α
  | [] => []
  | part :: parts => part.leaves ++ leavesOf parts

end

mutual

/-- Change every leaf. -/
def map (f : α → β) : Requirement α → Requirement β
  | .single leaf => .single (f leaf)
  | .all parts => .all (mapOf f parts)
  | .any parts => .any (mapOf f parts)

/-- Change every leaf of several requirements. -/
def mapOf (f : α → β) : List (Requirement α) → List (Requirement β)
  | [] => []
  | part :: parts => part.map f :: mapOf f parts

end

mutual

/-- Change every leaf, if each of them can be changed. -/
def traverse? (f : α → Option β) : Requirement α → Option (Requirement β)
  | .single leaf => (f leaf).map .single
  | .all parts => (traverseOf? f parts).map .all
  | .any parts => (traverseOf? f parts).map .any

/-- Change every leaf of several requirements, if each of them can be changed. -/
def traverseOf? (f : α → Option β) : List (Requirement α) → Option (List (Requirement β))
  | [] => some []
  | part :: parts =>
    match part.traverse? f, traverseOf? f parts with
    | some part, some parts => some (part :: parts)
    | _, _ => none

end

/-- The program of a leaf that compiles. -/
def program? (compilation : Compilation) : Option Program :=
  compilation.result.toOption

/-- The reasons why a leaf does not compile. -/
def failure? (compilation : Compilation) : Option Diagnostics :=
  match compilation.result with
  | .ok _ => none
  | .error diagnostics => some diagnostics

/-- What compiling the leaves of a requirement yields: the variables that they mention, and
the compiled tree or the diagnostics of the leaves that do not compile. -/
def compile (registry : Registry) (definition : Requirement String) :
    List String × Except (List Diagnostics) (Requirement Program) :=
  let compiled := definition.map (GateFormula.compile registry)
  let result := match compiled.traverse? program? with
    | some requirement => .ok requirement
    | none => .error (compiled.leaves.filterMap failure?)
  (compiled.leaves.flatMap Compilation.mentioned, result)

/-- Compile a requirement for a store. -/
def compileIn (registry : Registry) (store : Store) (definition : Requirement String) :
    Except (List Diagnostics) (Requirement Program) × Store :=
  let (mentioned, result) := definition.compile registry
  (result, store.declareAll mentioned)

mutual

/-- Whether a requirement is met in a store; the error of the leftmost leaf that has one. -/
def isMet (store : Store) : Requirement Program → Except Fault Bool
  | .single program => program.test store
  | .all parts => (outcomes store parts).map fun met => met.all id
  | .any parts => (outcomes store parts).map fun met => met.any id

/-- Whether each of several requirements is met. -/
def outcomes (store : Store) : List (Requirement Program) → Except Fault (List Bool)
  | [] => .ok []
  | part :: parts =>
    match part.isMet store with
    | .error fault => .error fault
    | .ok met => (outcomes store parts).map (met :: ·)

end

end Requirement

end GateFormula
