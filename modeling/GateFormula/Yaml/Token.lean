/-!
# Tokens of a YAML text

Block collections have no brackets in the text; their starts and ends are tokens that
indentation gives rise to, and so is the mark of a key that is recognized only by the
colon behind it.
-/

namespace GateFormula.Yaml

/-- A token. -/
inductive Token where
  /-- The end of the text. -/
  | streamEnd
  /-- The directive that names the version. -/
  | versionDirective (major minor : Nat)
  /-- A directive that declares a tag handle. -/
  | tagDirective (handle start : String)
  /-- The line that starts a document. -/
  | documentStart
  /-- The line that ends a document. -/
  | documentEnd
  /-- The start of a sequence by indentation. -/
  | blockSequenceStart
  /-- The start of a mapping by indentation. -/
  | blockMappingStart
  /-- The end of a collection by indentation. -/
  | blockEnd
  /-- An opening bracket. -/
  | flowSequenceStart
  /-- A closing bracket. -/
  | flowSequenceEnd
  /-- An opening brace. -/
  | flowMappingStart
  /-- A closing brace. -/
  | flowMappingEnd
  /-- The dash of an entry. -/
  | blockEntry
  /-- A comma. -/
  | flowEntry
  /-- The mark of a key, written or not. -/
  | key
  /-- The colon of a value. -/
  | value
  /-- An alias. -/
  | alias (name : String)
  /-- An anchor. -/
  | anchor (name : String)
  /-- A tag, its handle apart from the rest. -/
  | tag (handle rest : String)
  /-- A scalar, and whether it is written without quotes and not as a block. -/
  | scalar (text : String) (plain : Bool)
deriving DecidableEq, Repr

end GateFormula.Yaml
