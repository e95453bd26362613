/-!
# Faults of a YAML text

The reasons why a text is no YAML document. They are told apart by what is wrong,
not by where: a document is either read whole or refused.
-/

namespace GateFormula.Yaml

/-- What is wrong with a text. -/
inductive Error where
  /-- It has a character that no document may have. -/
  | forbiddenCharacter
  /-- A character starts no token. -/
  | unexpectedCharacter
  /-- A tab stands where indentation is expected. -/
  | tabInIndentation
  /-- A key that must be a key has no colon. -/
  | unfinishedKey
  /-- A sequence entry, a key or a value stands where none may stand. -/
  | misplacedEntry
  /-- A colon runs into a flow indicator. -/
  | misplacedColon
  /-- A directive does not have its form. -/
  | malformedDirective
  /-- A tag does not have its form. -/
  | malformedTag
  /-- An anchor or an alias has no proper name. -/
  | malformedAnchor
  /-- An escape sequence is not known or incomplete. -/
  | malformedEscape
  /-- The header of a block scalar does not have its form. -/
  | malformedHeader
  /-- A quoted scalar does not end. -/
  | unfinishedScalar
  /-- A token stands where another is expected. -/
  | unexpectedToken
  /-- A directive is given twice. -/
  | repeatedDirective
  /-- The document asks for a version that is not supported. -/
  | unsupportedVersion
  /-- A tag has a handle that is not declared. -/
  | unknownHandle
  /-- An alias names no anchor before it. -/
  | unknownAnchor
  /-- A document follows the first one. -/
  | severalDocuments
deriving DecidableEq, Repr

/-- Wording of a fault. -/
def Error.message : Error → String
  | .forbiddenCharacter => "control characters are not allowed"
  | .unexpectedCharacter => "found a character that cannot start any token"
  | .tabInIndentation => "found a tab where indentation is expected"
  | .unfinishedKey => "could not find expected ':'"
  | .misplacedEntry => "entries, keys and values are not allowed in this context"
  | .misplacedColon => "found unexpected ':'"
  | .malformedDirective => "malformed directive"
  | .malformedTag => "malformed tag"
  | .malformedAnchor => "malformed anchor or alias"
  | .malformedEscape => "malformed escape sequence"
  | .malformedHeader => "malformed block scalar header"
  | .unfinishedScalar => "unfinished quoted scalar"
  | .unexpectedToken => "unexpected token"
  | .repeatedDirective => "repeated directive"
  | .unsupportedVersion => "found incompatible YAML document"
  | .unknownHandle => "found undefined tag handle"
  | .unknownAnchor => "unknown anchor"
  | .severalDocuments => "deserializing from YAML containing more than one document"

end GateFormula.Yaml
