/-!
# Characters and places of a YAML text

The classes of characters that the grammar tells apart, and the place of a character:
its index, its line and its column. A carriage return with the line feed behind it is
one line break.
-/

namespace GateFormula.Yaml

/-- Whether a document may have a character. -/
def isAllowed (c : Char) : Bool :=
  let n := c.toNat
  n == 0x9 || n == 0xA || n == 0xD || (0x20 ≤ n && n ≤ 0x7E) || n == 0x85
    || (0xA0 ≤ n && n ≤ 0xD7FF) || (0xE000 ≤ n && n ≤ 0xFFFD) || 0x10000 ≤ n

/-- Whether a character breaks a line. -/
def isBreak (c : Char) : Bool :=
  let n := c.toNat
  n == 0xA || n == 0xD || n == 0x85 || n == 0x2028 || n == 0x2029

/-- Whether a character is a space or a tab. -/
def isSpace (c : Char) : Bool :=
  c = ' ' || c = '\t'

/-- Whether a text ends or goes on with a space, a tab or a line break. -/
def startsBlank (cs : List Char) : Bool :=
  cs.head?.all fun c => isSpace c || isBreak c

/-- Whether a character may stand in a name. -/
def isNameChar (c : Char) : Bool :=
  c.isAlphanum || c = '_' || c = '-'

/-- A line break as it reads: the separators of lines and paragraphs stand for
themselves, the others for a line feed. -/
def breakChar (c : Char) : Char :=
  if c.toNat = 0x2028 ∨ c.toNat = 0x2029 then c else '\n'

/-- Split off a line break. -/
def splitBreak : List Char → Option (Char × List Char)
  | '\r' :: '\n' :: cs => some ('\n', cs)
  | c :: cs => if isBreak c then some (breakChar c, cs) else none
  | [] => none

/-- Whether a text that starts a line starts with `---` or `...` as a word. -/
def startsMarker (mark : Char) : List Char → Bool
  | a :: b :: c :: cs => a = mark && b = mark && c = mark && startsBlank cs
  | _ => false

/-- Whether a text that starts a line starts or ends a document. -/
def startsDocumentMarker (cs : List Char) : Bool :=
  startsMarker '-' cs || startsMarker '.' cs

/-- Place of a character. -/
structure Place where
  /-- Number of characters before it. -/
  index : Nat := 0
  /-- Number of lines before it. -/
  line : Nat := 0
  /-- Number of characters before it in its line. -/
  column : Nat := 0
deriving DecidableEq, Repr

/-- The place behind some characters. -/
def Place.after (p : Place) : List Char → Place
  | [] => p
  | '\r' :: '\n' :: cs => Place.after ⟨p.index + 2, p.line + 1, 0⟩ cs
  | c :: cs =>
    if isBreak c then Place.after ⟨p.index + 1, p.line + 1, 0⟩ cs
    else Place.after ⟨p.index + 1, p.line, p.column + 1⟩ cs

end GateFormula.Yaml
