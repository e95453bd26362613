import GateFormula.Yaml.Character
import GateFormula.Yaml.Error

/-!
# Scalars of a YAML text

A scalar is plain, quoted or a block. Each reader takes the characters from the first
of the scalar on and returns its text with the characters behind it. Inside plain and
quoted scalars line breaks are folded: a single one reads as a space, and of several
the first is dropped.
-/

namespace GateFormula.Yaml

/-- Blank characters inside a scalar, before it is known whether more of it follows. -/
structure Gap where
  /-- Spaces and tabs before the first line break, the latest first. -/
  spaces : List Char := []
  /-- The first line break, unless it was escaped. -/
  first : Option Char := none
  /-- Further line breaks, the latest first. -/
  more : List Char := []
  /-- Whether there was a line break. -/
  broken : Bool := false

namespace Gap

/-- The gap with one more space or tab. -/
def addSpace (g : Gap) (c : Char) : Gap :=
  if g.broken then g else { g with spaces := c :: g.spaces }

/-- The gap with one more line break. -/
def addBreak (g : Gap) (c : Char) : Gap :=
  if g.broken then { g with more := c :: g.more }
  else { spaces := [], first := some c, more := [], broken := true }

/-- The characters that a gap stands for, the latest first. -/
def folded (g : Gap) : List Char :=
  if g.broken then
    match g.first with
    | none => g.more
    | some c => if c = '\n' then (if g.more.isEmpty then [' '] else g.more) else g.more ++ [c]
  else g.spaces

end Gap

/-- A scalar that has been read. -/
structure ScalarText where
  /-- Its text. -/
  text : String
  /-- Whether a line break stands between its last character and what follows. -/
  broken : Bool := false
  /-- The characters behind it. -/
  rest : List Char

/-- Whether a character ends a plain scalar. -/
def endsPlain (flow : Bool) (c : Char) (cs : List Char) : Bool :=
  (c = ':' && startsBlank cs) || (flow && [',', '[', ']', '\x7b', '\x7d'].contains c)

/-- Whether a colon in a flow collection runs into another indicator. -/
def isMisplacedColon (flow : Bool) (c : Char) (cs : List Char) : Bool :=
  flow && c = ':' && cs.head?.any fun d => [',', '?', '[', ']', '\x7b', '\x7d'].contains d

/-- Read a plain scalar. In a block its lines are indented by at least `indent`. The
characters read are kept with the latest first; `column` is that of the next one. -/
def readPlain (flow : Bool) (indent : Nat) :
    (column : Nat) → (taken : List Char) → Gap → List Char → Except Error ScalarText
  | _, taken, gap, [] => .ok ⟨.ofList taken.reverse, gap.broken, []⟩
  | _, taken, gap, '\r' :: '\n' :: cs => readPlain flow indent 0 taken (gap.addBreak '\n') cs
  | column, taken, gap, c :: cs =>
    if isBreak c then readPlain flow indent 0 taken (gap.addBreak (breakChar c)) cs
    else if isSpace c then
      if gap.broken && column < indent && c = '\t' then .error .tabInIndentation
      else readPlain flow indent (column + 1) taken (gap.addSpace c) cs
    else
      let inGap := gap.broken || !gap.spaces.isEmpty
      let leaves := inGap &&
        ((!flow && column < indent) || (column = 0 && startsDocumentMarker (c :: cs)) || c = '#')
      if leaves then .ok ⟨.ofList taken.reverse, gap.broken, c :: cs⟩
      else if isMisplacedColon flow c cs then .error .misplacedColon
      else if endsPlain flow c cs then .ok ⟨.ofList taken.reverse, gap.broken, c :: cs⟩
      else readPlain flow indent (column + 1) (c :: (gap.folded ++ taken)) {} cs

/-- Read a scalar behind its single quote. A quote inside is written twice. -/
def readSingleQuoted : (lineStart : Bool) → (taken : List Char) → Gap → List Char →
    Except Error ScalarText
  | _, _, _, [] => .error .unfinishedScalar
  | _, taken, gap, '\'' :: '\'' :: cs =>
    readSingleQuoted false ('\'' :: (gap.folded ++ taken)) {} cs
  | _, taken, gap, '\r' :: '\n' :: cs => readSingleQuoted true taken (gap.addBreak '\n') cs
  | lineStart, taken, gap, c :: cs =>
    if isBreak c then readSingleQuoted true taken (gap.addBreak (breakChar c)) cs
    else if isSpace c then readSingleQuoted false taken (gap.addSpace c) cs
    else if lineStart && startsDocumentMarker (c :: cs) then .error .unfinishedScalar
    else if c = '\'' then .ok { text := .ofList (gap.folded ++ taken).reverse, rest := cs }
    else readSingleQuoted false (c :: (gap.folded ++ taken)) {} cs

/-- The character of an escape sequence of one letter. -/
def escapeOf : Char → Option Char
  | '0' => some (.ofNat 0)
  | 'a' => some (.ofNat 0x7)
  | 'b' => some (.ofNat 0x8)
  | 't' => some '\t'
  | '\t' => some '\t'
  | 'n' => some '\n'
  | 'v' => some (.ofNat 0xB)
  | 'f' => some (.ofNat 0xC)
  | 'r' => some '\r'
  | 'e' => some (.ofNat 0x1B)
  | ' ' => some ' '
  | '"' => some '"'
  | '/' => some '/'
  | '\\' => some '\\'
  | 'N' => some (.ofNat 0x85)
  | '_' => some (.ofNat 0xA0)
  | 'L' => some (.ofNat 0x2028)
  | 'P' => some (.ofNat 0x2029)
  | _ => none

/-- Number of hexadecimal digits behind a letter of an escape sequence. -/
def escapeWidth : Char → Option Nat
  | 'x' => some 2
  | 'u' => some 4
  | 'U' => some 8
  | _ => none

/-- Value of a hexadecimal digit. -/
def hexValue (c : Char) : Option Nat :=
  if c.isDigit then some (c.toNat - '0'.toNat)
  else if 'a' ≤ c ∧ c ≤ 'f' then some (c.toNat - 'a'.toNat + 10)
  else if 'A' ≤ c ∧ c ≤ 'F' then some (c.toNat - 'A'.toNat + 10)
  else none

/-- Value of hexadecimal digits, all of which must be such. -/
def hexNumber (cs : List Char) : Option Nat :=
  cs.foldlM (fun n c => (hexValue c).map (n * 16 + ·)) 0

/-- The character with a code point, if there is one. -/
def charOf? (n : Nat) : Option Char :=
  if h : n.isValidChar then some (Char.ofNatAux n h) else none

/-- State of a scalar between double quotes. -/
structure Quoting where
  /-- Characters read, the latest first. -/
  taken : List Char := []
  /-- Blanks behind them. -/
  gap : Gap := {}
  /-- Whether the next character starts a line. -/
  lineStart : Bool := false
  /-- Hexadecimal digits of an escape sequence that are still to come, and their value so
  far. -/
  digits : Option (Nat × Nat) := none

/-- Add a character to a quoted scalar. -/
def Quoting.add (q : Quoting) (c : Char) : Quoting :=
  { taken := c :: (q.gap.folded ++ q.taken) }

/-- Add a digit of an escape sequence of which `count` are still to come. -/
def Quoting.addDigit (q : Quoting) (count value : Nat) (c : Char) : Except Error Quoting :=
  match hexValue c with
  | none => .error .malformedEscape
  | some digit =>
    let value := value * 16 + digit
    if count = 1 then
      match charOf? value with
      | some escaped => .ok { q with taken := escaped :: q.taken, digits := none }
      | none => .error .malformedEscape
    else .ok { q with digits := some (count - 1, value) }

/-- Begin an escape sequence with the letter behind the backslash. -/
def Quoting.escape (q : Quoting) (letter : Char) : Except Error Quoting :=
  match escapeOf letter, escapeWidth letter with
  | some escaped, _ => .ok (q.add escaped)
  | none, some width => .ok { taken := q.gap.folded ++ q.taken, digits := some (width, 0) }
  | none, none => .error .malformedEscape

/-- Escape a line break: the lines are joined without a space. -/
def Quoting.escapeBreak (q : Quoting) : Quoting :=
  { taken := q.gap.folded ++ q.taken, gap := { broken := true }, lineStart := true }

/-- Read a scalar behind its double quote. -/
def readDoubleQuoted (q : Quoting) : List Char → Except Error ScalarText
  | [] => .error .unfinishedScalar
  | '\\' :: '\r' :: '\n' :: cs =>
    if q.digits.isSome then .error .malformedEscape else readDoubleQuoted q.escapeBreak cs
  | '\\' :: c :: cs =>
    if q.digits.isSome then .error .malformedEscape
    else if isBreak c then readDoubleQuoted q.escapeBreak cs
    else
      match q.escape c with
      | .error error => .error error
      | .ok q => readDoubleQuoted q cs
  | '\r' :: '\n' :: cs =>
    if q.digits.isSome then .error .malformedEscape
    else readDoubleQuoted { q with gap := q.gap.addBreak '\n', lineStart := true } cs
  | c :: cs =>
    match q.digits with
    | some (count, value) =>
      match q.addDigit count value c with
      | .error error => .error error
      | .ok q => readDoubleQuoted q cs
    | none =>
      if isBreak c then
        readDoubleQuoted { q with gap := q.gap.addBreak (breakChar c), lineStart := true } cs
      else if isSpace c then
        readDoubleQuoted { q with gap := q.gap.addSpace c, lineStart := false } cs
      else if q.lineStart && startsDocumentMarker (c :: cs) then .error .unfinishedScalar
      else if c = '"' then
        .ok { text := .ofList (q.gap.folded ++ q.taken).reverse, rest := cs }
      else readDoubleQuoted (q.add c) cs

/-! ### Block scalars -/

/-- What becomes of the line breaks at the end of a block scalar. -/
inductive Chomping where
  /-- None stays. -/
  | strip
  /-- The first stays. -/
  | clip
  /-- All stay. -/
  | keep
deriving DecidableEq, Repr

/-- Header of a block scalar. -/
structure BlockHeader where
  /-- What becomes of the last line breaks. -/
  chomping : Chomping := .clip
  /-- The indentation relative to the block around it, if it is given. -/
  increment : Option Nat := none

/-- Chomping of an indicator. -/
def chomping? : Char → Option Chomping
  | '+' => some .keep
  | '-' => some .strip
  | _ => none

/-- Read the indicators behind the first character of a block scalar. -/
def readIndicators (cs : List Char) : Except Error (BlockHeader × List Char) :=
  let (chomping, afterChomping) := match cs with
    | c :: rest => match chomping? c with
      | some chomping => (some chomping, rest)
      | none => (none, cs)
    | [] => (none, cs)
  let (digit, afterDigit) := match afterChomping with
    | c :: rest => if c.isDigit then (some c, rest) else (none, afterChomping)
    | [] => (none, afterChomping)
  let (chomping, rest) := match chomping, digit, afterDigit with
    | none, some _, c :: rest => match chomping? c with
      | some chomping => (some chomping, rest)
      | none => (none, afterDigit)
    | chomping, _, _ => (chomping, afterDigit)
  match digit with
  | some '0' => .error .malformedHeader
  | some c => .ok (⟨chomping.getD .clip, some (c.toNat - '0'.toNat)⟩, rest)
  | none => .ok (⟨chomping.getD .clip, none⟩, rest)

/-- Drop spaces, a comment and the line break behind them, which must be the rest of the
line. -/
def dropLineRest (cs : List Char) : Option (List Char) :=
  let rest := cs.dropWhile isSpace
  let rest := match rest with
    | '#' :: _ => rest.dropWhile fun c => !isBreak c
    | _ => rest
  match splitBreak rest with
  | some (_, rest) => some rest
  | none => if rest.isEmpty then some [] else none

/-- Empty lines and indentation in front of a line of a block scalar. -/
structure Margin where
  /-- Line breaks, the latest first. -/
  breaks : List Char := []
  /-- Column of the next character. -/
  column : Nat := 0
  /-- Greatest column reached in front of a line break or the next line. -/
  widest : Nat := 0

/-- Read empty lines and indentation. An indentation that is not known takes all spaces. -/
def readMargin (indent : Option Nat) (m : Margin) :
    List Char → Except Error (Margin × List Char)
  | [] => .ok ({ m with widest := max m.widest m.column }, [])
  | '\r' :: '\n' :: cs =>
    readMargin indent ⟨'\n' :: m.breaks, 0, max m.widest m.column⟩ cs
  | c :: cs =>
    let within := indent.all fun indent => m.column < indent
    if c = ' ' && within then readMargin indent { m with column := m.column + 1 } cs
    else if c = '\t' && within then .error .tabInIndentation
    else if isBreak c then
      readMargin indent ⟨breakChar c :: m.breaks, 0, max m.widest m.column⟩ cs
    else .ok ({ m with widest := max m.widest m.column }, c :: cs)

/-- State of a block scalar between two lines. -/
structure BlockLines where
  /-- Characters read, the latest first. -/
  taken : List Char := []
  /-- Line break behind the last line. -/
  ending : Option Char := none
  /-- Whether the last line starts with a space or a tab. -/
  indented : Bool := false
  /-- Empty lines and indentation behind it. -/
  margin : Margin

/-- The characters between the last line and the next one, the latest first. -/
def BlockLines.joint (folds : Bool) (b : BlockLines) (indented : Bool) : List Char :=
  if folds && b.ending = some '\n' && !b.indented && !indented then
    if b.margin.breaks.isEmpty then [' '] else b.margin.breaks
  else b.margin.breaks ++ b.ending.toList

/-- Read the lines of a block scalar that are indented as the first one; `fuel` bounds
their number. -/
def readBlockLines (folds : Bool) (indent : Nat) :
    (fuel : Nat) → BlockLines → List Char → Except Error (BlockLines × List Char)
  | 0, b, cs => .ok (b, cs)
  | fuel + 1, b, cs =>
    match cs with
    | [] => .ok (b, [])
    | c :: _ =>
      if b.margin.column ≠ indent then .ok (b, cs)
      else
        let line := cs.takeWhile fun c => !isBreak c
        let rest := cs.dropWhile fun c => !isBreak c
        let taken := line.reverse ++ (b.joint folds (isSpace c) ++ b.taken)
        let (ending, rest) := match splitBreak rest with
          | some (ending, rest) => (some ending, rest)
          | none => (none, rest)
        match readMargin (some indent) {} rest with
        | .error error => .error error
        | .ok (margin, rest) =>
          readBlockLines folds indent fuel ⟨taken, ending, isSpace c, margin⟩ rest

/-- The text of a block scalar. -/
def BlockLines.text (chomping : Chomping) (b : BlockLines) : String :=
  let tail := match chomping with
    | .strip => []
    | .clip => b.ending.toList
    | .keep => b.margin.breaks ++ b.ending.toList
  .ofList (tail ++ b.taken).reverse

/-- Read a block scalar behind its first character. `outer` is the indentation of the
block around it, counted from one, and zero where there is none. -/
def readBlock (folds : Bool) (outer : Nat) (cs : List Char) : Except Error ScalarText := do
  let (header, cs) ← readIndicators cs
  match dropLineRest cs with
  | none => .error .malformedHeader
  | some cs =>
    let given := header.increment.map fun n => outer - 1 + n
    let (margin, cs) ← readMargin given {} cs
    let indent := given.getD (max margin.widest (max outer 1))
    let (lines, rest) ← readBlockLines folds indent cs.length { margin } cs
    return { text := lines.text header.chomping, rest }

end GateFormula.Yaml
