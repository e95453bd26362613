import GateFormula.Yaml.Scalar
import GateFormula.Yaml.Token

/-!
# Anchors, tags and directives

What is written in front of a node or of a document: names of anchors and aliases,
tags with their handles, and the directives that declare a version or a handle. Each
reader returns what it read and the characters behind it.
-/

namespace GateFormula.Yaml

/-- Read the name of an anchor or an alias behind its indicator. -/
def readAnchor (cs : List Char) : Except Error (String × List Char) :=
  let name := cs.takeWhile isNameChar
  let rest := cs.dropWhile isNameChar
  let ends := startsBlank rest ||
    rest.head?.any fun c => ['?', ':', ',', ']', '\x7d', '%', '@', '\x60'].contains c
  if name.isEmpty || !ends then .error .malformedAnchor else .ok (.ofList name, rest)

/-! ### Tags -/

/-- Whether a character may stand in a tag as it is. Commas and brackets may where the tag
is written between angles or in a directive. -/
def isTagChar (verbatim : Bool) (c : Char) : Bool :=
  isNameChar c
    || [';', '/', '?', ':', '@', '&', '=', '+', '$', '.', '!', '~', '*', '\'', '(', ')'].contains c
    || (verbatim && [',', '[', ']'].contains c)

/-- Number of bytes of a character whose encoding starts with a byte. -/
def encodedWidth (byte : Nat) : Option Nat :=
  if byte < 0x80 then some 1
  else if byte < 0xC0 then none
  else if byte < 0xE0 then some 2
  else if byte < 0xF0 then some 3
  else if byte < 0xF8 then some 4
  else none

/-- A character of a tag that is written byte by byte. -/
structure EscapedChar where
  /-- Bytes that are still to come. -/
  missing : Nat := 0
  /-- Its code point so far. -/
  value : Nat := 0

/-- Add a byte. The character is there when no byte is missing any more. -/
def EscapedChar.add (e : EscapedChar) (byte : Nat) : Option EscapedChar :=
  if e.missing = 0 then
    (encodedWidth byte).map fun width =>
      ⟨width - 1, if width = 1 then byte else byte % Nat.pow 2 (7 - width)⟩
  else if byte / 0x40 = 2 then some ⟨e.missing - 1, e.value * 0x40 + byte % 0x40⟩
  else none

/-- Read the rest of a tag; the characters read are kept with the latest first. -/
def readTagChars (verbatim : Bool) :
    (taken : List Char) → EscapedChar → List Char → Except Error (List Char × List Char)
  | taken, e, '%' :: a :: b :: cs =>
    match hexNumber [a, b] with
    | none => .error .malformedTag
    | some byte =>
      match e.add byte with
      | none => .error .malformedTag
      | some e =>
        if e.missing = 0 then readTagChars verbatim (Char.ofNat e.value :: taken) e cs
        else readTagChars verbatim taken e cs
  | taken, e, c :: cs =>
    if e.missing ≠ 0 || c = '%' then .error .malformedTag
    else if isTagChar verbatim c then readTagChars verbatim (c :: taken) e cs
    else .ok (taken.reverse, c :: cs)
  | taken, e, [] => if e.missing ≠ 0 then .error .malformedTag else .ok (taken.reverse, [])

/-- Read a tag that must have characters, if `required`. -/
def readTagRest (verbatim required : Bool) (cs : List Char) :
    Except Error (List Char × List Char) := do
  let (tag, rest) ← readTagChars verbatim [] {} cs
  if required && tag.isEmpty then .error .malformedTag else return (tag, rest)

/-- A handle: an exclamation mark, name characters, and an exclamation mark, which
is missing where the handle turns out to be the start of a tag. -/
structure Handle where
  /-- Name characters behind the first exclamation mark. -/
  name : List Char
  /-- Whether the second exclamation mark is there. -/
  closed : Bool

/-- Read a handle. -/
def readHandle : List Char → Except Error (Handle × List Char)
  | '!' :: cs =>
    let name := cs.takeWhile isNameChar
    match cs.dropWhile isNameChar with
    | '!' :: rest => .ok (⟨name, true⟩, rest)
    | rest => .ok (⟨name, false⟩, rest)
  | _ => .error .malformedTag

/-- Text of a handle with both marks. -/
def Handle.text (h : Handle) : String :=
  .ofList ('!' :: h.name ++ ['!'])

/-- Read a tag from its first character on: its handle, empty for a verbatim tag, and what
follows the handle. -/
def readTag (flow : Bool) (cs : List Char) : Except Error (String × String × List Char) := do
  let (handle, tag, rest) ← match cs with
    | '!' :: '<' :: cs => do
      let (tag, rest) ← readTagRest true true cs
      match rest with
      | '>' :: rest => pure ("", String.ofList tag, rest)
      | _ => .error .malformedTag
    | _ => do
      let (handle, cs) ← readHandle cs
      if handle.closed then
        let (tag, rest) ← readTagRest false true cs
        pure (handle.text, String.ofList tag, rest)
      else
        let (tag, rest) ← readTagRest false false cs
        match handle.name ++ tag with
        | [] => pure ("", "!", rest)
        | tag => pure ("!", String.ofList tag, rest)
  if startsBlank rest || (flow && rest.head? = some ',') then return (handle, tag, rest)
  else .error .malformedTag

/-! ### Directives -/

/-- Read a number of a version, which has at most nine digits. -/
def readVersionNumber (cs : List Char) : Except Error (Nat × List Char) :=
  let digits := cs.takeWhile Char.isDigit
  if digits.isEmpty || 9 < digits.length then .error .malformedDirective
  else
    .ok (digits.foldl (fun n c => n * 10 + (c.toNat - '0'.toNat)) 0, cs.dropWhile Char.isDigit)

/-- Read the directive that names a version, behind its name. -/
def readVersion (cs : List Char) : Except Error (Token × List Char) := do
  let (major, cs) ← readVersionNumber (cs.dropWhile isSpace)
  match cs with
  | '.' :: cs =>
    let (minor, cs) ← readVersionNumber cs
    return (.versionDirective major minor, cs)
  | _ => .error .malformedDirective

/-- Read the directive that declares a handle, behind its name. -/
def readHandleDeclaration (cs : List Char) : Except Error (Token × List Char) := do
  let (handle, cs) ← readHandle (cs.dropWhile isSpace)
  if !handle.closed && !handle.name.isEmpty then .error .malformedDirective
  else if !(cs.head?.any isSpace) then .error .malformedDirective
  else
    let (start, rest) ← readTagRest true true (cs.dropWhile isSpace)
    if !startsBlank rest then .error .malformedDirective
    else
      let text := if handle.closed then handle.text else "!"
      return (.tagDirective text (.ofList start), rest)

/-- Read a directive behind its percent sign, to the end of its line. -/
def readDirective (cs : List Char) : Except Error (Token × List Char) := do
  let name := cs.takeWhile isNameChar
  let rest := cs.dropWhile isNameChar
  if name.isEmpty || !startsBlank rest then .error .malformedDirective
  else
    let (token, rest) ← match String.ofList name with
      | "YAML" => readVersion rest
      | "TAG" => readHandleDeclaration rest
      | _ => .error .malformedDirective
    match dropLineRest rest with
    | some rest => return (token, rest)
    | none => .error .malformedDirective

end GateFormula.Yaml
