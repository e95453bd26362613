import GateFormula.Number.Layout

/-!
# JSON text

Values of reports and their text, on one line or indented by two spaces a level. In
a string the quote, the backslash and the control characters are escaped and every
other character stands for itself. Numbers always show that they are not integers.
-/

namespace GateFormula

/-- A JSON value of the kinds that reports have. -/
inductive Json where
  /-- A truth value. -/
  | bool (value : Bool)
  /-- A number. -/
  | number (value : Float)
  /-- A string. -/
  | string (value : String)
  /-- An object, its members in the order in which they are written. -/
  | object (members : List (String × Json))

namespace Json

/-- Two hexadecimal digits of a number below 256. -/
def hexPair (n : Nat) : List Char :=
  [Nat.digitChar (n / 16), Nat.digitChar (n % 16)]

/-- A character inside a JSON string. -/
def escapeChar (c : Char) : List Char :=
  match c with
  | '"' => ['\\', '"']
  | '\\' => ['\\', '\\']
  | '\n' => ['\\', 'n']
  | '\r' => ['\\', 'r']
  | '\t' => ['\\', 't']
  | _ =>
    if c.toNat = 0x8 then ['\\', 'b']
    else if c.toNat = 0xC then ['\\', 'f']
    else if c.toNat < 0x20 then ['\\', 'u', '0', '0'] ++ hexPair c.toNat
    else [c]

/-- A JSON string with its quotes. -/
def quote (text : String) : String :=
  String.ofList ('"' :: text.toList.flatMap escapeChar ++ ['"'])

mutual

/-- Text on one line without spaces. -/
def compact : Json → String
  | .bool value => if value then "true" else "false"
  | .number value => Number.Layout.json.write value
  | .string value => quote value
  | .object members => "\x7b" ++ ",".intercalate (compactMembers members) ++ "\x7d"

/-- The members of an object on one line. -/
def compactMembers : List (String × Json) → List String
  | [] => []
  | (name, value) :: members => (quote name ++ ":" ++ value.compact) :: compactMembers members

end

/-- Spaces in front of a line at a level of nesting. -/
def indentation (level : Nat) : String :=
  String.ofList (List.replicate (2 * level) ' ')

mutual

/-- Text with a line for each member, the first line being at the given level. -/
def prettyAt (level : Nat) : Json → String
  | .bool value => if value then "true" else "false"
  | .number value => Number.Layout.json.write value
  | .string value => quote value
  | .object [] => "\x7b\x7d"
  | .object (member :: members) =>
    "\x7b\n" ++ ",\n".intercalate (prettyMembers (level + 1) (member :: members)) ++ "\n"
      ++ indentation level ++ "\x7d"

/-- The members of an object, a line each. -/
def prettyMembers (level : Nat) : List (String × Json) → List String
  | [] => []
  | (name, value) :: members =>
    (indentation level ++ quote name ++ ": " ++ value.prettyAt level)
      :: prettyMembers level members

end

/-- Indented text. -/
def pretty (value : Json) : String :=
  value.prettyAt 0

end Json

/-- The variables of a store as an object. -/
def Json.ofValues (values : List (String × Float)) : Json :=
  .object (values.map fun (name, value) => (name, .number value))

end GateFormula
