import GateFormula.Number.Reader

/-!
# Values of a YAML document

What a node says once its tag and its spelling are taken into account: a plain scalar
that is spelled like a null, a truth value or a number stands for it, every other
scalar is a text. Integers have 64 bits at most. Records are mappings from names, in
which the position of a field may stand for its name.
-/

namespace GateFormula.Yaml

/-- What is wrong with the content of a document. -/
inductive Mismatch where
  /-- A scalar is expected. -/
  | noScalar
  /-- A mapping is expected. -/
  | noMapping
  /-- A sequence is expected. -/
  | noSequence
  /-- A node has a tag that only this document knows. -/
  | localTag (tag : String)
  /-- The text of a scalar is not of the kind that its tag names. -/
  | illTagged (text : String)
  /-- An integer is too wide. -/
  | wideInteger (text : String)
  /-- A field is given twice. -/
  | repeatedField (name : String)
  /-- A field is missing. -/
  | missingField (name : String)
  /-- Collections are nested too deeply. -/
  | tooDeep
  /-- Aliases are followed too often. -/
  | tooManyAliases
deriving DecidableEq, Repr

/-- Wording of a mismatch. -/
def Mismatch.message : Mismatch → String
  | .noScalar => "expected a string"
  | .noMapping => "expected a mapping"
  | .noSequence => "expected a sequence"
  | .localTag tag => "unexpected tag " ++ tag
  | .illTagged text => "the value `" ++ text ++ "` does not have the type of its tag"
  | .wideInteger text => "the integer " ++ text ++ " is too wide"
  | .repeatedField name => "duplicate field `" ++ name ++ "`"
  | .missingField name => "missing field `" ++ name ++ "`"
  | .tooDeep => "recursion limit exceeded"
  | .tooManyAliases => "repetition limit exceeded"

/-- A value. -/
inductive Value where
  /-- Nothing. -/
  | null
  /-- A truth value. -/
  | bool (value : Bool)
  /-- An integer without a minus sign. -/
  | natural (magnitude : Nat)
  /-- An integer with a minus sign, which may be zero. -/
  | negated (magnitude : Nat)
  /-- Any other number. -/
  | float (value : Float)
  /-- A text. -/
  | string (text : String)
  /-- A sequence. -/
  | sequence (items : List Value)
  /-- A mapping, in which a key may occur several times. -/
  | mapping (entries : List (Value × Value))

namespace Value

/-! ### Spellings -/

/-- Whether a text spells the null. -/
def isNullText (text : String) : Bool :=
  ["null", "Null", "NULL", "~"].contains text

/-- The truth value that a text spells. -/
def readBool? (text : String) : Option Bool :=
  if ["true", "True", "TRUE"].contains text then some true
  else if ["false", "False", "FALSE"].contains text then some false
  else none

/-- The digit that a character stands for, up to fifteen. -/
def digit? (c : Char) : Option Nat :=
  if c.isDigit then some (c.toNat - '0'.toNat)
  else if 'a' ≤ c ∧ c ≤ 'f' then some (c.toNat - 'a'.toNat + 10)
  else if 'A' ≤ c ∧ c ≤ 'F' then some (c.toNat - 'A'.toNat + 10)
  else none

/-- The number behind a number once another digit of its base is read. -/
def appendDigit? (base : Nat) (number : Nat) (c : Char) : Option Nat :=
  match digit? c with
  | some d => if d < base then some (number * base + d) else none
  | none => none

/-- The number that digits of a base spell; there is at least one digit. -/
def readDigits? (base : Nat) (digits : List Char) : Option Nat :=
  if digits.isEmpty then none else digits.foldlM (appendDigit? base) 0

/-- Whether an unsigned text consists of several digits of which the first is zero. Such a
text is no number. -/
def isPadded : List Char → Bool
  | '0' :: digits => !digits.isEmpty && digits.all Char.isDigit
  | _ => false

/-- The number that an unsigned text spells in one of four bases. -/
def readNatural? : List Char → Option Nat
  | '0' :: 'x' :: digits => readDigits? 16 digits
  | '0' :: 'o' :: digits => readDigits? 8 digits
  | '0' :: 'b' :: digits => readDigits? 2 digits
  | digits => if isPadded digits then none else readDigits? 10 digits

/-- What is behind the sign of a text. -/
def unsigned (text : List Char) : List Char :=
  match text with
  | '-' :: rest => rest
  | '+' :: rest => rest
  | rest => rest

/-- Read an integer from a text, if it spells one. Integers of more than 64 bits are
refused, and those of more than 128 bits are not integers. -/
def readInteger? (text : String) : Option (Except Mismatch Value) :=
  let cs := text.toList
  match readNatural? (unsigned cs) with
  | none => none
  | some n =>
    if cs.head? = some '-' then
      if n ≤ Nat.pow 2 63 then some (.ok (.negated n))
      else if n ≤ Nat.pow 2 127 then some (.error (.wideInteger text))
      else none
    else
      if n < Nat.pow 2 64 then some (.ok (.natural n))
      else if n < Nat.pow 2 128 then some (.error (.wideInteger text))
      else none

/-- The number that a text spells as a float. The special values begin with a point, and no
decimal stands for them. -/
def readFloat? (text : String) : Option Float :=
  let cs := text.toList
  let positive := if cs.head? = some '+' then cs.tail else cs
  if [".inf", ".Inf", ".INF"].contains (String.ofList positive) then some (1 / 0)
  else if ["-.inf", "-.Inf", "-.INF"].contains text then some (-1 / 0)
  else if [".nan", ".NaN", ".NAN"].contains text then some (0 / 0)
  else if positive ≠ cs ∧ positive ≠ unsigned positive then none
  else
    match Number.read positive with
    | .ok x => if x.isFinite then some x else none
    | .error _ => none

/-- The value of a plain scalar without a tag. -/
def ofPlain (text : String) : Except Mismatch Value :=
  if text = "" || isNullText text then .ok .null
  else
    match readBool? text, readInteger? text with
    | some b, _ => .ok (.bool b)
    | none, some integer => integer
    | none, none =>
      if isPadded (unsigned text.toList) then .ok (.string text)
      else
        match readFloat? text with
        | some x => .ok (.float x)
        | none => .ok (.string text)

/-- The value of a text of the kind that a tag names; every tag that is not known is that of
a text. -/
def ofTagged (tag text : String) : Except Mismatch Value :=
  match tag with
  | "tag:yaml.org,2002:null" =>
    if isNullText text then .ok .null else .error (.illTagged text)
  | "tag:yaml.org,2002:bool" =>
    match readBool? text with
    | some b => .ok (.bool b)
    | none => .error (.illTagged text)
  | "tag:yaml.org,2002:int" =>
    (readInteger? text).getD (.error (.illTagged text))
  | "tag:yaml.org,2002:float" =>
    match readFloat? text with
    | some x => .ok (.float x)
    | none => .error (.illTagged text)
  | _ => .ok (.string text)

/-- Refuse a tag that only the document knows. -/
def checkTag (tag : Option String) : Except Mismatch Unit :=
  match tag with
  | some name => if name.startsWith "!" then .error (.localTag name) else .ok ()
  | none => .ok ()

/-- The value of a scalar. -/
def ofScalar (text : String) (plain : Bool) (tag : Option String) : Except Mismatch Value := do
  checkTag tag
  match tag with
  | some name => ofTagged name text
  | none => if plain then ofPlain text else .ok (.string text)

/-! ### Views -/

/-- A value as a number. -/
def number? : Value → Option Float
  | .natural n => some (Float.ofNat n)
  | .negated n => some (Float.ofInt (-(n : Int)))
  | .float x => some x
  | _ => none

/-- What a key refers to among fields: a position, or nothing if there is no such field.
Only texts and natural numbers are keys of a record. -/
def position? (fields : List String) : Value → Option (Option Nat)
  | .string name => some (fields.idxOf? name)
  | .natural n => some (if n < fields.length then some n else none)
  | _ => none

/-- The value of a field among entries with their positions, unless it is given twice. -/
def fieldAt? {α : Type} (entries : List (Option Nat × α)) (position : Nat) : Option (Option α) :=
  match entries.filter fun entry => entry.1 = some position with
  | [] => some none
  | [(_, value)] => some (some value)
  | _ => none

/-- The values of the fields of a record in the order of the fields. There is no answer if a
key is not that of a record or a field is given twice; keys of no field are passed over. -/
def record? {α : Type} (fields : List String) (entries : List (Value × α)) :
    Option (List (Option α)) := do
  let entries ← entries.mapM fun (key, value) => (position? fields key).map (·, value)
  (List.range fields.length).mapM (fieldAt? entries)

end Value

end GateFormula.Yaml
