/-!
# Reading decimal numbers

A number is an optional sign followed by `inf`, `infinity` or `nan` in any case, or
by decimal digits with an optional point among, before or after them and an
optional exponent. The value is the double nearest to the decimal. The grammar is
read from a list of characters, each reader returning what follows it.
-/

namespace GateFormula.Number

/-- Why a text is no number. -/
inductive ReadError where
  /-- There is no text. -/
  | empty
  /-- The text does not have the form of a number. -/
  | invalid
deriving DecidableEq, Repr

/-- Wording of a refusal. -/
def ReadError.message : ReadError → String
  | .empty => "cannot parse float from empty string"
  | .invalid => "invalid float literal"

/-- Value of a run of decimal digits after a value that stands before it. -/
def digitsValue (start : Nat) (digits : List Char) : Nat :=
  digits.foldl (fun n c => n * 10 + (c.toNat - '0'.toNat)) start

/-- The sign, true for minus, and what follows it. -/
def readSign : List Char → Bool × List Char
  | '-' :: rest => (true, rest)
  | '+' :: rest => (false, rest)
  | rest => (false, rest)

/-- An exponent that takes up the whole text; no text is the exponent zero. -/
def readExponent : List Char → Option Int
  | [] => some 0
  | mark :: rest =>
    if mark = 'e' ∨ mark = 'E' then
      let (negative, digits) := readSign rest
      if digits.isEmpty || !digits.all Char.isDigit then none
      else
        let n := digitsValue 0 digits
        some (if negative then -(n : Int) else n)
    else none

/-- The double nearest to `coefficient * 10 ^ exponent`. A coefficient of `count`
digits whose number lies beyond the range of doubles by any margin is infinite or
zero at once, so a huge exponent costs nothing. -/
def nearestDouble (coefficient : Nat) (count : Nat) (exponent : Int) : Float :=
  if coefficient = 0 then 0
  else if 400 < exponent + count then 1 / 0
  else if exponent + count < -400 then 0
  else if 0 ≤ exponent then Float.ofScientific coefficient false exponent.toNat
  else Float.ofScientific coefficient true (-exponent).toNat

/-- An unsigned decimal that takes up the whole text. -/
def readMagnitude (text : List Char) : Option Float :=
  let whole := text.takeWhile Char.isDigit
  let afterWhole := text.dropWhile Char.isDigit
  let (fraction, rest) := match afterWhole with
    | '.' :: more => (more.takeWhile Char.isDigit, more.dropWhile Char.isDigit)
    | more => ([], more)
  if whole.isEmpty && fraction.isEmpty then none
  else
    (readExponent rest).map fun exponent =>
      let coefficient := digitsValue (digitsValue 0 whole) fraction
      nearestDouble coefficient (Nat.toDigits 10 coefficient).length (exponent - fraction.length)

/-- Names of the special values, by their lower-case letters. -/
def readSpecial (text : List Char) : Option Float :=
  match text.map Char.toLower with
  | ['i', 'n', 'f'] => some (1 / 0)
  | ['i', 'n', 'f', 'i', 'n', 'i', 't', 'y'] => some (1 / 0)
  | ['n', 'a', 'n'] => some (0 / 0)
  | _ => none

/-- The number that a text spells. -/
def read (text : List Char) : Except ReadError Float :=
  if text.isEmpty then .error .empty
  else
    let (negative, rest) := readSign text
    match (readSpecial rest).or (readMagnitude rest) with
    | some value => .ok (if negative then -value else value)
    | none => .error .invalid

end GateFormula.Number
