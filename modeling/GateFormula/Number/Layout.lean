import GateFormula.Number.Shortest

/-!
# How numbers are written

A layout is the list of decisions that turn the shortest digits of a double into
text: which ties are taken, where positional writing ends, what a whole number and
the special values look like. Two layouts are used, `plain` for listings and
messages and `json` for reports.
-/

namespace GateFormula.Number

/-- Decisions of a number format. -/
structure Layout where
  /-- Choice between two decimals that are equally near. -/
  tie : Tie
  /-- Least leading exponent written positionally; without one, all are. -/
  positionalFrom : Option Int
  /-- Greatest leading exponent written positionally; without one, all are. -/
  positionalTo : Option Int
  /-- What follows a whole number in positional writing. -/
  wholeTail : String
  /-- Text of not-a-number. -/
  nan : String
  /-- Text of positive infinity. -/
  infinity : String
  /-- Text of negative infinity. -/
  negativeInfinity : String

/-- Positional at every size, a tie goes up, and a whole number has no point. -/
def Layout.plain : Layout where
  tie := .up
  positionalFrom := none
  positionalTo := none
  wholeTail := ""
  nan := "NaN"
  infinity := "inf"
  negativeInfinity := "-inf"

/-- Positional from `10 ^ -5` to below `10 ^ 16`, a tie goes to the even digit, a whole
number ends in `.0`, and what JSON cannot say is null. -/
def Layout.json : Layout where
  tie := .even
  positionalFrom := some (-5)
  positionalTo := some 15
  wholeTail := ".0"
  nan := "null"
  infinity := "null"
  negativeInfinity := "null"

/-- Whether a number with this leading exponent is written positionally. -/
def Layout.isPositional (layout : Layout) (leading : Int) : Bool :=
  layout.positionalFrom.all (· ≤ leading) && layout.positionalTo.all (leading ≤ ·)

/-- Exponent of the first digit. -/
def Digits.leading (d : Digits) : Int :=
  d.exponent + digitCount d.coefficient - 1

/-- The digits as characters. -/
def Digits.characters (d : Digits) : List Char :=
  Nat.toDigits 10 d.coefficient

/-- Positional writing: the point stands where the exponent puts it. -/
def Digits.positional (wholeTail : String) (d : Digits) : String :=
  let digits := d.characters
  if 0 ≤ d.exponent then
    String.ofList (digits ++ List.replicate d.exponent.toNat '0') ++ wholeTail
  else
    let places := (-d.exponent).toNat
    if places < digits.length then
      String.ofList (digits.take (digits.length - places)) ++ "."
        ++ String.ofList (digits.drop (digits.length - places))
    else
      "0." ++ String.ofList (List.replicate (places - digits.length) '0' ++ digits)

/-- Writing with an exponent: one digit, a point if more follow, and a signed exponent. -/
def Digits.scientific (d : Digits) : String :=
  let fraction := d.characters.drop 1
  let point := if fraction.isEmpty then "" else "."
  let sign := if 0 ≤ d.leading then "+" else "-"
  String.ofList (d.characters.take 1) ++ point ++ String.ofList fraction
    ++ "e" ++ sign ++ toString d.leading.natAbs

/-- Text of a finite magnitude. -/
def Layout.magnitude (layout : Layout) (x : Float) : String :=
  if x == 0 then "0" ++ layout.wholeTail
  else
    let digits := shortest layout.tie x
    if layout.isPositional digits.leading then digits.positional layout.wholeTail
    else digits.scientific

/-- Text of a number. -/
def Layout.write (layout : Layout) (x : Float) : String :=
  if x.isNaN then layout.nan
  else if x.isInf then (if isNegative x then layout.negativeInfinity else layout.infinity)
  else (if isNegative x then "-" else "") ++ layout.magnitude x

/-- Text of a number in listings and messages. -/
def text (x : Float) : String :=
  Layout.plain.write x

end GateFormula.Number
