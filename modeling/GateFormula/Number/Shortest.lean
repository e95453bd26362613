import GateFormula.Number.Binary

/-!
# The fewest digits that read back

The reals that round to a positive double form an interval around it. Of all
decimals in that interval the printed one has the fewest digits, and among those
it is the nearest to the double. The search tries one digit, then two, and so on;
on each decimal grid only the two neighbours of the double need a test, since a
grid that meets the interval meets it in one of them. All of it is arithmetic on
natural numbers over a common denominator.
-/

namespace GateFormula.Number

/-- Which of two grid points is taken when both are equally near. -/
inductive Tie where
  /-- The greater one. -/
  | up
  /-- The one whose last digit is even. -/
  | even
deriving DecidableEq, Repr

/-- The decimal `coefficient * 10 ^ exponent`. -/
structure Digits where
  /-- The digits, as a number. -/
  coefficient : Nat
  /-- The place of the last digit. -/
  exponent : Int
deriving DecidableEq, Repr

/-- A double with the interval of reals that round to it, over one denominator. -/
structure Span where
  /-- Lower end. -/
  low : Nat
  /-- The double itself. -/
  value : Nat
  /-- Upper end. -/
  high : Nat
  /-- Common denominator, never zero. -/
  denominator : Nat
  /-- Whether the ends round to the double too. -/
  closed : Bool
deriving DecidableEq, Repr

/-- Interval of a positive magnitude. Below a power of two the doubles lie twice as
dense, so the lower half is half as wide there. The ends belong to the interval
when the mantissa is even. -/
def Binary.span (b : Binary) : Span :=
  let below := if b.mantissa = Nat.pow 2 52 ∧ b.exponent ≠ -1074 then 1 else 2
  let scale := Nat.pow 2 (b.exponent - 2).toNat
  { low := (4 * b.mantissa - below) * scale
    value := 4 * b.mantissa * scale
    high := (4 * b.mantissa + 2) * scale
    denominator := Nat.pow 2 (2 - b.exponent).toNat
    closed := b.mantissa % 2 = 0 }

/-- Number of decimal digits, one for zero. -/
def digitCount (n : Nat) : Nat :=
  (Nat.toDigits 10 n).length

/-- Exponent of the leading decimal digit. No positive double lies below
`10 ^ -324`, so that scale makes its whole part count the digits. -/
def Span.leading (s : Span) : Int :=
  (digitCount (s.value * Nat.pow 10 324 / s.denominator) : Int) - 325

/-- The interval measured in units of `10 ^ exponent`. -/
def Span.inUnits (s : Span) (exponent : Int) : Span :=
  let scale := Nat.pow 10 (-exponent).toNat
  { s with
    low := s.low * scale
    value := s.value * scale
    high := s.high * scale
    denominator := s.denominator * Nat.pow 10 exponent.toNat }

/-- Whether the whole number `d` lies in the interval. -/
def Span.admits (s : Span) (d : Nat) : Bool :=
  let point := d * s.denominator
  if s.closed then s.low ≤ point && point ≤ s.high else s.low < point && point < s.high

/-- The nearer of the two whole neighbours of the value. -/
def Span.nearer (tie : Tie) (s : Span) : Nat :=
  let below := s.value / s.denominator
  let twice := 2 * (s.value % s.denominator)
  if twice < s.denominator then below
  else if s.denominator < twice then below + 1
  else match tie with
    | .up => below + 1
    | .even => if below % 2 = 0 then below else below + 1

/-- The whole number in the interval that is nearest to the value, if there is one. -/
def Span.pick (tie : Tie) (s : Span) : Option Nat :=
  let below := s.value / s.denominator
  match s.admits below, s.admits (below + 1) with
  | true, true => some (s.nearer tie)
  | true, false => some below
  | false, true => some (below + 1)
  | false, false => none

/-- Drop zeros at the end of the coefficient; `fuel` bounds their number. -/
def Digits.strip : Nat → Digits → Digits
  | 0, d => d
  | fuel + 1, d =>
    if d.coefficient % 10 = 0 then Digits.strip fuel ⟨d.coefficient / 10, d.exponent + 1⟩ else d

/-- Search the grids with `count`, `count + 1`, … digits; `fuel` bounds their number. -/
def Span.search (tie : Tie) (s : Span) (leading : Int) : (fuel count : Nat) → Digits
  | 0, count =>
    let exponent := leading + 1 - count
    ⟨(s.inUnits exponent).nearer tie, exponent⟩
  | fuel + 1, count =>
    let exponent := leading + 1 - count
    match (s.inUnits exponent).pick tie with
    | some d => ⟨d, exponent⟩
    | none => Span.search tie s leading fuel (count + 1)

/-- Shortest decimal of a positive finite double. Seventeen digits always suffice. -/
def shortest (tie : Tie) (x : Float) : Digits :=
  let span := (Binary.ofFloat x).span
  (span.search tie span.leading 16 1).strip 17

end GateFormula.Number
