/-!
# Exact binary magnitudes

A finite double is `mantissa * 2 ^ exponent` with a sign. Everything here that
reads or rounds a double works on that pair of integers, so no step depends on
how the machine rounds. Rounding to a whole number and the remainder of a
division are exact; only the final conversion back builds a double again, and
there the value always fits.
-/

namespace GateFormula.Number

/-- The magnitude `mantissa * 2 ^ exponent` of a finite double. -/
structure Binary where
  /-- Below `2 ^ 53`. -/
  mantissa : Nat
  /-- At least `-1074`, the exponent of the smallest subnormal. -/
  exponent : Int
deriving DecidableEq, Repr

/-- Whether the sign bit is set, which also tells `-0` from `0`. -/
def isNegative (x : Float) : Bool :=
  x.toBits >>> 63 == 1

/-- Magnitude of a finite double, read off its bits. -/
def Binary.ofFloat (x : Float) : Binary :=
  let bits := x.toBits
  let fraction := (bits &&& 0xFFFFFFFFFFFFF).toNat
  let biased := ((bits >>> 52) &&& 0x7FF).toNat
  if biased = 0 then ⟨fraction, -1074⟩ else ⟨fraction + Nat.pow 2 52, (biased : Int) - 1075⟩

/-- The double `2 ^ e` for an exponent between `-1074` and `1023`. -/
def twoPow (e : Int) : Float :=
  if e < -1022 then Float.ofBits ((1 : UInt64) <<< (e + 1074).toNat.toUInt64)
  else Float.ofBits ((e + 1023).toNat.toUInt64 <<< 52)

/-- The double of a magnitude; exact when the mantissa is below `2 ^ 53`. -/
def Binary.toFloat (b : Binary) : Float :=
  Float.ofNat b.mantissa * twoPow b.exponent

/-- Give a magnitude the sign of another number. -/
def withSignOf (source magnitude : Float) : Float :=
  if isNegative source then -magnitude else magnitude

/-- The three ways in which a magnitude is brought to a whole number. -/
inductive Rounding where
  /-- Drop the fraction. -/
  | down
  /-- Go to the next whole number unless there is no fraction. -/
  | up
  /-- Go to the nearest whole number, and up from a half. -/
  | half
deriving DecidableEq, Repr

/-- Round a magnitude with a negative exponent, whose fraction is `2 ^ -exponent`
parts wide. -/
def Binary.whole (rounding : Rounding) (b : Binary) : Nat :=
  let parts := Nat.pow 2 (-b.exponent).toNat
  let base := b.mantissa / parts
  let rest := b.mantissa % parts
  match rounding with
  | .down => base
  | .up => if rest = 0 then base else base + 1
  | .half => if parts ≤ 2 * rest then base + 1 else base

/-- Round a double to a whole number. Infinities, not-a-number and doubles that
are whole already stay as they are, and the sign is kept, also on zero. -/
def roundWith (rounding : Rounding) (x : Float) : Float :=
  if x.isFinite then
    let b := Binary.ofFloat x
    if 0 ≤ b.exponent then x else withSignOf x (Float.ofNat (b.whole rounding))
  else x

/-- Whole part: the fraction is dropped. -/
def truncate (x : Float) : Float :=
  roundWith .down x

/-- The greatest whole number that is not above `x`. -/
def floor (x : Float) : Float :=
  roundWith (if isNegative x then .up else .down) x

/-- The least whole number that is not below `x`. -/
def ceiling (x : Float) : Float :=
  roundWith (if isNegative x then .down else .up) x

/-- The nearest whole number, and away from zero from a half. -/
def nearest (x : Float) : Float :=
  roundWith .half x

/-- Remainder of two finite magnitudes, the second not zero, on their common
exponent. -/
def Binary.remainder (a b : Binary) : Binary :=
  let e := min a.exponent b.exponent
  let dividend := a.mantissa * Nat.pow 2 (a.exponent - e).toNat
  let divisor := b.mantissa * Nat.pow 2 (b.exponent - e).toNat
  ⟨dividend % divisor, e⟩

/-- Remainder of the division whose quotient is truncated. It has the sign of the
dividend, is exact for finite operands, leaves the dividend alone under an
infinite divisor, and is not a number where the division has no meaning. -/
def remainder (x y : Float) : Float :=
  if x.isNaN || y.isNaN || x.isInf || y == 0 then 0 / 0
  else if y.isInf then x
  else withSignOf x ((Binary.ofFloat x).remainder (Binary.ofFloat y)).toFloat

end GateFormula.Number
