import JtagPlayer.Decimal.Binary

/-!
# The shortest decimal that reads back

Between its two neighbours every double-precision number has an interval of reals that round to it.
`Decimal.shortest` gives the decimal in that interval with the fewest digits and, among those, the
one nearest to the number itself; where two are equally near, a `Tie` decides. The search tries one
digit, two digits and so on; on each decimal grid only the two neighbours of the number can be the
nearest point of the interval. Seventeen digits always suffice.
-/

namespace JtagPlayer

/-- The number `digits * 10 ^ exponent`. -/
structure Decimal where
  digits : Nat
  exponent : Int
  deriving DecidableEq

/-- The choice between two decimals that are equally near. -/
inductive Tie where
  /-- The one whose last digit is even. -/
  | toEven
  /-- The one of greater magnitude. -/
  | upward
  deriving DecidableEq

namespace Decimal

/-- The reals that round to a number, as multiples of one unit: the number itself, the bounds on
both sides, and whether the bounds belong to the interval. The unit is `unitNum / unitDen`. -/
structure RoundingInterval where
  value : Nat
  lower : Nat
  upper : Nat
  closed : Bool
  unitNum : Nat
  unitDen : Nat

/-- The rounding interval of `mantissa * 2 ^ exponent`, in quarters of the last place. The gap below
a power of two is half as wide, except at the bottom of the range. -/
def RoundingInterval.of (mantissa : Nat) (exponent : Int) : RoundingInterval :=
  let narrow := mantissa = Binary.implicitBit ∧ Binary.leastExponent < exponent
  { value := 4 * mantissa
    lower := 4 * mantissa - if narrow then 1 else 2
    upper := 4 * mantissa + 2
    closed := mantissa % 2 == 0
    unitNum := 1 <<< (exponent - 2).toNat
    unitDen := 1 <<< (2 - exponent).toNat }

/-- Whether `num / den` units lie in the interval. -/
def RoundingInterval.contains (interval : RoundingInterval) (num den : Nat) : Bool :=
  if interval.closed then interval.lower * den ≤ num ∧ num ≤ interval.upper * den
  else interval.lower * den < num ∧ num < interval.upper * den

/-- The point of the grid of multiples of `10 ^ place` that lies in the interval and is nearest to
its number. -/
def nearestOnGrid? (tie : Tie) (interval : RoundingInterval) (place : Int) : Option Nat :=
  -- One step of the grid measured in units is `stepNum / stepDen`.
  let stepNum := Nat.pow 10 place.toNat * interval.unitDen
  let stepDen := Nat.pow 10 (-place).toNat * interval.unitNum
  let below := interval.value * stepDen / stepNum
  let above := below + 1
  let low := interval.contains (below * stepNum) stepDen
  let high := interval.contains (above * stepNum) stepDen
  if low ∧ high then
    match compare (2 * interval.value * stepDen) ((below + above) * stepNum) with
    | .lt => some below
    | .gt => some above
    | .eq => if tie = .toEven ∧ below % 2 = 0 then some below else some above
  else if low then some below
  else if high then some above
  else none

/-- Drops zeros at the end, at most `count` of them. -/
def trim : Nat → Decimal → Decimal
  | 0, decimal => decimal
  | count + 1, decimal =>
    if decimal.digits % 10 = 0 then trim count ⟨decimal.digits / 10, decimal.exponent + 1⟩
    else decimal

/-- The number of decimal digits of a number. -/
def numDigits (n : Nat) : Nat :=
  (Nat.toDigits 10 n).length

/-- The place of the leading digit of the positive number `num / den`. Below one it is given by the
digits of the quotient of `den - 1` and `num`, the greatest number that is less than the inverse. -/
def leadingPlace (num den : Nat) : Int :=
  if den ≤ num then (numDigits (num / den) : Int) - 1
  else -(numDigits ((den - 1) / num) : Int)

/-- The shortest decimal for a positive number, by trying `count` more lengths from `size` on. -/
def search (tie : Tie) (interval : RoundingInterval) (place : Int) : Nat → Nat → Decimal
  | 0, size => ⟨0, place - size + 1⟩
  | count + 1, size =>
    match nearestOnGrid? tie interval (place - size + 1) with
    | some digits => trim size ⟨digits, place - size + 1⟩
    | none => search tie interval place count (size + 1)

/-- The shortest decimal that reads back as `mantissa * 2 ^ exponent`. -/
def shortest (tie : Tie) (mantissa : Nat) (exponent : Int) : Decimal :=
  if mantissa = 0 then ⟨0, 0⟩
  else
    let interval := RoundingInterval.of mantissa exponent
    let place := leadingPlace (interval.value * interval.unitNum) interval.unitDen
    search tie interval place 17 1

end Decimal

end JtagPlayer
