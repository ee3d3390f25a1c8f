import JtagPlayer.Json.Value

/-!
# The value of a decimal numeral

A `Numeral` is a number as it is spelt. An integer that fits into 64 bits is itself. Any other
numeral is read by scaling: the digits from the front, as many as fit into 64 bits, make one number;
it is rounded to double precision and then multiplied or divided once by a power of ten. This is
exact for up to fifteen digits and small powers, and a numeral whose value is too large is refused.
-/

namespace JtagPlayer

/-- A number as it is spelt: a sign, digits, digits after a point, and an exponent. -/
structure Numeral where
  negative : Bool
  whole : List Nat
  fraction : List Nat
  exponent : Option Int
  deriving DecidableEq

namespace Numeral

/-- The greatest number of 64 bits. -/
def maxWord : Nat := UInt64.size - 1

/-- Appends digits to a number while the result fits into 64 bits. The second component is the
number of digits left over. -/
def absorb : Nat → List Nat → Nat × Nat
  | value, [] => (value, 0)
  | value, digit :: digits =>
    if 10 * value + digit ≤ maxWord then absorb (10 * value + digit) digits
    else (value, (digit :: digits).length)

/-- The power of ten in double precision. -/
def powerOfTen (exponent : Nat) : Float :=
  Float.ofScientific 1 false exponent

/-- The greatest power of ten in double precision. -/
def maxPower : Nat := 308

/-- Multiplies a number by a power of ten, unless the result is too large. Powers that are out of
range below are applied in several steps. -/
def scale (value : Float) (exponent : Int) : Option Float :=
  if 0 ≤ exponent then
    if exponent ≤ maxPower then
      let scaled := value * powerOfTen exponent.toNat
      if scaled.isInf then none else some scaled
    else if value == 0.0 then some value else none
  else if -exponent ≤ maxPower then some (value / powerOfTen (-exponent).toNat)
  else if value == 0.0 then some value
  -- The power itself is too small for a number; a quotient that becomes zero ends this soon.
  else scale (value / powerOfTen maxPower) (exponent + maxPower)
termination_by (-exponent).toNat
decreasing_by
  simp only [maxPower] at *
  omega

/-- The magnitude of a numeral in double precision. -/
def magnitude? (numeral : Numeral) : Option Float :=
  let (value, dropped) := absorb 0 numeral.whole
  let (value, unused) := absorb value numeral.fraction
  let places : Int := (numeral.fraction.length : Int) - unused
  scale value.toUInt64.toFloat (dropped - places + numeral.exponent.getD 0)

/-- The value of a numeral in double precision. -/
def decimal? (numeral : Numeral) : Option Number :=
  numeral.magnitude?.map fun magnitude =>
    Number.decimal (if numeral.negative then -magnitude else magnitude)

/-- The value of a numeral. Zero with a minus sign is no integer. -/
def value? (numeral : Numeral) : Option Number :=
  let (value, dropped) := absorb 0 numeral.whole
  if numeral.fraction = [] ∧ numeral.exponent = none ∧ dropped = 0 then
    if !numeral.negative then some (.integer value)
    else if 0 < value ∧ 2 * value ≤ UInt64.size then some (.integer (-value))
    else numeral.decimal?
  else numeral.decimal?

end Numeral

end JtagPlayer
