/-!
# Floating-point numbers as exact values

`Binary.ofFloat` splits a double-precision number into its sign and its magnitude
`mantissa * 2 ^ exponent`, both exact. `roundDiv` rounds a quotient of natural numbers to the
nearest one, an exact half to the even neighbour.
-/

namespace JtagPlayer

/-- What a double-precision number stands for. -/
inductive Binary where
  | notANumber
  | infinite (negative : Bool)
  /-- The magnitude is `mantissa * 2 ^ exponent`. -/
  | finite (negative : Bool) (mantissa : Nat) (exponent : Int)
  deriving DecidableEq

namespace Binary

/-- The exponent of the smallest positive number. -/
def leastExponent : Int := -1074

/-- The mantissa from which on the leading bit is explicit in the exponent field. -/
def implicitBit : Nat := 1 <<< 52

/-- The value with a given bit pattern. -/
def ofBits (bits : Nat) : Binary :=
  let negative := bits.testBit 63
  let field : Nat := bits / implicitBit % 2048
  let fraction : Nat := bits % implicitBit
  -- A field of ones stands for no number, and a field of zeros for no leading bit.
  if field = 2047 then if fraction = 0 then infinite negative else notANumber
  else if field = 0 then finite negative fraction leastExponent
  else finite negative (implicitBit + fraction) ((field : Int) - 1 + leastExponent)

/-- The value of a number. -/
def ofFloat (x : Float) : Binary :=
  ofBits x.toBits.toNat

end Binary

/-- The quotient of two numbers rounded to the nearest natural number, a half to the even one. -/
def roundDiv (num den : Nat) : Nat :=
  let quotient := num / den
  let twice := 2 * (num % den)
  if twice < den then quotient
  else if den < twice then quotient + 1
  else quotient + quotient % 2

end JtagPlayer
