import JtagPlayer.Decimal.Shortest

/-!
# Writing numbers

A `NumberFormat` fixes which shortest decimal is taken and how it is laid out: for which places of
the leading digit it is written positionally, whether a whole number keeps a digit after the point,
and the words for what is no number. `NumberFormat.write` applies it.

Two formats are used: `NumberFormat.message` in messages and `NumberFormat.stream` in written
instruction streams.
-/

namespace JtagPlayer

/-- The decisions in writing a number. -/
structure NumberFormat where
  /-- The choice between two shortest decimals that are equally near. -/
  tie : Tie
  /-- Whether a number whose leading digit has this place is written without an exponent. -/
  positional : Int → Bool
  /-- Whether a whole number in positional form ends in a point and a zero. -/
  fraction : Bool
  /-- The text of a value that is no number. -/
  notANumber : String
  /-- The text of positive infinity. -/
  infinity : String

namespace NumberFormat

/-- Messages never use an exponent and write whole numbers without a point. -/
def message : NumberFormat where
  tie := .upward
  positional _ := true
  fraction := false
  notANumber := "NaN"
  infinity := "inf"

/-- A stream writes numbers from `1e-5` up to but not including `1e16` positionally, with at least
one digit after the point. It has no text for what is not finite but the null value. -/
def stream : NumberFormat where
  tie := .toEven
  positional place := -5 ≤ place ∧ place ≤ 15
  fraction := true
  notANumber := "null"
  infinity := "null"

/-- Decimal digits with the point placed by the exponent. -/
def positionalText (format : NumberFormat) (decimal : Decimal) : List Char :=
  let digits := Nat.toDigits 10 decimal.digits
  if 0 ≤ decimal.exponent then
    digits ++ List.replicate decimal.exponent.toNat '0' ++
      if format.fraction then ['.', '0'] else []
  else
    let places := (-decimal.exponent).toNat
    let padded := List.replicate (places + 1 - digits.length) '0' ++ digits
    padded.take (padded.length - places) ++ '.' :: padded.drop (padded.length - places)

/-- One digit before the point, the others after it, and a signed exponent. -/
def scientificText (decimal : Decimal) : List Char :=
  let digits := Nat.toDigits 10 decimal.digits
  let place := decimal.exponent + (digits.length - 1 : Nat)
  let fraction := if digits.length = 1 then [] else '.' :: digits.drop 1
  digits.take 1 ++ fraction ++
    'e' :: (if place < 0 then '-' else '+') :: Nat.toDigits 10 place.natAbs

/-- The text of the magnitude of a finite number. -/
def magnitudeText (format : NumberFormat) (decimal : Decimal) : List Char :=
  if format.positional (decimal.exponent + (Decimal.numDigits decimal.digits - 1 : Nat)) then
    format.positionalText decimal
  else scientificText decimal

/-- The text of a value. -/
def writeBinary (format : NumberFormat) : Binary → List Char
  | .notANumber => format.notANumber.toList
  | .infinite negative => (if negative then ['-'] else []) ++ format.infinity.toList
  | .finite negative mantissa exponent =>
    (if negative then ['-'] else []) ++
      format.magnitudeText (Decimal.shortest format.tie mantissa exponent)

/-- The text of a number. -/
def write (format : NumberFormat) (x : Float) : List Char :=
  format.writeBinary (Binary.ofFloat x)

end NumberFormat

end JtagPlayer
