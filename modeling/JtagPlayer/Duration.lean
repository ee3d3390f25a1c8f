import JtagPlayer.Decimal.Binary

/-!
# Spans and points of time

Time is counted in nanoseconds, and both spans and points of time are natural numbers of them. A
duration below `2 ^ 64` seconds can be made from a number of seconds, rounded to the nearest
nanosecond with an exact half going to the even one. An instant is the reading of a monotone clock;
readings of `2 ^ 63` seconds or more do not exist, so adding a duration to an instant can fail.
-/

namespace JtagPlayer

namespace Duration

/-- The nanoseconds in a second. -/
def second : Nat := 1000000000

/-- The nanoseconds in a microsecond. -/
def microsecond : Nat := 1000

/-- No duration is as long as this. -/
def limit : Nat := UInt64.size * second

/-- The nanoseconds in `mantissa * 2 ^ exponent` seconds. -/
def ofBinarySeconds (mantissa : Nat) (exponent : Int) : Nat :=
  roundDiv ((mantissa <<< exponent.toNat) * second) (1 <<< (-exponent).toNat)

/-- The duration of a number of seconds, if that is neither negative nor too long. -/
def ofSeconds? (seconds : Float) : Option Nat :=
  match Binary.ofFloat seconds with
  | .finite negative mantissa exponent =>
    if negative ∧ mantissa ≠ 0 then none
    else
      let duration := ofBinarySeconds mantissa exponent
      if duration < limit then some duration else none
  | _ => none

/-- The digits of `part / unit`, a number below one, without zeros at the end. Three, six or nine
digits stand for the unit. -/
def fractionDigits (places part : Nat) : List Char :=
  let digits := Nat.toDigits 10 part
  let padded := List.replicate (places - digits.length) '0' ++ digits
  (padded.reverse.dropWhile (· == '0')).reverse

/-- A whole number of units and a part of one, in decimal. -/
def amountText (whole places part : Nat) (unit : String) : String :=
  let fraction := fractionDigits places part
  let point := if fraction.isEmpty then [] else ['.']
  String.ofList (Nat.toDigits 10 whole ++ point ++ fraction) ++ unit

/-- The duration in the largest of the units second, millisecond, microsecond and nanosecond that
goes into it at least once. -/
def text (duration : Nat) : String :=
  if 1000000000 ≤ duration then
    amountText (duration / 1000000000) 9 (duration % 1000000000) "s"
  else if 1000000 ≤ duration then
    amountText (duration / 1000000) 6 (duration % 1000000) "ms"
  else if 1000 ≤ duration then
    amountText (duration / 1000) 3 (duration % 1000) "µs"
  else
    amountText duration 0 0 "ns"

end Duration

namespace Instant

/-- No reading of a clock is as late as this. -/
def limit : Nat := UInt64.size / 2 * Duration.second

/-- The instant a given time later, if there is one. -/
def after? (start : Nat) (duration : Nat) : Option Nat :=
  if start + duration < limit then some (start + duration) else none

end Instant

end JtagPlayer
