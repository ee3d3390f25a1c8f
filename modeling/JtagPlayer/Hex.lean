import JtagPlayer.Text.Quoted

/-!
# Bytes as hexadecimal text

`Hex.encode` writes two upper-case digits for every byte, most significant byte first. `Hex.decode`
reads digits of either case, skips blanks between them, and completes an odd number of digits with
a zero in front, so that a text denotes the same number however it is spaced.
-/

namespace JtagPlayer

namespace Hex

/-- The upper-case digit of a number below sixteen. -/
def digit (value : Nat) : Char :=
  if value < 10 then Char.ofNat (48 + value) else Char.ofNat (55 + value)

/-- The value of a digit of either case. -/
def digitValue? (c : Char) : Option Nat :=
  if '0' ≤ c ∧ c ≤ '9' then some (c.toNat - 48)
  else if 'A' ≤ c ∧ c ≤ 'F' then some (c.toNat - 55)
  else if 'a' ≤ c ∧ c ≤ 'f' then some (c.toNat - 87)
  else none

/-- The characters that may stand between digits: space, tab, line feed, form feed and carriage
return. -/
def isBlank (c : Char) : Bool :=
  c == ' ' || c == '\t' || c == '\n' || c == '\x0c' || c == '\r'

/-- The two digits of a byte. -/
def byteDigits (byte : UInt8) : List Char :=
  [digit (byte.toNat / 16), digit (byte.toNat % 16)]

/-- Two upper-case digits for every byte, in order. -/
def encode (bytes : List UInt8) : String :=
  String.ofList (bytes.flatMap byteDigits)

/-- The digits of a pattern, or of `width` zero bytes if it is absent. -/
def encodeOrZeros (bytes : Option (List UInt8)) (width : Nat) : String :=
  encode (bytes.getD (List.replicate width 0))

/-- The bytes whose digits, two for each byte, have these values. -/
def bytesOfDigits : List Nat → List UInt8
  | high :: low :: digits => UInt8.ofNat (16 * high + low) :: bytesOfDigits digits
  | _ => []

/-- Completes an odd number of digits with a zero in front. -/
def padEven (digits : List Nat) : List Nat :=
  if digits.length % 2 = 0 then digits else 0 :: digits

/-- A text that is no hexadecimal number. -/
structure Invalid where
  text : String
  deriving DecidableEq

/-- The text that reports a text which is no hexadecimal number. -/
def Invalid.message (invalid : Invalid) : String :=
  "Invalid hex string " ++ Text.quote invalid.text

/-- The bytes a text denotes. -/
def decode (text : String) : Except Invalid (List UInt8) :=
  match (text.toList.filter fun c => !isBlank c).mapM digitValue? with
  | some digits => .ok (bytesOfDigits (padEven digits))
  | none => .error { text }

end Hex

end JtagPlayer
