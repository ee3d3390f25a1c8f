import JtagPlayer.Decimal.Layout
import JtagPlayer.Json.Value
import JtagPlayer.Text.Ascii

/-!
# Writing JSON values

`Json.write` lays a value out over lines: one item or member per line, two spaces deeper than what
holds it, a colon and a space after a name, and empty arrays and objects without a break. In strings
quotes, backslashes and control characters are escaped and nothing else is. Numbers with a
fractional type follow `NumberFormat.stream`.
-/

namespace JtagPlayer

namespace Json

/-- A lower-case hexadecimal digit. -/
def hexDigit (value : Nat) : UInt8 :=
  UInt8.ofNat (if value < 10 then 0x30 + value else 0x57 + value)

/-- A byte of a string as it stands between quotes. -/
def escapeByte (byte : UInt8) : List UInt8 :=
  if byte = Ascii.quote then [Ascii.backslash, Ascii.quote]
  else if byte = Ascii.backslash then [Ascii.backslash, Ascii.backslash]
  else if byte = 0x08 then [Ascii.backslash, Ascii.letterB]
  else if byte = 0x0c then [Ascii.backslash, Ascii.letterF]
  else if byte = 0x0a then [Ascii.backslash, Ascii.letterN]
  else if byte = 0x0d then [Ascii.backslash, Ascii.letterR]
  else if byte = 0x09 then [Ascii.backslash, Ascii.letterT]
  else if byte < 0x20 then
    [Ascii.backslash, Ascii.letterU, Ascii.zero, Ascii.zero,
      hexDigit (byte.toNat / 16), hexDigit (byte.toNat % 16)]
  else [byte]

/-- A string between quotes. -/
def writeString (value : String) : List UInt8 :=
  Ascii.quote :: (Text.toBytes value).flatMap escapeByte ++ [Ascii.quote]

/-- The bytes of ASCII characters. -/
def asciiBytes (text : List Char) : List UInt8 :=
  text.map fun c => UInt8.ofNat c.toNat

/-- The digits of a natural number. -/
def writeNat (value : Nat) : List UInt8 :=
  asciiBytes (Nat.toDigits 10 value)

/-- A number. -/
def writeNumber : Number → List UInt8
  | .integer value => (if value < 0 then [Ascii.minus] else []) ++ writeNat value.natAbs
  | .decimal value => asciiBytes (NumberFormat.stream.write value)

/-- A line break followed by the space in front of a line at the given depth. -/
def newline (depth : Nat) : List UInt8 :=
  Ascii.lineFeed :: List.replicate (2 * depth) Ascii.space

mutual

/-- A value that stands at the given depth. -/
def write (depth : Nat) : Json → List UInt8
  | null => Text.toBytes "null"
  | bool value => Text.toBytes (if value then "true" else "false")
  | number value => writeNumber value
  | string value => writeString value
  | array [] => [Ascii.openBracket, Ascii.closeBracket]
  | array (item :: items) =>
    Ascii.openBracket :: newline (depth + 1) ++ write (depth + 1) item ++
      writeMore (depth + 1) items ++ newline depth ++ [Ascii.closeBracket]
  | object [] => [Ascii.openBrace, Ascii.closeBrace]
  | object (member :: members) =>
    Ascii.openBrace :: newline (depth + 1) ++ writeMember (depth + 1) member ++
      writeMembers (depth + 1) members ++ newline depth ++ [Ascii.closeBrace]

/-- The items after a first one. -/
def writeMore (depth : Nat) : List Json → List UInt8
  | [] => []
  | item :: items =>
    Ascii.comma :: newline depth ++ write depth item ++ writeMore depth items

/-- A member of an object. -/
def writeMember (depth : Nat) : String × Json → List UInt8
  | (name, value) => writeString name ++ Ascii.colon :: Ascii.space :: write depth value

/-- The members after a first one. -/
def writeMembers (depth : Nat) : List (String × Json) → List UInt8
  | [] => []
  | member :: members =>
    Ascii.comma :: newline depth ++ writeMember depth member ++ writeMembers depth members

end

/-- A document: a value and a line break. -/
def writeDocument (value : Json) : List UInt8 :=
  write 0 value ++ [Ascii.lineFeed]

end Json

end JtagPlayer
