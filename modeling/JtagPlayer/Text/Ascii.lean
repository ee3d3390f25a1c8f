/-!
# Text as bytes

Streams and reports are read and written as bytes. This module names the bytes of the characters
that their format is made of, and passes between a text and its encoding: `Text.ofBytes?_toBytes`
says that a text is recovered from its bytes.
-/

namespace JtagPlayer

namespace Ascii

/-- The byte of a line feed. -/
def lineFeed : UInt8 := 0x0a
/-- The byte of a space. -/
def space : UInt8 := 0x20
/-- The byte of a double quote. -/
def quote : UInt8 := 0x22
/-- The byte of a plus sign. -/
def plus : UInt8 := 0x2b
/-- The byte of a comma. -/
def comma : UInt8 := 0x2c
/-- The byte of a minus sign. -/
def minus : UInt8 := 0x2d
/-- The byte of a point. -/
def point : UInt8 := 0x2e
/-- The byte of the digit zero. -/
def zero : UInt8 := 0x30
/-- The byte of a colon. -/
def colon : UInt8 := 0x3a
/-- The byte of an opening bracket. -/
def openBracket : UInt8 := 0x5b
/-- The byte of a backslash. -/
def backslash : UInt8 := 0x5c
/-- The byte of a closing bracket. -/
def closeBracket : UInt8 := 0x5d
/-- The byte of the letter b. -/
def letterB : UInt8 := 0x62
/-- The byte of the letter f. -/
def letterF : UInt8 := 0x66
/-- The byte of the letter n. -/
def letterN : UInt8 := 0x6e
/-- The byte of the letter r. -/
def letterR : UInt8 := 0x72
/-- The byte of the letter t. -/
def letterT : UInt8 := 0x74
/-- The byte of the letter u. -/
def letterU : UInt8 := 0x75
/-- The byte of an opening brace. -/
def openBrace : UInt8 := 0x7b
/-- The byte of a closing brace. -/
def closeBrace : UInt8 := 0x7d

/-- Whether a byte is a decimal digit. -/
def isDigit (byte : UInt8) : Bool :=
  0x30 ≤ byte && byte ≤ 0x39

/-- The value of a decimal digit. -/
def digitValue (byte : UInt8) : Nat :=
  byte.toNat - 0x30

/-- The value of a hexadecimal digit of either case. -/
def hexValue? (byte : UInt8) : Option Nat :=
  if 0x30 ≤ byte ∧ byte ≤ 0x39 then some (byte.toNat - 0x30)
  else if 0x41 ≤ byte ∧ byte ≤ 0x46 then some (byte.toNat - 0x37)
  else if 0x61 ≤ byte ∧ byte ≤ 0x66 then some (byte.toNat - 0x57)
  else none

end Ascii

namespace Text

/-- The bytes that encode a text. -/
def toBytes (text : String) : List UInt8 :=
  text.toByteArray.data.toList

/-- The text that some bytes encode. -/
def ofBytes? (bytes : List UInt8) : Option String :=
  String.fromUTF8? ⟨bytes.toArray⟩

/-- A text is recovered from its bytes. -/
@[simp] theorem ofBytes?_toBytes (text : String) : ofBytes? (toBytes text) = some text := by
  simp [ofBytes?, toBytes, String.fromUTF8?, text.isValidUTF8, String.fromUTF8]

end Text

end JtagPlayer
