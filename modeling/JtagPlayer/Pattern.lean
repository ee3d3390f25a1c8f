import JtagPlayer.Hex
import JtagPlayer.Register

/-!
# Bit patterns and their persistence

A `Pattern` is a number of bits together with up to four byte strings: the bits to send, the bits
expected back, the mask of the bits to compare, and a mask that is stored but not used. Bytes are
most significant first; if the length is no multiple of eight, the first byte holds the remaining
bits in its low end.

The same type describes a stored register and the change that an instruction makes to it.
`Pattern.merge` applies such a change: what is not supplied persists as long as the length does,
except the expected bits, which are never kept.
-/

namespace JtagPlayer

/-- The byte strings of a pattern. -/
inductive PatternField where
  | tdi
  | tdo
  | mask
  | smask
  deriving DecidableEq

/-- The name of a byte string in messages. -/
def PatternField.name : PatternField → String
  | .tdi => "TDI"
  | .tdo => "TDO"
  | .mask => "MASK"
  | .smask => "SMASK"

/-- A number of bits, with the byte strings that go with them. -/
structure Pattern where
  length : UInt32 := 0
  tdi : Option (List UInt8) := none
  tdo : Option (List UInt8) := none
  mask : Option (List UInt8) := none
  smask : Option (List UInt8) := none
  deriving DecidableEq, Inhabited

/-- Why a change to a stored pattern is refused. -/
inductive PatternError where
  /-- A payload must have at least one bit. -/
  | emptyPayload (name : RegisterName)
  /-- A new length needs new bits to send. -/
  | missingTdi (name : RegisterName) (length : UInt32)
  /-- A byte string is longer than the pattern. -/
  | oversized (name : RegisterName) (field : PatternField) (expected got : Nat)
  deriving DecidableEq

namespace PatternError

/-- The text that reports a refused change. -/
def message : PatternError → String
  | emptyPayload register => s!"Length of {register.name} must be greater than 0"
  | missingTdi register length =>
    s!"Length of {register.name} changed to {length.toNat} but no TDI value was provided"
  | oversized register field expected got =>
    s!"{field.name} of {register.name} has {got} bytes, but at most {expected} fit the register"

end PatternError

namespace Pattern

/-- The pattern without bits. -/
def empty : Pattern := {}

/-- The number of bytes that hold the bits. -/
def numBytes (pattern : Pattern) : Nat :=
  (pattern.length.toNat + 7) / 8

/-- The number of bits in the first byte, eight if the length is a multiple of eight. -/
def leadingBits (pattern : Pattern) : Nat :=
  if pattern.length.toNat % 8 = 0 then 8 else pattern.length.toNat % 8

/-- The text of one byte string, `NULL` if it is absent. -/
def fieldText (bytes : Option (List UInt8)) : String :=
  match bytes with
  | some bytes => Hex.encode bytes
  | none => "NULL"

/-- The length and the four byte strings in parentheses. -/
def text (pattern : Pattern) : String :=
  let fields := [pattern.tdi, pattern.tdo, pattern.mask, pattern.smask].map fieldText
  "(" ++ String.intercalate "," (toString pattern.length.toNat :: fields) ++ ")"

/-- Refuses a byte string that is longer than its register. -/
def checkWidth (name : RegisterName) (field : PatternField) (width : Nat) :
    Option (List UInt8) → Except PatternError Unit
  | none => .ok ()
  | some bytes =>
    if width < bytes.length then .error (.oversized name field width bytes.length) else .ok ()

/-- Fills a byte string with zero bytes in front up to the width of its register. -/
def widen (width : Nat) (bytes : List UInt8) : List UInt8 :=
  List.replicate (width - bytes.length) 0 ++ bytes

/-- The part of a stored byte string that survives a change of the given length. -/
def carried (stored delta : Pattern) (bytes : Option (List UInt8)) : Option (List UInt8) :=
  if stored.length = delta.length then bytes else none

/-- The stored pattern after the change `delta`.

Length zero clears a header or trailer and is refused for a payload. Otherwise every supplied byte
string must fit into the register and is widened to it; the bits to send and the masks persist where
they are not supplied and the length is unchanged; there must be bits to send in the end. -/
def merge (name : RegisterName) (stored delta : Pattern) : Except PatternError Pattern := do
  if delta.length = 0 then
    if name.isPayload then throw (.emptyPayload name) else return empty
  let width := delta.numBytes
  checkWidth name .tdi width delta.tdi
  checkWidth name .tdo width delta.tdo
  checkWidth name .mask width delta.mask
  checkWidth name .smask width delta.smask
  match (delta.tdi.map (widen width)).or (carried stored delta stored.tdi) with
  | none => throw (.missingTdi name delta.length)
  | some tdi =>
    return {
      length := delta.length
      tdi := some tdi
      -- The bits expected of one scan are not expected of the next.
      tdo := delta.tdo.map (widen width)
      mask := (delta.mask.map (widen width)).or (carried stored delta stored.mask)
      smask := (delta.smask.map (widen width)).or (carried stored delta stored.smask) }

end Pattern

end JtagPlayer
