import JtagPlayer.Pattern

/-!
# The bits of a scan

A scan shifts three patterns through a register in one go: a header, the payload and a trailer.
The bits of each leave last byte first and, within a byte, lowest bit first, so `Pattern.bits` lists
the binary digits of a big-endian number from the lowest one up. `Pattern.bytesOf` puts the bits
that came back in the same places.

`Pattern.accepts` tells whether the bytes that came back are the expected ones where the mask asks
for it.
-/

namespace JtagPlayer

/-- The eight bits of a byte, lowest first. -/
def byteBits (byte : UInt8) : List Bool :=
  (List.range 8).map fun index => byte.toNat.testBit index

/-- The number whose bits, lowest first, are given. -/
def numberOfBits : List Bool → Nat
  | [] => 0
  | bit :: bits => bit.toNat + 2 * numberOfBits bits

/-- The bytes that hold the given bits, lowest first, eight to a byte. -/
def bytesOfBits : List Bool → List UInt8
  | [] => []
  | bit :: bits =>
    UInt8.ofNat (numberOfBits (bit :: bits.take 7)) :: bytesOfBits (bits.drop 7)
termination_by bits => bits.length
decreasing_by
  rw [List.length_drop, List.length_cons]
  omega

namespace Pattern

/-- The bytes to send, as far as the pattern has them. -/
def supplied (pattern : Pattern) : List UInt8 :=
  (pattern.tdi.getD []).take pattern.numBytes

/-- The number of bytes to send that the pattern does not have. -/
def missing (pattern : Pattern) : Nat :=
  pattern.numBytes - pattern.supplied.length

/-- The bits that a pattern sends, in order. Bytes that it does not have are zero. -/
def bits (pattern : Pattern) : List Bool :=
  let bytes := pattern.supplied ++ List.replicate pattern.missing 0
  (bytes.reverse.flatMap byteBits).take pattern.length.toNat

/-- The number of bits that are sent for missing bytes. -/
def missingBits (pattern : Pattern) : Nat :=
  min pattern.length.toNat (8 * pattern.missing)

/-- The bits that are sent for the bytes that the pattern has. -/
def suppliedBits (pattern : Pattern) : List Bool :=
  (pattern.supplied.reverse.flatMap byteBits).take (pattern.length.toNat - 8 * pattern.missing)

/-- Missing bytes are the last ones of a pattern and are sent first. -/
theorem bits_eq_append (pattern : Pattern) :
    pattern.bits = List.replicate pattern.missingBits false ++ pattern.suppliedBits := by
  have hzero : byteBits 0 = List.replicate 8 false := by decide
  have hzeros : (List.replicate pattern.missing 0).flatMap byteBits =
      List.replicate (8 * pattern.missing) false := by
    rw [List.flatMap_replicate, hzero, List.flatten_replicate_replicate, Nat.mul_comm]
  rw [bits, suppliedBits, missingBits, List.reverse_append, List.reverse_replicate,
    List.flatMap_append, hzeros, List.take_append, List.take_replicate, List.length_replicate]

/-- The bytes, most significant first, that hold the bits received while a pattern was sent. -/
def bytesOf (received : List Bool) : List UInt8 :=
  (bytesOfBits received).reverse

/-- The bits of the first byte that belong to the pattern. -/
def leadingMask (pattern : Pattern) : UInt8 :=
  UInt8.ofNat ((1 <<< pattern.leadingBits) - 1)

/-- Whether expected and observed bytes agree where the mask asks for it, as far as there are bytes
of both. Every bit counts where the mask has no byte, and none outside `scope` in the first one. -/
def agree (scope : UInt8) : List UInt8 → List UInt8 → List UInt8 → Bool
  | mask, expected :: moreExpected, observed :: moreObserved =>
    let care := mask.headD 0xFF &&& scope
    expected &&& care == observed &&& care && agree 0xFF mask.tail moreExpected moreObserved
  | _, _, _ => true

/-- Whether the observed bytes are the expected ones. Without expected bytes all are. -/
def accepts (pattern : Pattern) (observed : List UInt8) : Bool :=
  match pattern.tdo with
  | none => true
  | some expected => agree pattern.leadingMask (pattern.mask.getD []) expected observed

end Pattern

/-- The patterns of one scan, in the order in which they are sent. -/
structure Segments where
  header : Pattern := .empty
  payload : Pattern := .empty
  trailer : Pattern := .empty
  deriving DecidableEq, Inhabited

namespace Segments

/-- The pattern with a given role. -/
def get (segments : Segments) : Role → Pattern
  | .header => segments.header
  | .payload => segments.payload
  | .trailer => segments.trailer

/-- Replaces the pattern with a given role. -/
def set (segments : Segments) (pattern : Pattern) : Role → Segments
  | .header => { segments with header := pattern }
  | .payload => { segments with payload := pattern }
  | .trailer => { segments with trailer := pattern }

/-- The number of bits of a scan. -/
def length (segments : Segments) : Nat :=
  segments.header.length.toNat + segments.payload.length.toNat + segments.trailer.length.toNat

@[simp] theorem get_set (segments : Segments) (pattern : Pattern) (role : Role) :
    (segments.set pattern role).get role = pattern := by
  cases role <;> rfl

theorem get_set_of_ne (segments : Segments) (pattern : Pattern) {role other : Role}
    (hother : other ≠ role) : (segments.set pattern role).get other = segments.get other := by
  cases role <;> cases other <;> simp_all [get, set]

end Segments

/-- The bytes received during a scan, most significant first, for each of its segments. -/
structure Samples where
  header : List UInt8
  payload : List UInt8
  trailer : List UInt8
  deriving DecidableEq

namespace Samples

/-- All bytes received, segment after segment. -/
def buffer (samples : Samples) : List UInt8 :=
  samples.header ++ samples.payload ++ samples.trailer

/-- Where the payload begins and ends among all bytes. -/
def payloadRange (samples : Samples) : Nat × Nat :=
  (samples.header.length, samples.header.length + samples.payload.length)

end Samples

end JtagPlayer
