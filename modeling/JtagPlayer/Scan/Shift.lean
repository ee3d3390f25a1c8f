import JtagPlayer.Scan.Segments
import JtagPlayer.Tap.Driver

/-!
# Shifting a scan

With the device in a shift state, `Segments.shift` sends the bits of all segments as one stream, one
clock each, and collects the answers. TMS is low at every clock but the last, at which the device
leaves the shift state.
-/

namespace JtagPlayer

namespace TapDriver

/-- Sends bits in order, the last one with TMS high if `leave` is set. The answers join those
already received, latest first. -/
def shiftBits (leave : Bool) : List Bool → List Bool → Action TapDriver (List Bool)
  | [], received => pure received
  | bit :: bits, received => do
    let answer ← clock (leave && bits.isEmpty) bit
    shiftBits leave bits (answer :: received)

/-- Sends low bits, the last one with TMS high if `leave` is set. -/
def shiftZeros (leave : Bool) : Nat → List Bool → Action TapDriver (List Bool)
  | 0, received => pure received
  | count + 1, received => do
    let answer ← clock (leave && count == 0) false
    shiftZeros leave count (answer :: received)

/-- Low bits are sent like any others. -/
theorem shiftZeros_eq_shiftBits (leave : Bool) (count : Nat) (received : List Bool) :
    shiftZeros leave count received = shiftBits leave (List.replicate count false) received := by
  induction count generalizing received with
  | zero => rfl
  | succ count ih =>
    simp only [shiftZeros, List.replicate_succ, shiftBits, ih, List.isEmpty_replicate]
    rfl

/-- Bits can be sent in two parts, and TMS is high at the last of all. -/
theorem shiftBits_append (leave : Bool) (bits more received : List Bool) :
    shiftBits leave (bits ++ more) received =
      (shiftBits (leave && more.isEmpty) bits received).bind (shiftBits leave more) := by
  induction bits generalizing received with
  | nil => rfl
  | cons bit bits ih =>
    have hlast : (leave && (bits ++ more).isEmpty) = (leave && more.isEmpty && bits.isEmpty) := by
      cases bits <;> cases more <;> simp
    rw [List.cons_append, shiftBits, shiftBits, hlast]
    change Action.bind _ _ = (Action.bind _ _).bind _
    rw [Action.bind_assoc]
    congr 1
    funext answer
    exact ih (answer :: received)

/-- Sends the bits of a pattern and returns the bytes received. -/
def shiftPattern (leave : Bool) (pattern : Pattern) : Action TapDriver (List UInt8) := do
  let bits := pattern.suppliedBits
  let received ← shiftZeros (leave && bits.isEmpty) pattern.missingBits []
  let received ← shiftBits leave bits received
  pure (Pattern.bytesOf received.reverse)

/-- All bits of the pattern are sent in order. -/
theorem shiftPattern_eq (leave : Bool) (pattern : Pattern) :
    shiftPattern leave pattern = (shiftBits leave pattern.bits []).bind
      fun received => Action.pure (Pattern.bytesOf received.reverse) := by
  rw [Pattern.bits_eq_append, shiftBits_append, Action.bind_assoc, ← shiftZeros_eq_shiftBits]
  rfl

end TapDriver

namespace Segments

/-- Sends the bits of all segments and returns the bytes received. -/
def shift (segments : Segments) : Action TapDriver Samples := do
  let lastIsPayload := segments.trailer.length == 0
  let lastIsHeader := lastIsPayload && segments.payload.length == 0
  let header ← TapDriver.shiftPattern lastIsHeader segments.header
  let payload ← TapDriver.shiftPattern lastIsPayload segments.payload
  let trailer ← TapDriver.shiftPattern true segments.trailer
  let samples : Samples := { header, payload, trailer }
  Action.note (.scanned segments.length samples.buffer)
  pure samples

end Segments

end JtagPlayer
