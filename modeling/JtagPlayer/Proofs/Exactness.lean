import JtagPlayer.Proofs.Abandonment
import JtagPlayer.Proofs.Comparing
import JtagPlayer.Proofs.Sampling
import JtagPlayer.Proofs.Shifting
import Mathlib.Data.List.GetD

/-!
# Scans are exact to the bit

Bit by bit, a scan takes what it sends from a place among the bytes of a segment, and puts what
comes back into the same place among the bytes received. `Segments.IsExact` says so of the edges and
levels of a scan, whatever the lengths of its segments, and `Segments.shift_exact` says that every
scan is exact if no operation on the bus fails, in whichever state it begins. Only the wait for an
edge that is due later than any instant keeps it from its end, and there is none without a limit on
the clock rate.
-/

namespace JtagPlayer

open JtagPlayer.Action

/-! ## Places among bytes -/

/-- The bit at a place among some bytes, which is the index of a byte and that of a bit in it. Bytes
that are not there are zero. -/
def bitAt (bytes : List UInt8) (place : Nat × Nat) : Bool :=
  (bytes.getD place.1 0).toNat.testBit place.2

/-- Behind the last byte all bits are clear. -/
theorem bitAt_of_length_le {bytes : List UInt8} {place : Nat × Nat}
    (h : bytes.length ≤ place.1) : bitAt bytes place = false := by
  rw [bitAt, List.getD_eq_default _ _ h]
  exact Nat.zero_testBit _

theorem bitAt_of_le {bytes : List UInt8} {place : Nat × Nat} (h : 8 ≤ place.2) :
    bitAt bytes place = false :=
  testBit_byte h _

/-- Bytes behind a place do not matter to it. -/
theorem bitAt_append_left {bytes : List UInt8} (more : List UInt8) {place : Nat × Nat}
    (h : place.1 < bytes.length) : bitAt (bytes ++ more) place = bitAt bytes place := by
  rw [bitAt, bitAt, List.getD_append _ _ _ _ h]

/-- The bits of the number that some bytes denote, from the last byte to the first. -/
theorem testBit_numberOfBytes {bytes : List UInt8} {index : Nat} (h : index < 8 * bytes.length) :
    (numberOfBytes bytes).testBit index =
      bitAt bytes (bytes.length - 1 - index / 8, index % 8) := by
  induction bytes with
  | nil => exact absurd h (Nat.not_lt_zero _)
  | cons byte bytes ih =>
    rw [testBit_numberOfBytes_cons]
    rw [List.length_cons] at h ⊢
    split
    · rename_i hlow
      have hplace : bytes.length + 1 - 1 - index / 8 = bytes.length - 1 - index / 8 + 1 := by omega
      rw [ih hlow, hplace]
      rfl
    · have hplace : bytes.length + 1 - 1 - index / 8 = 0 := by omega
      have hbit : index - 8 * bytes.length = index % 8 := by omega
      rw [hplace, hbit]
      rfl

namespace Pattern

/-- The place of a bit of a pattern: the last byte holds the first eight, lowest first. -/
def place (pattern : Pattern) (index : Nat) : Nat × Nat :=
  (pattern.numBytes - 1 - index / 8, index % 8)

/-- Missing bytes are as good as zeros. -/
theorem bitAt_supplied (pattern : Pattern) {place : Nat × Nat} (h : place.1 < pattern.numBytes) :
    bitAt (pattern.supplied ++ List.replicate pattern.missing 0) place =
      bitAt (pattern.tdi.getD []) place := by
  have hlength : pattern.supplied.length = min pattern.numBytes (pattern.tdi.getD []).length :=
    List.length_take
  by_cases hsupplied : place.1 < pattern.supplied.length
  · rw [bitAt_append_left _ hsupplied, bitAt, bitAt, supplied, List.getD_eq_getElem?_getD,
      List.getElem?_take_of_lt h, List.getD_eq_getElem?_getD]
  · have hzero : (List.replicate pattern.missing (0 : UInt8)).getD
        (place.1 - pattern.supplied.length) 0 = 0 := by
      rw [List.getD_eq_getElem?_getD, List.getElem?_getD_replicate_default_eq]
    rw [bitAt_of_length_le (by omega : (pattern.tdi.getD []).length ≤ place.1), bitAt,
      List.getD_append_right _ _ _ _ (Nat.le_of_not_lt hsupplied), hzero]
    exact Nat.zero_testBit _

/-- What is sent is taken from its place among the bytes of the pattern. -/
theorem getElem?_bits (pattern : Pattern) {index : Nat} (h : index < pattern.length.toNat) :
    pattern.bits[index]? = some (bitAt (pattern.tdi.getD []) (pattern.place index)) := by
  have hsupplied : pattern.supplied.length ≤ pattern.numBytes := List.length_take_le _ _
  have hnumBytes : pattern.numBytes = (pattern.length.toNat + 7) / 8 := rfl
  generalize hbytes : pattern.supplied ++ List.replicate pattern.missing 0 = bytes
  have hlength : bytes.length = pattern.numBytes := by
    rw [← hbytes, List.length_append, List.length_replicate, missing]
    omega
  have hall : index < 8 * bytes.length := by omega
  have hflat : index < (bytes.reverse.flatMap byteBits).length := by
    rwa [length_flatMap_byteBits, List.length_reverse]
  have hplace : (pattern.place index).1 < pattern.numBytes := by
    rw [place]
    omega
  rw [bits, hbytes, List.getElem?_take_of_lt h, List.getElem?_eq_getElem hflat,
    ← List.getD_eq_getElem _ false hflat, ← testBit_numberOfBits, ← numberOfBytes_eq,
    testBit_numberOfBytes hall, hlength, ← pattern.bitAt_supplied hplace, hbytes]
  rfl

/-- What is received is put into its place among the bytes, and all other bits are zero. -/
theorem bitAt_bytesOf (received : List Bool) {place : Nat × Nat}
    (hbyte : place.1 < (received.length + 7) / 8) (hbit : place.2 < 8) :
    bitAt (bytesOf received) place =
      received.getD (8 * ((received.length + 7) / 8 - 1 - place.1) + place.2) false := by
  obtain ⟨byte, bit⟩ := place
  dsimp only at hbyte hbit ⊢
  have hplace : (byte, bit) = ((bytesOf received).length - 1 -
      (8 * ((received.length + 7) / 8 - 1 - byte) + bit) / 8,
      (8 * ((received.length + 7) / 8 - 1 - byte) + bit) % 8) := by
    rw [length_bytesOf, Prod.mk.injEq]
    omega
  rw [hplace, ← testBit_numberOfBytes, numberOfBytes_bytesOf, testBit_numberOfBits]
  rw [length_bytesOf]
  omega

end Pattern

/-! ## Edges and samples in turn -/

/-- What is sampled at first is sampled. -/
theorem levels_mono {front exchanges : List Exchange} (h : front <+: exchanges) :
    levels front <+: levels exchanges := by
  obtain ⟨back, rfl⟩ := h
  rw [levels_append]
  exact List.prefix_append _ _

/-- More exchanges only add edges behind those there were. -/
theorem Lines.edges_mono (lines : Lines) {front exchanges : List Exchange}
    (h : front <+: exchanges) : lines.edges front <+: lines.edges exchanges := by
  obtain ⟨back, rfl⟩ := h
  rw [edges_append]
  exact List.prefix_append _ _

/-- A sample follows each edge before the next one. -/
def InTurn (lines : Lines) (exchanges : List Exchange) : Prop :=
  ∀ front, front <+: exchanges → (levels front).length ≤ (lines.edges front).length ∧
    (lines.edges front).length ≤ (levels front).length + 1

theorem inTurn_nil (lines : Lines) : InTurn lines [] := by
  intro front hfront
  rw [List.prefix_nil.mp hfront]
  exact ⟨Nat.le_refl 0, Nat.zero_le 1⟩

namespace TapDriver

/-- There are as many samples as edges, and they come in turn. -/
def alternates : Law TapDriver := fun _ exchanges _ _ =>
  Flawless exchanges → ∀ lines : Lines,
    (levels exchanges).length = (lines.edges exchanges).length ∧ InTurn lines exchanges

/-- A clock raises the clock line once, and samples after it if at all. -/
theorem clock_alternates (tms tdi : Bool) : (clock tms tdi).Upholds alternates := by
  intro driver exchanges result driver' hcourse hflawless lines
  have hbalanced := clock_balanced tms tdi hcourse hflawless lines
  refine ⟨hbalanced, fun front hfront => ?_⟩
  have hedges := (lines.edges_mono hfront).length_le
  cases clock_course hcourse with
  | tmsFails | tdiFails | lowFails | riseFails | sampleFails =>
    simp [Exchange.Succeeds] at hflawless
  | overdue hdue =>
    have hlevels := (levels_mono hfront).length_le
    have hnone : (levels (setUp tms tdi)).length = 0 := rfl
    omega
  | sampled instant level hdue =>
    have hone : (levels (setUp tms tdi ++ (driver.pause ++
        [⟨.write .tck true, .ok ()⟩, ⟨.now, instant⟩, ⟨.read .tdo, .ok level⟩]))).length = 1 := by
      rw [levels_append, levels_append, levels_pause]
      rfl
    -- The sample is the last thing that a clock does.
    have hsplit : setUp tms tdi ++ (driver.pause ++
        [⟨.write .tck true, .ok ()⟩, ⟨.now, instant⟩, ⟨.read .tdo, .ok level⟩]) =
        (setUp tms tdi ++ (driver.pause ++ [⟨.write .tck true, .ok ()⟩, ⟨.now, instant⟩])) ++
          [⟨.read .tdo, .ok level⟩] := by
      simp
    rcases List.prefix_concat_iff.mp (hsplit ▸ hfront) with rfl | hearly
    · rw [← hsplit]
      omega
    · have hlevels := (levels_mono hearly).length_le
      rw [levels_append, levels_append, levels_pause] at hlevels
      have hnone : (levels front).length ≤ 0 := hlevels
      omega

theorem alternates_obeys : Obeys alternates where
  refl _ _ lines := ⟨rfl, inTurn_nil lines⟩
  fail _ _ _ lines := ⟨rfl, inTurn_nil lines⟩
  quiet := by
    intro driver c answer hquiet hflawless lines
    have hlevels : levels [⟨c, answer⟩] = [] := levels_cons_of_isQuiet hquiet answer []
    have hedges : lines.edges [⟨c, answer⟩] = [] :=
      lines.edges_cons_of_isIdle (Lines.isIdle_of_isQuiet hquiet answer) []
    refine ⟨by rw [hlevels, hedges]; rfl, fun front hfront => ?_⟩
    have hlevels' := (levels_mono hfront).length_le
    have hedges' := (lines.edges_mono hfront).length_le
    rw [hlevels] at hlevels'
    rw [hedges] at hedges'
    simp only [List.length_nil] at hlevels' hedges'
    omega
  trans := by
    intro driver middle driver' first second reason hfirst hsecond hflawless lines
    obtain ⟨hflawless, hflawless'⟩ := flawless_append.mp hflawless
    obtain ⟨hbalanced, hturn⟩ := hfirst hflawless lines
    obtain ⟨hbalanced', hturn'⟩ := hsecond hflawless' (lines.watch first)
    refine ⟨?_, fun front hfront => ?_⟩
    · rw [levels_append, Lines.edges_append, List.length_append, List.length_append, hbalanced,
        hbalanced']
    · obtain ⟨back, hback⟩ := hfront
      rcases List.append_eq_append_iff.mp hback with ⟨later, rfl, -⟩ | ⟨late, rfl, rfl⟩
      · exact hturn front (List.prefix_append _ _)
      · have hlate := hturn' late (List.prefix_append _ _)
        rw [levels_append, Lines.edges_append, List.length_append, List.length_append]
        omega
  clock := clock_alternates

/-- What sends the next bit of a scan: the last one leaves. -/
theorem getElem?_shiftEdges (leave : Bool) {bits : List Bool} {index : Nat} {bit : Bool}
    (h : bits[index]? = some bit) :
    (shiftEdges leave bits)[index]? = some ⟨leave && index + 1 == bits.length, bit⟩ := by
  induction bits generalizing index with
  | nil => cases h
  | cons first bits ih =>
    cases index with
    | zero =>
      cases h
      cases bits <;> simp [shiftEdges]
    | succ index =>
      rw [List.getElem?_cons_succ] at h
      rw [shiftEdges, List.getElem?_cons_succ, ih h, List.length_cons]
      simp

end TapDriver

/-! ## Three segments in order -/

section InOrder

variable {α : Type}

/-- What belongs to the segments of a scan, one after the other. -/
def inOrder (parts : Role → List α) : List α :=
  parts .header ++ (parts .payload ++ parts .trailer)

/-- How much belongs to the segments before one, given how much belongs to each. -/
def countBefore (count : Role → Nat) : Role → Nat
  | .header => 0
  | .payload => count .header
  | .trailer => count .header + count .payload

theorem length_inOrder (parts : Role → List α) :
    (inOrder parts).length =
      (parts .header).length + (parts .payload).length + (parts .trailer).length := by
  rw [inOrder, List.length_append, List.length_append, Nat.add_assoc]

/-- What is in a part has its place in the whole behind the parts before it. -/
theorem getElem?_inOrder {parts : Role → List α} {count : Role → Nat}
    (hcount : ∀ role, (parts role).length = count role) (role : Role) {index : Nat}
    (h : index < count role) :
    (inOrder parts)[countBefore count role + index]? = (parts role)[index]? := by
  have hheader := hcount .header
  have hpayload := hcount .payload
  cases role with
  | header =>
    rw [countBefore, Nat.zero_add, inOrder, List.getElem?_append_left (by omega)]
  | payload =>
    rw [countBefore, inOrder, List.getElem?_append_right (by omega), hheader,
      Nat.add_sub_cancel_left, List.getElem?_append_left (by omega)]
  | trailer =>
    rw [countBefore, Nat.add_assoc, inOrder, List.getElem?_append_right (by omega), hheader,
      Nat.add_sub_cancel_left, List.getElem?_append_right (by omega), hpayload,
      Nat.add_sub_cancel_left]

/-- Everything belongs to one of the segments. -/
theorem exists_countBefore {count : Role → Nat} {index : Nat}
    (h : index < count .header + count .payload + count .trailer) :
    ∃ role rest, rest < count role ∧ index = countBefore count role + rest := by
  by_cases hheader : index < count .header
  · exact ⟨.header, index, hheader, (Nat.zero_add index).symm⟩
  by_cases hpayload : index < count .header + count .payload
  · exact ⟨.payload, index - count .header, by omega, by rw [countBefore]; omega⟩
  · exact ⟨.trailer, index - (count .header + count .payload), by omega,
      by rw [countBefore]; omega⟩

end InOrder

/-! ## Scans -/

namespace Segments

/-- The number of bits of a segment. -/
def bitCount (segments : Segments) (role : Role) : Nat :=
  (segments.get role).length.toNat

/-- The number of bytes that hold the bits of a segment. -/
def byteCount (segments : Segments) (role : Role) : Nat :=
  (segments.get role).numBytes

/-- The place of a bit of a segment among all bytes received. -/
def place (segments : Segments) (role : Role) (index : Nat) : Nat × Nat :=
  (countBefore segments.byteCount role + ((segments.get role).place index).1,
    ((segments.get role).place index).2)

/-- A scan with these edges, levels and bytes received is exact to the bit. -/
structure IsExact (segments : Segments) (edges : List Edge) (levels : List Bool)
    (samples : Samples) : Prop where
  /-- There is one clock for each bit. -/
  clocks : edges.length = segments.length
  /-- TMS is high at the last clock only. -/
  leaves : ∀ index edge, edges[index]? = some edge →
    (edge.tms = true ↔ index + 1 = segments.length)
  /-- The bits of each segment are sent in order, after those of the segments before it. -/
  sends : ∀ role, ∀ index < segments.bitCount role,
    (edges[countBefore segments.bitCount role + index]?).map Edge.tdi =
      some (bitAt ((segments.get role).tdi.getD []) ((segments.get role).place index))
  /-- What is sampled at each clock is kept in the same place among the bytes of its segment. -/
  keeps : ∀ role, ∀ index < segments.bitCount role,
    levels[countBefore segments.bitCount role + index]? =
      some (bitAt samples.buffer (segments.place role index))
  /-- All other places hold zero. -/
  clears : ∀ place, (∀ role, ∀ index < segments.bitCount role,
    segments.place role index ≠ place) → bitAt samples.buffer place = false
  /-- There are as many bytes as the segments need. -/
  size : samples.buffer.length =
    segments.byteCount .header + segments.byteCount .payload + segments.byteCount .trailer
  /-- Those of the payload come between the others. -/
  range : samples.payloadRange =
    (segments.byteCount .header, segments.byteCount .header + segments.byteCount .payload)

theorem length_bits (segments : Segments) : segments.bits.length = segments.length := by
  rw [bits, List.length_append, List.length_append, Pattern.length_bits, Pattern.length_bits,
    Pattern.length_bits, length, Nat.add_assoc]

/-- The bits of a segment come after those of the segments before it. -/
theorem getElem?_bits (segments : Segments) (role : Role) {index : Nat}
    (h : index < segments.bitCount role) :
    segments.bits[countBefore segments.bitCount role + index]? =
      some (bitAt ((segments.get role).tdi.getD []) ((segments.get role).place index)) := by
  have hcount : ∀ role, (segments.get role).bits.length = segments.bitCount role :=
    fun role => Pattern.length_bits _
  rw [← Pattern.getElem?_bits _ h]
  exact getElem?_inOrder hcount role h

section Received

variable {segments : Segments} {received : Role → List Bool}

/-- The bytes that hold the bits received for each segment. -/
def samplesOf (received : Role → List Bool) : Samples where
  header := Pattern.bytesOf (received .header)
  payload := Pattern.bytesOf (received .payload)
  trailer := Pattern.bytesOf (received .trailer)

theorem buffer_samplesOf (received : Role → List Bool) :
    (samplesOf received).buffer = inOrder fun role => Pattern.bytesOf (received role) :=
  List.append_assoc _ _ _

/-- Each part of the samples has as many bytes as its bits need. -/
theorem length_bytesOf_received
    (hreceived : ∀ role, (received role).length = segments.bitCount role) (role : Role) :
    (Pattern.bytesOf (received role)).length = segments.byteCount role := by
  rw [Pattern.length_bytesOf, hreceived]
  rfl

theorem length_buffer_samplesOf
    (hreceived : ∀ role, (received role).length = segments.bitCount role) :
    (samplesOf received).buffer.length = segments.byteCount .header +
      segments.byteCount .payload + segments.byteCount .trailer := by
  rw [buffer_samplesOf, length_inOrder, length_bytesOf_received hreceived,
    length_bytesOf_received hreceived, length_bytesOf_received hreceived]

/-- Each byte received is kept after those of the segments before its own. -/
theorem bitAt_buffer (hreceived : ∀ role, (received role).length = segments.bitCount role)
    (role : Role) {byte bit : Nat} (hbyte : byte < segments.byteCount role) (hbit : bit < 8) :
    bitAt (samplesOf received).buffer (countBefore segments.byteCount role + byte, bit) =
      (received role).getD (8 * (segments.byteCount role - 1 - byte) + bit) false := by
  have hlength : ((received role).length + 7) / 8 = segments.byteCount role := by
    rw [← length_bytesOf_received hreceived role, Pattern.length_bytesOf]
  have hbits : bitAt (Pattern.bytesOf (received role)) (byte, bit) =
      (received role).getD (8 * (segments.byteCount role - 1 - byte) + bit) false := by
    rw [Pattern.bitAt_bytesOf (received role) (by rwa [hlength]) hbit, hlength]
  rw [← hbits, buffer_samplesOf, bitAt, bitAt, List.getD_eq_getElem?_getD,
    List.getD_eq_getElem?_getD, getElem?_inOrder (length_bytesOf_received hreceived) role hbyte]

/-- What was sent and received bit by bit makes an exact scan. -/
theorem isExact_of_received (hreceived : ∀ role, (received role).length = segments.bitCount role) :
    segments.IsExact (TapDriver.shiftEdges true segments.bits) (inOrder received)
      (samplesOf received) where
  clocks := by rw [TapDriver.length_shiftEdges, length_bits]
  leaves := by
    intro index edge hedge
    have hlt : index < segments.bits.length := by
      rw [← TapDriver.length_shiftEdges true]
      exact (List.getElem?_eq_some_iff.mp hedge).1
    rw [TapDriver.getElem?_shiftEdges true (List.getElem?_eq_getElem hlt)] at hedge
    cases hedge
    rw [Bool.true_and, beq_iff_eq, length_bits]
  sends := by
    intro role index hindex
    rw [TapDriver.getElem?_shiftEdges true (segments.getElem?_bits role hindex)]
    rfl
  keeps := by
    intro role index hindex
    have hcount : segments.byteCount role = (segments.bitCount role + 7) / 8 := rfl
    have hlt : index < (received role).length := by rwa [hreceived]
    have hbyte : segments.byteCount role - 1 - index / 8 < segments.byteCount role := by omega
    have hback : 8 * (segments.byteCount role - 1 - (segments.byteCount role - 1 - index / 8)) +
        index % 8 = index := by omega
    have hkept := bitAt_buffer hreceived role hbyte (Nat.mod_lt index (by decide))
    rw [hback, List.getD_eq_getElem _ _ hlt] at hkept
    rw [getElem?_inOrder hreceived role hindex, List.getElem?_eq_getElem hlt, ← hkept]
    rfl
  clears := by
    intro (byte, bit) hplace
    by_cases hbit : 8 ≤ bit
    · exact bitAt_of_le hbit
    by_cases hend : (samplesOf received).buffer.length ≤ byte
    · exact bitAt_of_length_le hend
    rw [length_buffer_samplesOf hreceived] at hend
    obtain ⟨role, rest, hrest, rfl⟩ := exists_countBefore (Nat.lt_of_not_le hend)
    rw [bitAt_buffer hreceived role hrest (Nat.lt_of_not_le hbit)]
    refine List.getD_eq_default _ _ (Nat.le_of_not_lt fun hlt => ?_)
    -- A bit that was received would be in this place.
    refine hplace role _ (hreceived role ▸ hlt) ?_
    rw [place, Pattern.place, Prod.mk.injEq]
    have hcount : segments.byteCount role = (segments.get role).numBytes := rfl
    exact ⟨by omega, by omega⟩
  size := length_buffer_samplesOf hreceived
  range := by
    have hheader := length_bytesOf_received hreceived .header
    have hpayload := length_bytesOf_received hreceived .payload
    rw [← hheader, ← hpayload]
    rfl

end Received

/-- Where a scan leaves the driver: it has followed the clocks and counted them, from a shift state
it has left for the state behind it, and without a clock nothing has changed. -/
structure Leads (segments : Segments) (edges : List Edge) (driver driver' : TapDriver) : Prop where
  follows : driver'.state = driver.state.follow edges
  counts : driver'.pulses = driver.pulses + segments.length
  data : driver.state = .drShift → segments.length ≠ 0 → driver'.state = .drExit1
  instruction : driver.state = .irShift → segments.length ≠ 0 → driver'.state = .irExit1
  still : segments.length = 0 → edges = [] ∧ driver'.state = driver.state

section Courses

variable {segments : Segments} {samples : Samples} {driver driver' : TapDriver}
  {exchanges : List Exchange}

/-- A scan that ends well leads the driver along its edges. -/
theorem leads_of_ok (h : segments.shift.Course driver exchanges (.ok samples) driver')
    (lines : Lines) : segments.Leads (lines.edges exchanges) driver driver' := by
  obtain ⟨hfollows, hcounts⟩ := shift_upholds TapDriver.follows_obeys segments h lines
  have hedges := segments.shift_emits.complete h lines
  have hlength : (lines.edges exchanges).length = segments.length := by
    rw [hedges, TapDriver.length_shiftEdges, length_bits]
  have hleft : ∀ register : Register, driver.state = register.shiftState → segments.length ≠ 0 →
      driver'.state = register.shiftState.next true := by
    intro register hstate hne
    refine (TapDriver.shift_ok h hstate fun hnil => hne ?_).2
    rw [← length_bits, hnil, List.length_nil]
  refine ⟨hfollows, hlength ▸ hcounts, hleft .data, hleft .instruction, fun hzero => ?_⟩
  have hnil : lines.edges exchanges = [] := List.eq_nil_of_length_eq_zero (hlength.trans hzero)
  exact ⟨hnil, by rw [hfollows, hnil]; rfl⟩

/-- The edges and samples of a scan that ends well are the ones of its segments, bit by bit. -/
theorem isExact_of_ok (h : segments.shift.Course driver exchanges (.ok samples) driver')
    (hflawless : Flawless exchanges) (lines : Lines) :
    segments.IsExact (lines.edges exchanges) (levels exchanges) samples := by
  obtain ⟨header, payload, trailer, hlevels, hheader, hpayload, htrailer, rfl⟩ :=
    shift_received h hflawless
  let received : Role → List Bool
    | .header => header
    | .payload => payload
    | .trailer => trailer
  have hreceived : ∀ role, (received role).length = segments.bitCount role := by
    intro role
    cases role with
    | header => exact hheader
    | payload => exact hpayload
    | trailer => exact htrailer
  rw [segments.shift_emits.complete h lines, hlevels]
  exact isExact_of_received hreceived

/-- Only a lost edge stops a scan if no operation on the bus fails. -/
theorem shift_stopped {reason : Halt}
    (h : segments.shift.Course driver exchanges (.error reason) driver')
    (hflawless : Flawless exchanges) :
    driver.EdgeLost (.error reason : Except Halt Samples) driver' := by
  have hreason := segments.shift_emits.steady h hflawless
  subst hreason
  exact TapDriver.edgeLost_of_upholds (fun hlaw => shift_upholds hlaw segments) h

end Courses

/-- Every scan is exact to the bit if no operation on the bus fails, whatever its segments, the
state of the device and the levels of its lines. Nothing keeps it from its end but a lost edge. -/
theorem shift_exact {β τ : Type} [Bus β] [Clock τ] (bench : Bench β τ) (lines : Lines)
    (segments : Segments) (driver : TapDriver)
    (hflawless : Flawless ((segments.shift driver).transcript bench)) :
    let transcript := (segments.shift driver).transcript bench
    let played := ((segments.shift driver).play bench).1
    (∃ samples, played.1 = .ok samples ∧
      segments.IsExact (lines.edges transcript) (levels transcript) samples ∧
      InTurn lines transcript ∧ segments.Leads (lines.edges transcript) driver played.2) ∨
    driver.EdgeLost played.1 played.2 := by
  intro transcript played
  have hcourse : segments.shift.Course driver transcript played.1 played.2 :=
    Dialogue.course_transcript (segments.shift driver) bench
  cases hresult : played.1 with
  | ok samples =>
    rw [hresult] at hcourse
    have hturn := (shift_upholds TapDriver.alternates_obeys segments hcourse hflawless lines).2
    exact .inl ⟨samples, rfl, isExact_of_ok hcourse hflawless lines, hturn,
      leads_of_ok hcourse lines⟩
  | error reason =>
    rw [hresult] at hcourse
    exact .inr (shift_stopped hcourse hflawless)

/-- A header of three bits, a payload of ten with one byte for two, and no trailer, sent from a
shift state to a device that answers with the other level. -/
theorem shift_exact_inverting_bus :
    let bench : Bench SimulatedBus IdealClock := { bus := { answers := .invert }, clock := {} }
    let segments : Segments := {
      header := { length := 3, tdi := some [0x05] }
      payload := { length := 10, tdi := some [0x02] } }
    let driver : TapDriver := { state := .irShift, spinThreshold := 0 }
    ∃ samples, ((segments.shift driver).play bench).1.1 = .ok samples ∧
      samples.payloadRange = (1, 3) ∧
      ((segments.shift driver).play bench).1.2.state = .irExit1 := by
  intro bench segments driver
  rcases shift_exact bench {} segments driver (by decide +kernel) with
    ⟨samples, hsamples, hexact, -, hleads⟩ | hlost
  · exact ⟨samples, hsamples, hexact.range.trans (by decide), hleads.instruction rfl (by decide)⟩
  · exact absurd rfl hlost.limited

/-- A clock rate that is accepted, and a scan of eight bits from the shift state of the data
register. No operation on the bus fails, and yet the scan gives none of its clocks and does not
leave the shift state, and a run of it all is abandoned. -/
theorem shift_lost_at_accepted_rate :
    let bench : Bench SimulatedBus IdealClock := { bus := {}, clock := {} }
    let approach : Action TapDriver Unit := do
      TapDriver.reset
      TapDriver.routeTo .drShift
      TapDriver.setFrequency 1e-19
    let driver := ((approach { spinThreshold := 0 }).play bench).1.2
    let ready := ((approach { spinThreshold := 0 }).play bench).2
    let segments : Segments := { payload := { length := 8, tdi := some [0xA5] } }
    let transcript := (segments.shift driver).transcript ready
    let played := ((segments.shift driver).play ready).1
    (TapDriver.delayOf 1e-19).isOk ∧ driver.state = .drShift ∧ Flawless transcript ∧
      ({} : Lines).edges transcript = [] ∧ played.1 = .error .deadlineOverflow ∧
      played.2.state = .drShift ∧
      ((Player.run {} [.goToState .drShift (some [.idle, .drSelect, .drCapture]),
        .setFrequency 1e-19,
        .shift .data { length := 8, tdi := some [0xA5] } none]).play bench).1 = .abandoned := by
  decide +kernel

end Segments

end JtagPlayer
