import JtagPlayer.Scan.Segments

/-!
# Bits and bytes as numbers

A list of bits, lowest first, and a list of bytes, most significant first, denote numbers.
`testBit_numberOfBits` and `numberOfBytes_eq` say which bits these numbers have, and
`Pattern.numberOfBytes_bytesOf` says that received bits and the bytes that hold them denote the same
number.
-/

namespace JtagPlayer

/-- The bits of the number that some bits denote are these bits. -/
theorem testBit_numberOfBits (bits : List Bool) (index : Nat) :
    (numberOfBits bits).testBit index = bits.getD index false := by
  induction bits generalizing index with
  | nil => simp [numberOfBits]
  | cons bit bits ih =>
    have hbit := bit.toNat_le
    cases index with
    | zero =>
      have hlowest : numberOfBits (bit :: bits) % 2 = bit.toNat := by
        rw [numberOfBits]
        omega
      rw [Nat.testBit_zero, hlowest]
      cases bit <;> rfl
    | succ index =>
      have hhalf : numberOfBits (bit :: bits) / 2 = numberOfBits bits := by
        rw [numberOfBits]
        omega
      rw [Nat.testBit_succ, hhalf, ih]
      rfl

/-- More bits behind some bits are worth more. -/
theorem numberOfBits_append (bits more : List Bool) :
    numberOfBits (bits ++ more) = numberOfBits bits + numberOfBits more <<< bits.length := by
  induction bits with
  | nil => simp [numberOfBits]
  | cons bit bits ih =>
    rw [List.cons_append, numberOfBits, ih, numberOfBits, List.length_cons, Nat.shiftLeft_succ]
    omega

/-- A byte has no bits from the eighth on. -/
theorem testBit_byte {index : Nat} (h : 8 ≤ index) (byte : UInt8) :
    byte.toNat.testBit index = false := by
  have hlarge := Nat.pow_le_pow_right (by decide : 0 < 2) h
  exact Nat.testBit_lt_two_pow (Nat.lt_of_lt_of_le byte.toNat_lt hlarge)

@[simp] theorem length_byteBits (byte : UInt8) : (byteBits byte).length = 8 := rfl

/-- A byte is the number that its bits denote. -/
theorem numberOfBits_byteBits (byte : UInt8) : numberOfBits (byteBits byte) = byte.toNat := by
  apply Nat.eq_of_testBit_eq
  intro index
  rw [testBit_numberOfBits]
  by_cases hindex : index < 8
  · simp [byteBits, hindex]
  · rw [testBit_byte (Nat.le_of_not_lt hindex)]
    simp [byteBits, hindex]

/-- The number that bytes denote, most significant first. -/
def numberOfBytes (bytes : List UInt8) : Nat :=
  bytes.foldl (fun number byte => 256 * number + byte.toNat) 0

theorem numberOfBytes_append_singleton (bytes : List UInt8) (byte : UInt8) :
    numberOfBytes (bytes ++ [byte]) = 256 * numberOfBytes bytes + byte.toNat := by
  rw [numberOfBytes, List.foldl_append]
  rfl

/-- Bytes that are read from the last to the first denote what their bits denote. -/
theorem numberOfBytes_reverse (bytes : List UInt8) :
    numberOfBytes bytes.reverse = numberOfBits (bytes.flatMap byteBits) := by
  induction bytes with
  | nil => rfl
  | cons byte bytes ih =>
    rw [List.reverse_cons, numberOfBytes_append_singleton, ih, List.flatMap_cons,
      numberOfBits_append, numberOfBits_byteBits, length_byteBits, Nat.shiftLeft_eq]
    omega

theorem numberOfBytes_eq (bytes : List UInt8) :
    numberOfBytes bytes = numberOfBits (bytes.reverse.flatMap byteBits) := by
  rw [← numberOfBytes_reverse, List.reverse_reverse]

theorem length_flatMap_byteBits (bytes : List UInt8) :
    (bytes.flatMap byteBits).length = 8 * bytes.length := by
  induction bytes with
  | nil => rfl
  | cons byte bytes ih =>
    rw [List.flatMap_cons, List.length_append, ih, length_byteBits, List.length_cons]
    omega

namespace Pattern

/-- A pattern sends as many bits as it is long. -/
@[simp] theorem length_bits (pattern : Pattern) : pattern.bits.length = pattern.length.toNat := by
  have hsupplied : pattern.supplied.length ≤ pattern.numBytes := List.length_take_le _ _
  have hnumBytes : pattern.numBytes = (pattern.length.toNat + 7) / 8 := rfl
  rw [bits, List.length_take, length_flatMap_byteBits, List.length_reverse, List.length_append,
    List.length_replicate, missing]
  omega

theorem isEmpty_bits (pattern : Pattern) : pattern.bits.isEmpty = (pattern.length == 0) := by
  have hlength := pattern.length_bits
  by_cases hzero : pattern.length = 0
  · rw [hzero] at hlength
    have hbits : pattern.bits = [] := List.eq_nil_of_length_eq_zero hlength
    simp [hzero, hbits]
  · have hpos : pattern.length.toNat ≠ 0 := fun h => hzero (UInt32.toNat_inj.mp h)
    have hbits : pattern.bits ≠ [] := fun h => hpos (by rw [← hlength, h, List.length_nil])
    rw [List.isEmpty_eq_false_iff.mpr hbits, beq_eq_false_iff_ne.mpr hzero]

/-- The number that the bytes to send denote. -/
def number (pattern : Pattern) : Nat :=
  numberOfBytes (pattern.tdi.getD [])

/-- The binary digits of that number, lowest first, as many as the pattern is long. -/
def digits (pattern : Pattern) : List Bool :=
  (List.range pattern.length.toNat).map pattern.number.testBit

end Pattern

/-- Up to eight bits fit into a byte. -/
theorem numberOfBits_lt (bits : List Bool) : numberOfBits bits < 1 <<< bits.length := by
  induction bits with
  | nil => decide
  | cons bit bits ih =>
    rw [numberOfBits, List.length_cons, Nat.shiftLeft_succ]
    have hbit := bit.toNat_le
    omega

theorem length_bytesOfBits (bits : List Bool) :
    (bytesOfBits bits).length = (bits.length + 7) / 8 := by
  induction bits using bytesOfBits.induct with
  | case1 => rw [bytesOfBits]; rfl
  | case2 bit bits ih =>
    rw [bytesOfBits, List.length_cons, ih, List.length_drop, List.length_cons]
    omega

/-- No bit is lost in the bytes that hold some bits. -/
theorem numberOfBits_flatMap_bytesOfBits (bits : List Bool) :
    numberOfBits ((bytesOfBits bits).flatMap byteBits) = numberOfBits bits := by
  induction bits using bytesOfBits.induct with
  | case1 => rw [bytesOfBits]; rfl
  | case2 bit bits ih =>
    have hlength : (bit :: bits.take 7).length ≤ 8 := by
      rw [List.length_cons, List.length_take]
      omega
    have hsmall : numberOfBits (bit :: bits.take 7) < 256 := by
      have hlt := numberOfBits_lt (bit :: bits.take 7)
      have hle := Nat.pow_le_pow_right (by decide : 0 < 2) hlength
      rw [Nat.one_shiftLeft] at hlt
      exact Nat.lt_of_lt_of_le hlt hle
    have hsplit : bit :: bits = (bit :: bits.take 7) ++ bits.drop 7 := by simp
    -- Only the last byte may hold fewer than eight bits, and then nothing is left to be shifted.
    have hrest : numberOfBits (bits.drop 7) <<< 8 =
        numberOfBits (bits.drop 7) <<< (bit :: bits.take 7).length := by
      by_cases hlong : 7 ≤ bits.length
      · rw [List.length_cons, List.length_take, Nat.min_eq_left hlong]
      · rw [List.drop_eq_nil_of_le (by omega)]
        simp [numberOfBits]
    rw [bytesOfBits, List.flatMap_cons, numberOfBits_append, numberOfBits_byteBits,
      length_byteBits, ih, hrest, UInt8.toNat_ofNat_of_lt' hsmall, ← numberOfBits_append, ← hsplit]

namespace Pattern

theorem length_bytesOf (received : List Bool) :
    (bytesOf received).length = (received.length + 7) / 8 := by
  rw [bytesOf, List.length_reverse, length_bytesOfBits]

/-- The bytes received denote the number that the bits received denote. -/
theorem numberOfBytes_bytesOf (received : List Bool) :
    numberOfBytes (bytesOf received) = numberOfBits received := by
  rw [bytesOf, numberOfBytes_reverse, numberOfBits_flatMap_bytesOfBits]

end Pattern

end JtagPlayer
