import JtagPlayer.Proofs.Comparing
import Mathlib.Data.Nat.Bitwise

/-!
# Masked comparison of numbers

The bytes of a scan are compared one by one, the first of them only in part. Together they are one
comparison of large numbers: `Pattern.compares_numbers` says that a scan passes if no bit below the
length of the pattern is set both in the number of the mask and in the difference of the numbers
expected and observed. A mask therefore asks for what any two masks ask for that make it up.
-/

namespace JtagPlayer

/-- The bits that are set in either of two byte strings. -/
def unionBytes (first second : List UInt8) : List UInt8 :=
  List.zipWith (· ||| ·) first second

theorem length_unionBytes {first second : List UInt8} (h : first.length = second.length) :
    (unionBytes first second).length = second.length := by
  rw [unionBytes, List.length_zipWith, h, Nat.min_self]

/-- Byte strings of the same width are united as numbers. -/
theorem numberOfBytes_unionBytes {first second : List UInt8} (h : first.length = second.length) :
    numberOfBytes (unionBytes first second) = numberOfBytes first ||| numberOfBytes second := by
  induction first generalizing second with
  | nil =>
    cases List.eq_nil_of_length_eq_zero h.symm
    rfl
  | cons byte first ih =>
    obtain _ | ⟨other, second⟩ := second
    · cases h
    have htail : first.length = second.length := Nat.succ.inj h
    have hcons : unionBytes (byte :: first) (other :: second) =
        (byte ||| other) :: unionBytes first second := rfl
    apply Nat.eq_of_testBit_eq
    intro index
    rw [hcons, Nat.testBit_or, testBit_numberOfBytes_cons, testBit_numberOfBytes_cons,
      testBit_numberOfBytes_cons, length_unionBytes htail, htail, ih htail]
    by_cases hlow : index < 8 * second.length
    · rw [if_pos hlow, if_pos hlow, if_pos hlow, Nat.testBit_or]
    · rw [if_neg hlow, if_neg hlow, if_neg hlow, UInt8.toNat_or, Nat.testBit_or]

/-- No bit is left if two numbers have the same bits below a length wherever a third one is set. -/
theorem masked_xor_eq_zero_iff (expected observed mask length : Nat) :
    (expected ^^^ observed) &&& mask &&& (2 ^ length - 1) = 0 ↔
      ∀ index < length, mask.testBit index = true →
        expected.testBit index = observed.testBit index := by
  have hbit : ∀ index, ((expected ^^^ observed) &&& mask &&& (2 ^ length - 1)).testBit index =
      ((expected.testBit index ^^ observed.testBit index) && mask.testBit index &&
        decide (index < length)) := by
    intro index
    rw [Nat.testBit_and, Nat.testBit_and, Nat.testBit_xor, Nat.testBit_two_pow_sub_one]
  constructor
  · intro hzero index hindex hmask
    have hnone := hbit index
    rw [hzero, Nat.zero_testBit, hmask, decide_eq_true hindex] at hnone
    simpa using hnone
  · intro h
    apply Nat.eq_of_testBit_eq
    intro index
    rw [hbit, Nat.zero_testBit]
    by_cases hindex : index < length
    · cases hmask : mask.testBit index with
      | false => simp
      | true => simp [h index hindex hmask]
    · simp [hindex]

namespace Pattern

/-- The number that the mask denotes. Without a mask it has all bits of the bytes. -/
def maskNumber (pattern : Pattern) : Nat :=
  match pattern.mask with
  | none => 2 ^ (8 * pattern.numBytes) - 1
  | some mask => numberOfBytes mask

/-- Below the length of a pattern the mask selects the bits of its number. -/
theorem testBit_maskNumber {pattern : Pattern} {index : Nat}
    (hindex : index < pattern.length.toNat) :
    pattern.maskNumber.testBit index = pattern.selects index := by
  have hnumBytes : pattern.numBytes = (pattern.length.toNat + 7) / 8 := rfl
  unfold maskNumber selects
  cases pattern.mask with
  | none => rw [Nat.testBit_two_pow_sub_one, decide_eq_true (by omega)]
  | some mask => rfl

/-- Bytes pass if they differ from those expected in no selected bit. -/
theorem accepts_iff_masked {pattern : Pattern}
    (htdo : ∀ tdo, pattern.tdo = some tdo → tdo.length = pattern.numBytes)
    (hmask : ∀ mask, pattern.mask = some mask → mask.length = pattern.numBytes)
    {observed : List UInt8} (hobserved : observed.length = pattern.numBytes) :
    pattern.accepts observed = true ↔ ∀ tdo, pattern.tdo = some tdo →
      (numberOfBytes tdo ^^^ numberOfBytes observed) &&& pattern.maskNumber &&&
        (2 ^ pattern.length.toNat - 1) = 0 := by
  rw [accepts_bytes_iff hmask htdo hobserved]
  refine forall₂_congr fun tdo _ => ?_
  rw [masked_xor_eq_zero_iff]
  refine forall₂_congr fun index hindex => ?_
  rw [testBit_maskNumber hindex]

/-- Bytes pass under the union of two masks if they pass under each of them. -/
theorem accepts_unionBytes {pattern : Pattern}
    (htdo : ∀ tdo, pattern.tdo = some tdo → tdo.length = pattern.numBytes)
    {observed first second : List UInt8} (hobserved : observed.length = pattern.numBytes)
    (hfirst : first.length = pattern.numBytes) (hsecond : second.length = pattern.numBytes) :
    { pattern with mask := some (unionBytes first second) }.accepts observed =
      ({ pattern with mask := some first }.accepts observed &&
        { pattern with mask := some second }.accepts observed) := by
  -- The patterns differ in the mask alone, so each is a condition on the number of its mask.
  have hmasked : ∀ mask : List UInt8, mask.length = pattern.numBytes →
      ({ pattern with mask := some mask }.accepts observed = true ↔
        ∀ tdo, pattern.tdo = some tdo →
          ∀ index < pattern.length.toNat, (numberOfBytes mask).testBit index = true →
            (numberOfBytes tdo).testBit index = (numberOfBytes observed).testBit index) := by
    intro mask hwidth
    have hgiven : ∀ given, { pattern with mask := some mask }.mask = some given →
        given.length = { pattern with mask := some mask }.numBytes := by
      rintro given ⟨⟩
      exact hwidth
    exact accepts_bytes_iff hgiven htdo hobserved
  have hwidths : first.length = second.length := hfirst.trans hsecond.symm
  rw [Bool.eq_iff_iff, Bool.and_eq_true, hmasked first hfirst, hmasked second hsecond,
    hmasked _ ((length_unionBytes hwidths).trans hsecond), numberOfBytes_unionBytes hwidths]
  simp only [Nat.testBit_or, Bool.or_eq_true]
  constructor
  · intro h
    exact ⟨fun tdo hgiven index hindex hbit => h tdo hgiven index hindex (.inl hbit),
      fun tdo hgiven index hindex hbit => h tdo hgiven index hindex (.inr hbit)⟩
  · rintro ⟨hleft, hright⟩ tdo hgiven index hindex (hbit | hbit)
    · exact hleft tdo hgiven index hindex hbit
    · exact hright tdo hgiven index hindex hbit

/-- The comparison byte by byte is one comparison of numbers. With the byte strings as wide as the
register, bytes pass exactly if nothing is expected, or if no bit below the length is set both in
the mask and in the difference of what is expected and observed. So they pass under the union of two
masks exactly if they pass under each. -/
theorem compares_numbers {pattern : Pattern}
    (htdo : ∀ tdo, pattern.tdo = some tdo → tdo.length = pattern.numBytes)
    (hmask : ∀ mask, pattern.mask = some mask → mask.length = pattern.numBytes)
    {observed : List UInt8} (hobserved : observed.length = pattern.numBytes) :
    (pattern.accepts observed = true ↔
      pattern.tdo = none ∨ ∃ tdo, pattern.tdo = some tdo ∧
        (numberOfBytes tdo ^^^ numberOfBytes observed) &&& pattern.maskNumber &&&
          (2 ^ pattern.length.toNat - 1) = 0) ∧
    ∀ first second, first.length = pattern.numBytes → second.length = pattern.numBytes →
      { pattern with mask := some (unionBytes first second) }.accepts observed =
        ({ pattern with mask := some first }.accepts observed &&
          { pattern with mask := some second }.accepts observed) := by
  refine ⟨?_, fun first second hfirst hsecond =>
    accepts_unionBytes htdo hobserved hfirst hsecond⟩
  rw [accepts_iff_masked htdo hmask hobserved]
  cases pattern.tdo with
  | none => simp
  | some tdo => simp

/-- Twelve bits in two bytes. The first byte differs above the length and in a bit that the mask
leaves out, and only the second of two masks asks for that bit. -/
theorem compares_numbers_twelve_bits :
    let pattern : Pattern := {
      length := 12, tdi := some [0x00, 0x00], tdo := some [0x0A, 0x5C], mask := some [0x0D, 0xFF] }
    pattern.numBytes = 2 ∧ pattern.accepts [0xF8, 0x5C] = true ∧
      (numberOfBytes [0x0A, 0x5C] ^^^ numberOfBytes [0xF8, 0x5C]) &&& pattern.maskNumber &&&
        (2 ^ 12 - 1) = 0 ∧
      { pattern with mask := some (unionBytes [0x0D, 0x00] [0x02, 0xF0]) }.accepts [0xF8, 0x5C] =
        ({ pattern with mask := some [0x0D, 0x00] }.accepts [0xF8, 0x5C] &&
          { pattern with mask := some [0x02, 0xF0] }.accepts [0xF8, 0x5C]) := by
  intro pattern
  have hnumBytes : pattern.numBytes = 2 := by decide
  have htdo : ∀ tdo, pattern.tdo = some tdo → tdo.length = pattern.numBytes := by
    rintro tdo ⟨⟩
    exact hnumBytes.symm
  have hmask : ∀ mask, pattern.mask = some mask → mask.length = pattern.numBytes := by
    rintro mask ⟨⟩
    exact hnumBytes.symm
  have hobserved : ([0xF8, 0x5C] : List UInt8).length = pattern.numBytes := hnumBytes.symm
  obtain ⟨hnumbers, hmasks⟩ := compares_numbers htdo hmask hobserved
  have hpasses : pattern.accepts [0xF8, 0x5C] = true := by decide
  obtain hnone | ⟨tdo, hgiven, hzero⟩ := hnumbers.mp hpasses
  · cases hnone
  · cases hgiven
    exact ⟨hnumBytes, hpasses, hzero, hmasks _ _ hnumBytes.symm hnumBytes.symm⟩

end Pattern

end JtagPlayer
