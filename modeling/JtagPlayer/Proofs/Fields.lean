import JtagPlayer.Proofs.Accesses
import Mathlib.Data.Nat.Bitwise

/-!
# Fields of register words

The functions of ten pins share a word. `PinRegisters.fieldOf` is the field of a pin in a word, and
`PinRegisters.functionOf` its field in the block. Which bits of a word are whose is settled once, in
`testBit_withFunction`: replacing a function changes the bits of the pin and no others. From that
follows what selecting functions and driving pins makes of the function of every pin.
-/

namespace JtagPlayer

namespace PinRegisters

/-! ## Bits -/

/-- A word has no bits from the 32nd on. -/
theorem testBit_word (word : UInt32) {bit : Nat} (hbit : 32 ≤ bit) :
    word.toNat.testBit bit = false :=
  Nat.testBit_lt_two_pow
    (Nat.lt_of_lt_of_le word.toNat_lt (Nat.pow_le_pow_right (by decide) hbit))

theorem testBit_complement (word : UInt32) (bit : Nat) :
    (~~~word).toNat.testBit bit = (decide (bit < 32) && !word.toNat.testBit bit) := by
  rw [UInt32.toNat_not, Nat.sub_sub, Nat.add_comm 1]
  exact Nat.testBit_two_pow_sub_succ word.toNat_lt bit

theorem testBit_shiftLeft_functionShift (word : UInt32) (pin bit : Nat) :
    (word <<< functionShift pin).toNat.testBit bit = (decide (bit < 32) &&
      (decide (3 * (pin % 10) ≤ bit) && word.toNat.testBit (bit - 3 * (pin % 10)))) := by
  have hshift : (functionShift pin).toNat % 32 = 3 * (pin % 10) := by
    rw [functionShift, UInt32.toNat_ofNat']
    omega
  rw [UInt32.toNat_shiftLeft, hshift, Nat.testBit_mod_two_pow, Nat.testBit_shiftLeft]

/-- The bits that select a function are the lowest three. -/
theorem testBit_bits (function : PinFunction) {bit : Nat} (hbit : 3 ≤ bit) :
    function.bits.toNat.testBit bit = false := by
  refine Nat.testBit_lt_two_pow (Nat.lt_of_lt_of_le ?_ (Nat.pow_le_pow_right (by decide) hbit))
  cases function <;> decide

/-- In a word with the function of a pin replaced, the three bits of the pin select that function
and all others are as before. -/
theorem testBit_withFunction (word : UInt32) (pin : Nat) (function : PinFunction) (bit : Nat) :
    (withFunction word pin function).toNat.testBit bit =
      if bit / 3 = pin % 10 then function.bits.toNat.testBit (bit - 3 * (pin % 10))
      else word.toNat.testBit bit := by
  have hmask : (7 : UInt32).toNat.testBit (bit - 3 * (pin % 10)) =
      decide (bit - 3 * (pin % 10) < 3) :=
    Nat.testBit_two_pow_sub_one 3 _
  rw [withFunction, UInt32.toNat_or, UInt32.toNat_and, Nat.testBit_or, Nat.testBit_and,
    testBit_complement, testBit_shiftLeft_functionShift, testBit_shiftLeft_functionShift, hmask]
  split
  · have hbelow : 3 * (pin % 10) ≤ bit := by omega
    have hthree : bit - 3 * (pin % 10) < 3 := by omega
    have hin : bit < 32 := by omega
    simp [hbelow, hthree, hin]
  · rename_i hother
    by_cases hin : bit < 32
    · by_cases hbelow : 3 * (pin % 10) ≤ bit
      · have hthree : 3 ≤ bit - 3 * (pin % 10) := by omega
        simp [hbelow, hthree, hin, testBit_bits]
      · simp [hbelow, hin]
    · simp [testBit_word word (not_lt.mp hin), hin]

/-- Exactly the bit of a pin is set in a word. -/
def IsBitOf (pin : Nat) (word : UInt32) : Prop :=
  ∀ bit, word.toNat.testBit bit = decide (bit = pin % 32)

theorem isBitOf_bankBit (pin : Nat) : IsBitOf pin (bankBit pin) := by
  intro bit
  have hshift : (UInt32.ofNat (pin % 32)).toNat % 32 = pin % 32 := by
    rw [UInt32.toNat_ofNat']
    omega
  have hfits : 1 <<< (pin % 32) < 2 ^ 32 := by
    rw [Nat.one_shiftLeft]
    exact Nat.pow_lt_pow_right (by decide) (by omega)
  rw [bankBit, UInt32.toNat_shiftLeft, hshift, UInt32.toNat_one, Nat.mod_eq_of_lt hfits,
    Nat.one_shiftLeft, Nat.testBit_two_pow]
  exact decide_eq_decide.mpr eq_comm

/-! ## Fields -/

/-- The number in the three bits of a pin. -/
def fieldOf (word : UInt32) (pin : Nat) : Nat :=
  word.toNat >>> (3 * (pin % 10)) % 8

/-- The number in the bits of a word that belong to no pin. -/
def spareOf (word : UInt32) : Nat :=
  word.toNat >>> 30

theorem testBit_fieldOf (word : UInt32) (pin bit : Nat) :
    (fieldOf word pin).testBit bit =
      (decide (bit < 3) && word.toNat.testBit (3 * (pin % 10) + bit)) := by
  have hfield := Nat.testBit_mod_two_pow (word.toNat >>> (3 * (pin % 10))) 3 bit
  rwa [Nat.testBit_shiftRight] at hfield

/-- Words with the same bits for a pin have the same field of it. -/
theorem fieldOf_congr {word word' : UInt32} {pin : Nat}
    (h : ∀ bit, bit / 3 = pin % 10 → word.toNat.testBit bit = word'.toNat.testBit bit) :
    fieldOf word pin = fieldOf word' pin := by
  refine Nat.eq_of_testBit_eq fun bit => ?_
  rw [testBit_fieldOf, testBit_fieldOf]
  by_cases hbit : bit < 3
  · rw [h (3 * (pin % 10) + bit) (by omega)]
  · simp [hbit]

theorem spareOf_congr {word word' : UInt32}
    (h : ∀ bit, 10 ≤ bit / 3 → word.toNat.testBit bit = word'.toNat.testBit bit) :
    spareOf word = spareOf word' := by
  refine Nat.eq_of_testBit_eq fun bit => ?_
  rw [spareOf, spareOf, Nat.testBit_shiftRight, Nat.testBit_shiftRight]
  exact h (30 + bit) (by omega)

/-- The field of a pin selects the function that is put there. -/
theorem fieldOf_withFunction (word : UInt32) (pin : Nat) (function : PinFunction) :
    fieldOf (withFunction word pin function) pin = function.bits.toNat := by
  refine Nat.eq_of_testBit_eq fun bit => ?_
  rw [testBit_fieldOf, testBit_withFunction]
  by_cases hbit : bit < 3
  · have hplace : (3 * (pin % 10) + bit) / 3 = pin % 10 := by omega
    simp [hbit, hplace]
  · simp [hbit, testBit_bits function (not_lt.mp hbit)]

/-- The fields of the other pins in the word are kept. -/
theorem fieldOf_withFunction_of_ne (word : UInt32) {pin other : Nat} (function : PinFunction)
    (h : other % 10 ≠ pin % 10) : fieldOf (withFunction word pin function) other =
      fieldOf word other := by
  refine fieldOf_congr fun bit hbit => ?_
  rw [testBit_withFunction, if_neg (hbit ▸ h)]

/-- The number that selects the function of a pin in the block. -/
def functionOf (words : Words) (pin : Nat) : Nat :=
  fieldOf (words.getD (functionIndex pin) 0) pin

/-- Selecting the function of a pin replaces it and keeps those of the other pins. -/
theorem functionOf_set_withFunction (words : Words) {pin : Nat} (function : PinFunction)
    (hpin : functionIndex pin < words.length) (other : Nat) :
    functionOf (words.set (functionIndex pin)
        (withFunction (words.getD (functionIndex pin) 0) pin function)) other =
      if other = pin then function.bits.toNat else functionOf words other := by
  rw [functionOf, Words.getD_set]
  by_cases hother : other = pin
  · rw [hother, if_pos ⟨rfl, hpin⟩, if_pos rfl, fieldOf_withFunction]
  · rw [if_neg hother]
    split
    · rename_i hindex
      have hplace : other % 10 ≠ pin % 10 := by
        have := hindex.1
        simp only [functionIndex] at this
        omega
      rw [fieldOf_withFunction_of_ne _ function hplace, hindex.1, functionOf]
    · rfl

/-- Words that select no functions may be stored. -/
theorem functionOf_set_of_ne (words : Words) {index pin : Nat} (word : UInt32)
    (h : index ≠ functionIndex pin) : functionOf (words.set index word) pin =
      functionOf words pin := by
  rw [functionOf, Words.getD_set, if_neg fun hindex => h hindex.1, functionOf]

end PinRegisters

end JtagPlayer
