import JtagPlayer.Json.Lexical
import JtagPlayer.Proofs.Rounding

/-!
# Numbers that are read are finite

The value of a numeral is refused if it is too large, so reading never gives an infinity, and it
gives no value that is no number either: `Lexical.isFinite_of_readNumber`.

A product is finite unless it is infinite, which is looked at before it is used. A quotient by a
power of ten is smaller than what is divided. For that the powers must be what their name says up to
rounding: finite, and eight at least from ten on, `Numeral.atLeast_powerOfTen`.
-/

namespace JtagPlayer

open Float.Model Float.Model.UnpackedFloat

/-! ## Powers of ten -/

/-- A number that is scaled by a positive power of ten is rounded once. -/
theorem ofScientific_eq {mantissa exponent : Nat} (hmantissa : mantissa ≠ 0)
    (hexponent : exponent ≤ 2048) :
    UnpackedFloat.ofScientific Format.binary64 mantissa exponent =
      roundWithAccuracy Format.binary64 .positive ((mantissa <<< 53) * 10 ^ exponent) (-53)
        .exact := by
  have hhigh : ¬ (exponent : Int) > 2 ^ Format.binary64.exponentBits := by
    show ¬ (2048 : Int) < exponent
    omega
  have hlow : ¬ (exponent : Int) < -((2 ^ Format.binary64.exponentBits : Int) + mantissa.log2) := by
    show ¬ (exponent : Int) < -(2048 + mantissa.log2)
    omega
  unfold UnpackedFloat.ofScientific
  rw [dif_neg hmantissa, if_neg hhigh, if_neg hlow, if_pos (Int.natCast_nonneg exponent)]
  rfl

/-- A rounded number is at least as great as a power of two that it was not less than. -/
theorem atLeast_unpack_pack {mantissa : Nat} {exponent power : Int} (hlog : 52 ≤ mantissa.log2)
    (hlow : -1074 ≤ exponent) (hhigh : exponent ≤ 970) (hpower : power ≤ mantissa.log2 + exponent)
    (hfits : mantissa.log2 + exponent ≤ 1022) (sign : Sign) (accuracy : Accuracy) :
    AtLeast power (UnpackedFloat.unpack Format.binary64 (UnpackedFloat.pack Format.binary64
      (roundWithAccuracy Format.binary64 sign mantissa exponent accuracy))) := by
  have hmost : AtMost (970 + 1)
      (roundWithAccuracy Format.binary64 sign mantissa exponent accuracy) :=
    atMost_roundWithAccuracy hhigh (by omega) (by decide)
  obtain ⟨mantissa', exponent', hpos, heq, hlog', hexponent'⟩ :=
    roundWithAccuracy_normal hlog hlow sign accuracy
  rw [heq] at hmost ⊢
  have hplace : exponent' ≤ 971 := hmost
  obtain ⟨sign', mantissa'', hpos', hunpack, hle⟩ :=
    unpack_pack_normal hlog' (by omega) hplace
  have hlog'' : 52 ≤ mantissa''.log2 := (Nat.le_log2 (Nat.ne_of_gt hpos')).mpr hle
  rw [hunpack]
  show power ≤ mantissa''.log2 + exponent'
  omega

namespace Numeral

/-- Powers of ten are eight at least, except one. -/
theorem atLeast_powerOfTen {exponent : Nat} (hpos : 0 < exponent) (hle : exponent ≤ maxPower) :
    AtLeast 3 (powerOfTen exponent).toModel.unpack := by
  have htable : ∀ exponent < 23, 0 < exponent → AtLeast 3 (powerOfTen exponent).toModel.unpack := by
    decide +kernel
  by_cases hsmall : exponent < 23
  · exact htable exponent hsmall hpos
  by_cases hlast : exponent = maxPower
  · rw [hlast]
    decide +kernel
  have hslow : ¬ (1 < 2 ^ 53 ∧ exponent ≤ 22) := by omega
  have hexponent : exponent ≤ 307 := by
    simp only [maxPower] at hle hlast
    omega
  have heq : (powerOfTen exponent).toModel = pack (roundWithAccuracy Format.binary64 .positive
      ((1 <<< 53) * 10 ^ exponent) (-53) .exact) := by
    rw [← ofScientific_eq (by decide) (by omega), powerOfTen, Float.ofScientific, dif_neg hslow]
    rfl
  have hhigh : ((1 <<< 53) * 10 ^ exponent).log2 ≤ 1075 := by
    refine log2_le_of_lt (Nat.lt_of_le_of_lt (Nat.mul_le_mul_left _
      (Nat.pow_le_pow_right (by decide) hexponent)) ?_)
    decide +kernel
  have hlow : 56 ≤ ((1 <<< 53) * 10 ^ exponent).log2 := by
    have hten : 10 ≤ 10 ^ exponent := Nat.le_self_pow (Nat.ne_of_gt hpos) 10
    have hle : 2 ^ 56 ≤ (1 <<< 53) * 10 ^ exponent := by
      refine Nat.le_trans ?_ (Nat.mul_le_mul_left (1 <<< 53) hten)
      decide
    exact (Nat.le_log2 (Nat.ne_of_gt (Nat.lt_of_lt_of_le (by decide) hle))).mpr hle
  rw [heq]
  exact atLeast_unpack_pack (Nat.le_trans (by decide) hlow) (by decide) (by decide) (by omega)
    (by omega) .positive .exact

theorem isFinite_powerOfTen {exponent : Nat} (hle : exponent ≤ maxPower) :
    (powerOfTen exponent).isFinite = true := by
  cases exponent with
  | zero => decide +kernel
  | succ exponent =>
    have hleast := atLeast_powerOfTen (Nat.succ_pos exponent) hle
    show UnpackedFloat.isFinite _ = true
    cases hunpack : (powerOfTen (exponent + 1)).toModel.unpack with
    | finite => rfl
    | zero | infinity | notANumber =>
      rw [hunpack] at hleast
      exact hleast.elim

end Numeral

/-! ## Finite results -/

theorem isFinite_pack {u : UnpackedFloat} {place : Int} (h : AtMost place u)
    (hlow : -1074 ≤ place) (hhigh : place ≤ 971) : (Float.ofModel (pack u)).isFinite = true :=
  (bounded_unpack_pack h hlow hhigh).isFinite

/-- A product of numbers whose last places are low enough is finite. -/
theorem isFinite_mul_of_bounded {x y : Float} {place place' : Int}
    (hx : Bounded place x.toModel.unpack) (hy : Bounded place' y.toModel.unpack)
    (hlow : -1127 ≤ place + place') (hhigh : place + place' ≤ 917) : (x * y).isFinite = true :=
  isFinite_pack (atMost_mul hx hy hlow) (by omega) (by omega)

/-- A product of finite numbers is finite or infinite. -/
theorem isFinite_mul {x y : Float} (hx : x.isFinite = true) (hy : y.isFinite = true)
    (h : (x * y).isInf = false) : (x * y).isFinite = true := by
  have hmost := atMost_mul (isFinite_iff.mp hx) (isFinite_iff.mp hy) (by decide)
  exact (isFinite_or_isInf hmost).resolve_right fun hinf =>
    Bool.false_ne_true (h.symm.trans hinf)

/-- A quotient by a power of ten is finite. -/
theorem isFinite_div_powerOfTen {x : Float} (hx : x.isFinite = true) {exponent : Nat}
    (hpos : 0 < exponent) (hle : exponent ≤ Numeral.maxPower) :
    (x / Numeral.powerOfTen exponent).isFinite = true := by
  have hleast := Numeral.atLeast_powerOfTen hpos hle
  have hmost : AtMost 971 (UnpackedFloat.div Format.binary64 x.toModel.unpack
      (Numeral.powerOfTen exponent).toModel.unpack) := by
    cases hunpack : (Numeral.powerOfTen exponent).toModel.unpack with
    | finite =>
      rw [hunpack] at hleast
      exact atMost_div (isFinite_iff.mp hx) hleast
    | zero | infinity | notANumber =>
      rw [hunpack] at hleast
      exact hleast.elim
  exact isFinite_pack hmost (by decide) (by decide)

theorem isFinite_neg {x : Float} (hx : x.isFinite = true) : (-x).isFinite = true := by
  have hmost : AtMost 971 x.toModel.unpack.neg := by
    have hbounded := isFinite_iff.mp hx
    cases hunpack : x.toModel.unpack with
    | zero => trivial
    | finite =>
      rw [hunpack] at hbounded
      exact hbounded.2
    | infinity | notANumber =>
      rw [hunpack] at hbounded
      exact hbounded.elim
  exact isFinite_pack hmost (by decide) (by decide)

/-- Integers of 64 bits are finite, with their last place near the units. -/
theorem bounded_toFloat (n : UInt64) : Bounded 12 n.toFloat.toModel.unpack := by
  have hmost : AtMost (11 + 1) (UnpackedFloat.ofUInt64 Format.binary64 n) := by
    unfold UnpackedFloat.ofUInt64 UnpackedFloat.ofNat UnpackedFloat.ofInt UnpackedFloat.normalize
    split
    · rename_i hlt
      rw [Int.compare_eq_lt] at hlt
      omega
    · trivial
    · have hlog : n.toNat.log2 ≤ 63 := log2_le_of_lt n.toNat_lt
      have hshift := log2_shiftLeft_le n.toNat (0 - Format.binary64.targetExponent
        (totalExponent n.toNat 0)).toNat
      unfold UnpackedFloat.round decreaseExponent
      dsimp only
      rw [Int.toNat_natCast]
      exact atMost_roundWithAccuracy (by omega) (by omega) (by decide)
  exact bounded_unpack_pack hmost (by decide) (by decide)

theorem bounded_one : Bounded (-52) (Float.ofBits 0x3ff0000000000000).toModel.unpack :=
  ⟨by decide, by decide⟩

theorem atMost_ofScientific {n : Nat} (hne : n ≠ 0) (h : n < 2 ^ 65) :
    AtMost (13 + 1) (UnpackedFloat.ofScientific Format.binary64 n (0 : Nat)) := by
  have hlog : n.log2 ≤ 64 := log2_le_of_lt h
  have hshift := log2_shiftLeft_le n 53
  rw [ofScientific_eq hne (by decide), Nat.pow_zero, Nat.mul_one]
  refine atMost_roundWithAccuracy ?_ ?_ ?_
  · decide
  · omega
  · decide

/-- Natural numbers are converted as one times themselves. -/
theorem isFinite_ofNat {n : Nat} (h : n < 2 ^ 65) : (Float.ofNat n).isFinite = true := by
  show (Float.ofScientific n false 0).isFinite = true
  by_cases hsmall : n < 2 ^ 53 ∧ 0 ≤ 22
  · have hfast : Float.ofScientific n false 0 =
        n.toUInt64.toFloat * Float.ofBits 0x3ff0000000000000 := by
      rw [Float.ofScientific, dif_pos hsmall]
      rfl
    rw [hfast]
    exact isFinite_mul_of_bounded (bounded_toFloat n.toUInt64) bounded_one (by decide) (by decide)
  · have hne : n ≠ 0 := by omega
    have hslow : Float.ofScientific n false 0 =
        .ofModel (pack (UnpackedFloat.ofScientific Format.binary64 n (0 : Nat))) := by
      rw [Float.ofScientific, dif_neg hsmall]
      rfl
    rw [hslow]
    exact isFinite_pack (atMost_ofScientific hne h) (by decide) (by decide)

theorem isFinite_ofInt {value : Int} (h : value.natAbs < 2 ^ 65) :
    (Float.ofInt value).isFinite = true := by
  cases value with
  | ofNat n => exact isFinite_ofNat h
  | negSucc n => exact isFinite_neg (isFinite_ofNat h)

namespace Numeral

/-- Scaling a finite number gives a finite one, if any. -/
theorem isFinite_of_scale {value scaled : Float} {exponent : Int} (hvalue : value.isFinite = true)
    (h : scale value exponent = some scaled) : scaled.isFinite = true := by
  fun_induction scale value exponent with
  | case1 => cases h
  | case2 value exponent hpos hle product hinf =>
    have hpower : exponent.toNat ≤ maxPower := by omega
    rw [← Option.some.inj h]
    exact isFinite_mul hvalue (isFinite_powerOfTen hpower) (Bool.eq_false_iff.mpr hinf)
  | case3 | case6 =>
    cases h
    exact hvalue
  | case4 => cases h
  | case5 value exponent hneg hle =>
    cases h
    exact isFinite_div_powerOfTen hvalue (by omega) (by omega)
  | case7 value exponent hneg hlow hne ih =>
    exact ih (isFinite_div_powerOfTen hvalue (by decide) (Nat.le_refl _)) h

/-- The digits of a numeral that are absorbed make a number of 64 bits. -/
theorem absorb_le {value : Nat} (digits : List Nat) (h : value ≤ maxWord) :
    (absorb value digits).1 ≤ maxWord := by
  induction digits generalizing value with
  | nil => exact h
  | cons digit digits ih =>
    unfold absorb
    split
    · exact ih ‹_›
    · exact h

theorem isFinite_of_decimal? {numeral : Numeral} {number : Number}
    (h : numeral.decimal? = some number) : number.toFloat.isFinite = true := by
  obtain ⟨magnitude, hmagnitude, rfl⟩ := Option.map_eq_some_iff.mp h
  have hfinite : magnitude.isFinite = true :=
    isFinite_of_scale (bounded_toFloat _).isFinite hmagnitude
  show (if numeral.negative then -magnitude else magnitude).isFinite = true
  split
  · exact isFinite_neg hfinite
  · exact hfinite

/-- The value of a numeral is finite. -/
theorem isFinite_of_value? {numeral : Numeral} {number : Number}
    (h : numeral.value? = some number) : number.toFloat.isFinite = true := by
  have hword := absorb_le numeral.whole (Nat.zero_le maxWord)
  have hmax : maxWord < 2 ^ 65 := by decide
  unfold value? at h
  split at h
  rename_i value dropped habsorb
  rw [habsorb] at hword
  repeat' split at h
  · cases h
    exact isFinite_ofInt (Nat.lt_of_le_of_lt hword hmax)
  · cases h
    refine isFinite_ofInt ?_
    rw [Int.natAbs_neg]
    exact Nat.lt_of_le_of_lt hword hmax
  · exact isFinite_of_decimal? h
  · exact isFinite_of_decimal? h

end Numeral

/-- A number that is read is finite. -/
theorem Lexical.isFinite_of_readNumber {text rest : List UInt8} {number : Number}
    (h : readNumber text = .ok (number, rest)) : number.toFloat.isFinite = true := by
  unfold readNumber at h
  split at h
  · cases h
  · split at h
    · cases h
      exact Numeral.isFinite_of_value? ‹_›
    · cases h

end JtagPlayer
