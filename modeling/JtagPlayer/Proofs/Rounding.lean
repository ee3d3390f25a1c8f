import JtagPlayer.Json.Value
import Mathlib.Algebra.Group.Nat.Defs

/-!
# The last place of a rounded number

The arithmetic of double precision rounds exact results and packs them into bits. This module
follows the last place of a number through both. Rounding moves it by at most one beyond the place
that the magnitude asks for, `atMost_roundWithAccuracy`, and packing keeps it wherever it is in
range, `bounded_unpack_pack`. For products and quotients that gives `atMost_mul` and `atMost_div`.
-/

namespace JtagPlayer

open Float.Model Float.Model.UnpackedFloat

/-! ## Rounding -/

theorem log2_le_of_lt {n k : Nat} (h : n < 2 ^ (k + 1)) : n.log2 ≤ k := by
  by_cases hn : n = 0
  · simp [hn]
  · exact Nat.le_of_lt_succ ((Nat.log2_lt hn).mpr h)

theorem log2_div_two_pow {n : Nat} (hn : n ≠ 0) {k : Nat} (h : k ≤ n.log2) :
    (n / 2 ^ k).log2 = n.log2 - k := by
  have hsplit : 2 ^ n.log2 = 2 ^ (n.log2 - k) * 2 ^ k := by
    rw [← Nat.pow_add, Nat.sub_add_cancel h]
  have hlow : 2 ^ (n.log2 - k) ≤ n / 2 ^ k := by
    rw [Nat.le_div_iff_mul_le (Nat.two_pow_pos k), ← hsplit]
    exact Nat.log2_self_le hn
  have hhigh : n / 2 ^ k < 2 ^ (n.log2 - k + 1) := by
    rw [Nat.div_lt_iff_lt_mul (Nat.two_pow_pos k), Nat.pow_succ, Nat.mul_right_comm, ← hsplit,
      ← Nat.pow_succ]
    exact Nat.lt_log2_self
  have hpos : n / 2 ^ k ≠ 0 := Nat.ne_of_gt (Nat.lt_of_lt_of_le (Nat.two_pow_pos _) hlow)
  exact (Nat.log2_eq_iff hpos).mpr ⟨hlow, hhigh⟩

theorem mantissa_shiftRight (em : ExtendedMantissa) (count : Nat) :
    (em >>> count).mantissa = em.mantissa / 2 ^ count := by
  induction count with
  | zero => exact (Nat.div_one _).symm
  | succ count ih =>
    have hstep : (em >>> (count + 1)).mantissa = (em >>> count).mantissa / 2 := rfl
    rw [hstep, ih, Nat.div_div_eq_div_mul, Nat.pow_succ]

theorem mantissa_ofMantissaAndAccuracy (mantissa : Nat) (accuracy : Accuracy) :
    (ExtendedMantissa.ofMantissaAndAccuracy mantissa accuracy).mantissa = mantissa := by
  unfold ExtendedMantissa.ofMantissaAndAccuracy
  split <;> rfl

theorem roundedMantissa_bounds (em : ExtendedMantissa) :
    em.mantissa ≤ em.roundedMantissa ∧ em.roundedMantissa ≤ em.mantissa + 1 := by
  unfold ExtendedMantissa.roundedMantissa Accuracy.roundToNearestEven
  split <;> omega

/-- The number of binary digits of a mantissa that double precision has no place for. -/
def excess (mantissa : Nat) (exponent : Int) : Nat :=
  (Format.binary64.targetExponent (totalExponent mantissa exponent) - exponent).toNat

theorem excess_eq (mantissa : Nat) (exponent : Int) :
    (excess mantissa exponent : Int) =
      max (max ((mantissa.log2 : Int) - 52) (-1074 - exponent)) 0 := by
  have htarget : Format.binary64.targetExponent (totalExponent mantissa exponent) =
      max (mantissa.log2 + 1 + exponent - 53) (-1074) := rfl
  rw [excess, htarget, Int.ofNat_toNat]
  omega

/-- Rounding drops digits, adds at most one, and drops digits again. -/
theorem roundWithAccuracy_eq (sign : Sign) (mantissa : Nat) (exponent : Int)
    (accuracy : Accuracy) :
    ∃ rounded lost, mantissa / 2 ^ excess mantissa exponent ≤ rounded ∧
      rounded ≤ mantissa / 2 ^ excess mantissa exponent + 1 ∧
      lost = excess rounded (exponent + excess mantissa exponent) ∧
      roundWithAccuracy Format.binary64 sign mantissa exponent accuracy =
        if h : rounded / 2 ^ lost = 0 then .zero sign
        else .finite sign (rounded / 2 ^ lost) (exponent + excess mantissa exponent + lost)
          (Nat.pos_of_ne_zero h) := by
  let em := ExtendedMantissa.ofMantissaAndAccuracy mantissa accuracy >>> excess mantissa exponent
  have hmantissa : em.mantissa = mantissa / 2 ^ excess mantissa exponent := by
    rw [mantissa_shiftRight, mantissa_ofMantissaAndAccuracy]
  obtain ⟨hlow, hhigh⟩ := roundedMantissa_bounds em
  have hfinal : (shiftToTargetExponent Format.binary64 em.roundedMantissa
      (exponent + excess mantissa exponent) .exact).1.mantissa = em.roundedMantissa /
        2 ^ excess em.roundedMantissa (exponent + excess mantissa exponent) :=
    mantissa_shiftRight ⟨em.roundedMantissa, false, false⟩ _
  refine ⟨em.roundedMantissa, _, hmantissa ▸ hlow, hmantissa ▸ hhigh, rfl, ?_⟩
  rw [← hfinal]
  rfl

/-- A finite number whose last place is at most a given one. -/
def AtMost (place : Int) : UnpackedFloat → Prop
  | .zero _ => True
  | .finite _ _ exponent _ => exponent ≤ place
  | .infinity _ | .notANumber => False

/-- A finite number that is at least a power of two. -/
def AtLeast (power : Int) : UnpackedFloat → Prop
  | .finite _ mantissa exponent _ => power ≤ mantissa.log2 + exponent
  | .zero _ | .infinity _ | .notANumber => False

instance (power : Int) : (u : UnpackedFloat) → Decidable (AtLeast power u)
  | .finite _ mantissa exponent _ => inferInstanceAs (Decidable (power ≤ mantissa.log2 + exponent))
  | .zero _ | .infinity _ | .notANumber => inferInstanceAs (Decidable False)

/-- Rounding raises the last place by at most one where there is room for 53 digits. -/
theorem atMost_roundWithAccuracy {sign : Sign} {mantissa : Nat} {exponent place : Int}
    {accuracy : Accuracy} (hexponent : exponent ≤ place)
    (hmantissa : mantissa.log2 + exponent ≤ place + 52) (hplace : -1074 ≤ place) :
    AtMost (place + 1) (roundWithAccuracy Format.binary64 sign mantissa exponent accuracy) := by
  obtain ⟨rounded, lost, -, hrounded, hlost, heq⟩ :=
    roundWithAccuracy_eq sign mantissa exponent accuracy
  have hexcess := excess_eq mantissa exponent
  have hexcess' := excess_eq rounded (exponent + excess mantissa exponent)
  rw [← hlost] at hexcess'
  generalize excess mantissa exponent = shift at hrounded hexcess hexcess' heq
  have hlog : rounded.log2 ≤ mantissa.log2 + 1 - shift := by
    refine log2_le_of_lt (Nat.lt_of_le_of_lt hrounded ?_)
    have hdiv : mantissa / 2 ^ shift < 2 ^ (mantissa.log2 + 1 - shift) := by
      refine Nat.div_lt_of_lt_mul (Nat.lt_of_lt_of_le Nat.lt_log2_self ?_)
      rw [← Nat.pow_add]
      exact Nat.pow_le_pow_right (by decide) (by omega)
    have hpos := Nat.two_pow_pos (mantissa.log2 + 1 - shift)
    rw [Nat.pow_succ]
    exact Nat.lt_of_le_of_lt (Nat.succ_le_of_lt hdiv) (by omega)
  by_cases hzero : rounded / 2 ^ lost = 0
  · rw [heq, dif_pos hzero]
    trivial
  · rw [heq, dif_neg hzero]
    show _ ≤ _
    omega

/-- A number with at least 53 digits above the least place is rounded to exactly 53. -/
theorem roundWithAccuracy_normal {mantissa : Nat} {exponent : Int} (hmantissa : 52 ≤ mantissa.log2)
    (hexponent : -1074 ≤ exponent) (sign : Sign) (accuracy : Accuracy) :
    ∃ mantissa' exponent' h, roundWithAccuracy Format.binary64 sign mantissa exponent accuracy =
      .finite sign mantissa' exponent' h ∧ mantissa'.log2 = 52 ∧
        mantissa.log2 + exponent ≤ exponent' + 52 := by
  obtain ⟨rounded, lost, hrounded, -, hlost, heq⟩ :=
    roundWithAccuracy_eq sign mantissa exponent accuracy
  have hexcess := excess_eq mantissa exponent
  have hexcess' := excess_eq rounded (exponent + excess mantissa exponent)
  rw [← hlost] at hexcess'
  generalize excess mantissa exponent = shift at hrounded hexcess hexcess' heq
  have hne {n : Nat} (hlog : 52 ≤ n.log2) : n ≠ 0 := by
    rintro rfl
    cases hlog
  have hshifted : (mantissa / 2 ^ shift).log2 = 52 := by
    rw [log2_div_two_pow (hne hmantissa) (by omega)]
    omega
  have hle : 2 ^ 52 ≤ rounded := by
    refine Nat.le_trans ?_ hrounded
    rw [← hshifted]
    exact Nat.log2_self_le (hne (Nat.le_of_eq hshifted.symm))
  have hlog : 52 ≤ rounded.log2 :=
    (Nat.le_log2 (Nat.ne_of_gt (Nat.lt_of_lt_of_le (by decide) hle))).mpr hle
  have hfinal : (rounded / 2 ^ lost).log2 = 52 := by
    rw [log2_div_two_pow (hne hlog) (by omega)]
    omega
  exact ⟨_, _, _, heq.trans (dif_neg (hne (Nat.le_of_eq hfinal.symm))), hfinal, by omega⟩

/-! ## Packing -/

/-- A number as it is unpacked: of at most 53 digits, with its last place at most a given one. -/
def Bounded (place : Int) : UnpackedFloat → Prop
  | .zero _ => True
  | .finite _ mantissa exponent _ => mantissa < 2 ^ 53 ∧ exponent ≤ place
  | .infinity _ | .notANumber => False

theorem Bounded.mono {place place' : Int} {u : UnpackedFloat} (h : Bounded place u)
    (hle : place ≤ place') : Bounded place' u := by
  cases u with
  | zero => trivial
  | finite => exact ⟨h.1, Int.le_trans h.2 hle⟩
  | infinity | notANumber => exact h.elim

theorem Bounded.isFinite {place : Int} {u : UnpackedFloat} (h : Bounded place u) :
    u.isFinite = true := by
  cases u with
  | zero | finite => rfl
  | infinity | notANumber => exact h.elim

/-- The exponent as it stands in a packed number. -/
def exponentField (bits : BitVec Format.binary64.numBits) : Nat :=
  (unpackExponent bits).toNat

section Unpacking

variable {bits : BitVec Format.binary64.numBits}

theorem exponentField_le (bits : BitVec Format.binary64.numBits) : exponentField bits ≤ 2047 :=
  Nat.le_of_lt_succ (unpackExponent bits).isLt

/-- A field that is neither zero nor all ones goes with a leading bit. -/
theorem unpack_normal (hzero : exponentField bits ≠ 0) (hones : exponentField bits ≠ 2047) :
    ∃ sign mantissa h, UnpackedFloat.unpack Format.binary64 bits =
      .finite sign mantissa (exponentField bits - 1075) h ∧
        2 ^ 52 ≤ mantissa ∧ mantissa < 2 ^ 53 := by
  have hmantissa : (1#1 ++ unpackMantissa bits).toNat = 2 ^ 52 + (unpackMantissa bits).toNat := by
    rw [BitVec.toNat_append, ← Nat.shiftLeft_add_eq_or_of_lt (unpackMantissa bits).isLt]
    rfl
  have hlt : (unpackMantissa bits).toNat < 2 ^ 52 := (unpackMantissa bits).isLt
  have hones' : unpackExponent bits ≠ -1#11 := fun heq => hones (congrArg BitVec.toNat heq)
  have hzero' : unpackExponent bits ≠ 0#11 := fun heq => hzero (congrArg BitVec.toNat heq)
  have hunpack : UnpackedFloat.unpack Format.binary64 bits =
      .finite (Sign.ofBitVec (unpackSign bits)) (1#1 ++ unpackMantissa bits).toNat
        (exponentField bits - 1075) (by omega) :=
    (if_neg hones').trans (if_neg hzero')
  exact ⟨_, _, _, hunpack, by omega, by omega⟩

/-- A field of zeros goes with the least place. -/
theorem bounded_of_exponentField_eq_zero (h : exponentField bits = 0) :
    Bounded (-1074) (UnpackedFloat.unpack Format.binary64 bits) := by
  have hzero : unpackExponent bits = 0#11 := BitVec.eq_of_toNat_eq h
  have hones : unpackExponent bits ≠ -1#11 := by
    rw [hzero]
    decide
  unfold UnpackedFloat.unpack
  dsimp only
  rw [if_neg hones, if_pos hzero]
  by_cases hmantissa : unpackMantissa bits = 0#52
  · rw [dif_pos hmantissa]
    trivial
  · rw [dif_neg hmantissa]
    refine ⟨Nat.lt_trans (unpackMantissa bits).isLt (by decide), ?_⟩
    rw [hzero]
    decide

/-- A field of all ones goes with no finite number. -/
theorem bounded_of_exponentField_ne {place : Int} (hones : exponentField bits ≠ 2047)
    (hlow : -1074 ≤ place) (hhigh : exponentField bits ≤ place + 1075) :
    Bounded place (UnpackedFloat.unpack Format.binary64 bits) := by
  by_cases hzero : exponentField bits = 0
  · exact (bounded_of_exponentField_eq_zero hzero).mono hlow
  · obtain ⟨sign, mantissa, hpos, heq, -, hlt⟩ := unpack_normal hzero hones
    rw [heq]
    exact ⟨hlt, by omega⟩

/-- Every finite number is bounded. -/
theorem bounded_of_isFinite (h : (UnpackedFloat.unpack Format.binary64 bits).isFinite = true) :
    Bounded 971 (UnpackedFloat.unpack Format.binary64 bits) := by
  have hle := exponentField_le bits
  have hones : exponentField bits ≠ 2047 := by
    intro heq
    have hones : unpackExponent bits = -1#11 := BitVec.eq_of_toNat_eq heq
    unfold UnpackedFloat.unpack at h
    dsimp only at h
    rw [if_pos hones] at h
    split at h <;> cases h
  exact bounded_of_exponentField_ne hones (by decide) (by omega)

end Unpacking

section Packing

variable {sign : Sign} {mantissa : Nat} {exponent : Int} {hpos : 0 < mantissa}

/-- A number whose last place is too high becomes infinite. -/
theorem unpack_pack_of_lt (h : 971 < exponent) :
    UnpackedFloat.unpack Format.binary64
      (UnpackedFloat.pack Format.binary64 (.finite sign mantissa exponent hpos)) =
        .infinity sign := by
  have hexceeds : 2 ^ Format.binary64.exponentBits ≤ (exponent + Format.binary64.exponentBias +
      Format.binary64.mantissaBitsWithoutImplicit).toNat + 1 := by
    show 2048 ≤ (exponent + 1023 + 52).toNat + 1
    omega
  have hpack : UnpackedFloat.pack Format.binary64 (.finite sign mantissa exponent hpos) =
      packedInfinity Format.binary64 sign := if_pos hexceeds
  rw [hpack]
  cases sign <;> rfl

/-- Otherwise its last place gives the field of the exponent, if it has a leading bit. -/
theorem exponentField_pack (h : exponent ≤ 971) :
    exponentField (UnpackedFloat.pack Format.binary64 (.finite sign mantissa exponent hpos)) =
      if mantissa.log2 = 52 then (exponent + 1075).toNat else 0 := by
  have hbiased : exponent + Format.binary64.exponentBias +
      Format.binary64.mantissaBitsWithoutImplicit = exponent + 1075 := by
    show exponent + 1023 + 52 = exponent + 1075
    omega
  have hfits : ¬ 2 ^ Format.binary64.exponentBits ≤ (exponent + 1075).toNat + 1 := by
    show ¬ 2048 ≤ _
    omega
  have hbits : mantissa.log2 + 1 = Format.binary64.mantissaBits ↔ mantissa.log2 = 52 := by
    show _ = 53 ↔ _
    omega
  unfold UnpackedFloat.pack
  dsimp only
  rw [hbiased, if_neg hfits, exponentField]
  by_cases hlog : mantissa.log2 = 52
  · rw [if_pos (hbits.mpr hlog), if_pos hlog, unpackExponent_packComponents, BitVec.toNat_ofNat]
    exact Nat.mod_eq_of_lt (Nat.lt_of_not_le fun hle => hfits (Nat.le_succ_of_le hle))
  · rw [if_neg (mt hbits.mp hlog), if_neg hlog, unpackExponent_packComponents]
    rfl

/-- Packing keeps a bound on the last place. -/
theorem bounded_unpack_pack {u : UnpackedFloat} {place : Int} (h : AtMost place u)
    (hlow : -1074 ≤ place) (hhigh : place ≤ 971) :
    Bounded place
      (UnpackedFloat.unpack Format.binary64 (UnpackedFloat.pack Format.binary64 u)) := by
  cases u with
  | infinity | notANumber => exact h.elim
  | zero sign =>
    have hfield : exponentField (packedZero Format.binary64 sign) = 0 :=
      congrArg BitVec.toNat unpackExponent_packComponents
    exact (bounded_of_exponentField_eq_zero hfield).mono hlow
  | finite sign mantissa exponent hpos =>
    have hexponent : exponent ≤ place := h
    refine bounded_of_exponentField_ne ?_ hlow ?_ <;>
      · rw [exponentField_pack (Int.le_trans hexponent hhigh)]
        split <;> omega

/-- What is packed with a leading bit and its last place in range is unpacked at this place. -/
theorem unpack_pack_normal (hlog : mantissa.log2 = 52) (hlow : -1074 ≤ exponent)
    (hhigh : exponent ≤ 971) :
    ∃ sign' mantissa' h, UnpackedFloat.unpack Format.binary64
      (UnpackedFloat.pack Format.binary64 (.finite sign mantissa exponent hpos)) =
        .finite sign' mantissa' exponent h ∧ 2 ^ 52 ≤ mantissa' := by
  have hfield : exponentField
      (UnpackedFloat.pack Format.binary64 (.finite sign mantissa exponent hpos)) =
        (exponent + 1075).toNat :=
    (exponentField_pack hhigh).trans (if_pos hlog)
  obtain ⟨sign', mantissa', h, heq, hle, -⟩ := unpack_normal
    (by rw [hfield]; omega) (by rw [hfield]; omega)
  have hexponent : ((exponent + 1075).toNat : Int) - 1075 = exponent := by omega
  rw [hfield, hexponent] at heq
  exact ⟨sign', mantissa', h, heq, hle⟩

/-- Packing gives no value that is no number. -/
theorem isFinite_or_isInf {u : UnpackedFloat} {place : Int} (h : AtMost place u) :
    (UnpackedFloat.unpack Format.binary64 (UnpackedFloat.pack Format.binary64 u)).isFinite = true ∨
      (UnpackedFloat.unpack Format.binary64 (UnpackedFloat.pack Format.binary64 u)).isInf =
        true := by
  cases u with
  | infinity | notANumber => exact h.elim
  | zero sign =>
    have hzero : AtMost 971 (.zero sign) := trivial
    exact .inl (bounded_unpack_pack hzero (by decide) (by decide)).isFinite
  | finite sign mantissa exponent hpos =>
    by_cases hexponent : exponent ≤ 971
    · have hfinite : AtMost 971 (.finite sign mantissa exponent hpos) := hexponent
      exact .inl (bounded_unpack_pack hfinite (by decide) (by decide)).isFinite
    · rw [unpack_pack_of_lt (Int.not_le.mp hexponent)]
      exact .inr rfl

end Packing

/-! ## Arithmetic -/

theorem isFinite_iff {x : Float} : x.isFinite = true ↔ Bounded 971 x.toModel.unpack :=
  ⟨bounded_of_isFinite, Bounded.isFinite⟩

theorem log2_shiftLeft_le (n k : Nat) : (n <<< k).log2 ≤ n.log2 + k := by
  refine log2_le_of_lt ?_
  rw [Nat.shiftLeft_eq, Nat.add_right_comm, Nat.pow_add]
  exact Nat.mul_lt_mul_of_pos_right Nat.lt_log2_self (Nat.two_pow_pos k)

theorem log2_div_le {n m : Nat} (hm : m ≠ 0) : (n / m).log2 ≤ n.log2 - m.log2 := by
  refine log2_le_of_lt (Nat.div_lt_of_lt_mul (Nat.lt_of_lt_of_le Nat.lt_log2_self ?_))
  calc
    2 ^ (n.log2 + 1) ≤ 2 ^ m.log2 * 2 ^ (n.log2 - m.log2 + 1) := by
      rw [← Nat.pow_add]
      exact Nat.pow_le_pow_right (by decide) (by omega)
    _ ≤ m * 2 ^ (n.log2 - m.log2 + 1) := Nat.mul_le_mul_right _ (Nat.log2_self_le hm)

/-- The last place of a product. -/
theorem atMost_mul {u v : UnpackedFloat} {place place' : Int} (hu : Bounded place u)
    (hv : Bounded place' v) (h : -1127 ≤ place + place') :
    AtMost (place + place' + 54) (UnpackedFloat.mul Format.binary64 u v) := by
  cases u with
  | infinity | notANumber => exact hu.elim
  | zero sign =>
    cases v with
    | infinity | notANumber => exact hv.elim
    | zero | finite => trivial
  | finite sign mantissa exponent hpos =>
    cases v with
    | infinity | notANumber => exact hv.elim
    | zero => trivial
    | finite sign' mantissa' exponent' hpos' =>
      obtain ⟨hmantissa, hexponent⟩ := hu
      obtain ⟨hmantissa', hexponent'⟩ := hv
      have hlt : mantissa * mantissa' < 2 ^ 53 * 2 ^ 53 := Nat.mul_lt_mul'' hmantissa hmantissa'
      rw [← Nat.pow_add] at hlt
      have hlog := log2_le_of_lt hlt
      have hplace : place + place' + 54 = place + place' + 53 + 1 := by omega
      rw [hplace]
      exact atMost_roundWithAccuracy (by omega) (by omega) (by omega)

/-- The quotient of two mantissas has little more digits than the quotient of the numbers asks
for. -/
theorem divCore_bounds (mantissa : Nat) (exponent : Int) {mantissa' : Nat} (h : mantissa' ≠ 0)
    (exponent' : Int) :
    ∃ quotient place accuracy,
      divCore Format.binary64 mantissa exponent mantissa' exponent' =
        (quotient, place, accuracy) ∧
      place ≤ max (mantissa.log2 + exponent - (mantissa'.log2 + exponent') - 53) (-1074) ∧
      (quotient.log2 : Int) ≤
        max (mantissa.log2 + exponent - (mantissa'.log2 + exponent') - place) 0 := by
  obtain ⟨place, hplace⟩ : ∃ place, place = min (exponent - exponent')
      (Format.binary64.targetExponent (totalExponent mantissa exponent -
        totalExponent mantissa' exponent')) := ⟨_, rfl⟩
  have htarget : Format.binary64.targetExponent (totalExponent mantissa exponent -
      totalExponent mantissa' exponent') =
        max (mantissa.log2 + 1 + exponent - (mantissa'.log2 + 1 + exponent') - 53) (-1074) := rfl
  let shifted := mantissa <<< (exponent - exponent' - place).toNat
  have hquotient : (shifted / mantissa').log2 ≤ shifted.log2 - mantissa'.log2 := log2_div_le h
  have hshift : shifted.log2 ≤ mantissa.log2 + (exponent - exponent' - place).toNat :=
    log2_shiftLeft_le _ _
  have heq : divCore Format.binary64 mantissa exponent mantissa' exponent' =
      (shifted / mantissa', place, accuracyOfFraction (shifted % mantissa') mantissa') := by
    simp only [shifted, hplace]
    rfl
  exact ⟨_, _, _, heq, by omega, by omega⟩

/-- The last place of a quotient by a number that is eight at least. -/
theorem atMost_div {u : UnpackedFloat} (hu : Bounded 971 u) {sign : Sign} {mantissa : Nat}
    {exponent : Int} {hpos : 0 < mantissa} (h : 3 ≤ mantissa.log2 + exponent) :
    AtMost 971 (UnpackedFloat.div Format.binary64 u (.finite sign mantissa exponent hpos)) := by
  cases u with
  | infinity | notANumber => exact hu.elim
  | zero sign => trivial
  | finite sign' mantissa' exponent' hpos' =>
    obtain ⟨hmantissa', hexponent'⟩ := hu
    have hlog' := log2_le_of_lt hmantissa'
    obtain ⟨quotient, place, accuracy, heq, hplace, hquotient⟩ :=
      divCore_bounds mantissa' exponent' (Nat.ne_of_gt hpos) exponent
    have hround : UnpackedFloat.div Format.binary64 (.finite sign' mantissa' exponent' hpos')
        (.finite sign mantissa exponent hpos) =
          roundWithAccuracy Format.binary64 (sign' / sign) quotient place accuracy := by
      unfold UnpackedFloat.div
      dsimp only
      rw [heq]
    have hplace' : (971 : Int) = 970 + 1 := rfl
    rw [hround, hplace']
    exact atMost_roundWithAccuracy (by omega) (by omega) (by decide)

end JtagPlayer
