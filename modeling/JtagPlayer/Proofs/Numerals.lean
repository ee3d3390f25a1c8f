import JtagPlayer.Json.Lexical
import JtagPlayer.Json.Writer

/-!
# Numerals in front of other text

Reading a number takes as many bytes as belong to it. If what follows cannot go on with a numeral,
or something was left anyway, a number is therefore read as if nothing followed: the reader
`Continues`. With that it is enough to look at written numbers on their own, and
`Number.survives_ofNat` does so for the natural numbers of 64 bits.
-/

namespace JtagPlayer

namespace Lexical

/-- A text that does not go on with a numeral. -/
def EndsNumeral (text : List UInt8) : Prop :=
  ∀ byte ∈ text.head?, Ascii.isDigit byte = false ∧ byte ≠ Ascii.point ∧ byte ≠ 0x65 ∧ byte ≠ 0x45

instance (text : List UInt8) : Decidable (EndsNumeral text) :=
  inferInstanceAs (Decidable (∀ byte ∈ text.head?, _))

/-- What is read from a text is read from it if more text follows that ends a numeral. -/
def Extends {α : Type} (read : List UInt8 → Reading α) : Prop :=
  ∀ ⦃text value rest⦄, read text = .ok (value, rest) → ∀ ⦃tail⦄, EndsNumeral tail →
    read (text ++ tail) = .ok (value, rest ++ tail)

/-- What is read from a text is read from it if more text follows. Only where nothing was left
might a numeral have gone on. -/
def Continues {α : Type} (read : List UInt8 → Reading α) : Prop :=
  ∀ ⦃text value rest⦄, read text = .ok (value, rest) →
    ∀ ⦃tail⦄, (rest = [] → EndsNumeral tail) → read (text ++ tail) = .ok (value, rest ++ tail)

theorem Continues.extends {α : Type} {read : List UInt8 → Reading α} (h : Continues read) :
    Extends read :=
  fun _ _ _ hread _ htail => h hread fun _ => htail

/-- Where less is left nothing can be left either. -/
theorem eq_nil_of_length_le {rest text : List UInt8} (h : rest.length ≤ text.length)
    (htext : text = []) : rest = [] :=
  List.eq_nil_of_length_eq_zero (by simpa [htext] using h)

variable {tail : List UInt8}

/-- What follows is not taken for more digits: something stands in front of it, or it ends a
numeral. -/
theorem readDigits_append (text : List UInt8)
    (htail : (readDigits text).2 = [] → EndsNumeral tail) :
    readDigits (text ++ tail) = ((readDigits text).1, (readDigits text).2 ++ tail) := by
  induction text with
  | nil =>
    cases tail with
    | nil => rfl
    | cons byte tail =>
      have hdigit := (htail rfl byte rfl).1
      simp [readDigits, hdigit]
  | cons byte text ih =>
    cases hdigit : Ascii.isDigit byte with
    | false => simp [readDigits, hdigit]
    | true =>
      simp only [readDigits, Prod.mk.injEq, List.dropWhile_cons, hdigit, if_true] at ih htail
      simp [readDigits, hdigit, ih htail]

/-- The same holds where there must be at least one. -/
theorem readSomeDigits_continues : Continues readSomeDigits := by
  intro text digits rest h tail htail
  cases text with
  | nil => cases h
  | cons byte text =>
    rw [readSomeDigits] at h
    rw [List.cons_append, readSomeDigits]
    split at h
    · rename_i hdigit
      have hdigits := Except.ok.inj h
      have hleft : (readDigits (byte :: text)).2 = [] → EndsNumeral tail := by rwa [hdigits]
      have happend := readDigits_append (byte :: text) hleft
      rw [hdigits] at happend
      rw [if_pos hdigit, ← List.cons_append, happend]
    · cases h

/-- A zero in front is alone, and must not be followed by a digit. -/
theorem readWhole_continues : Continues readWhole := by
  intro text digits rest h tail htail
  cases text with
  | nil => cases h
  | cons byte text =>
    unfold readWhole at h ⊢
    rw [List.cons_append]
    by_cases hzero : byte = Ascii.zero
    · simp only [hzero, if_true] at h ⊢
      split at h
      · cases h
      · rename_i hsingle
        cases h
        have hsingle' : ¬ ((rest ++ tail).head?.map Ascii.isDigit).getD false = true := by
          cases rest with
          | nil =>
            cases tail with
            | nil => nofun
            | cons byte tail => simpa using (htail rfl byte rfl).1
          | cons byte rest => exact hsingle
        rw [if_neg hsingle']
    · simp only [hzero, if_false] at h ⊢
      exact readSomeDigits_continues h htail

/-- A fraction begins only at a point, which ends no numeral. -/
theorem readFraction_continues : Continues readFraction := by
  intro text digits rest h tail htail
  cases text with
  | nil =>
    cases h
    cases tail with
    | nil => rfl
    | cons byte tail => exact if_neg (htail rfl byte rfl).2.1
  | cons byte text =>
    unfold readFraction at h ⊢
    rw [List.cons_append]
    by_cases hpoint : byte = Ascii.point
    · simp only [hpoint, if_true] at h ⊢
      exact readSomeDigits_continues h htail
    · simp only [hpoint, if_false] at h ⊢
      cases h
      rfl

/-- A sign is one byte, so that only a text of nothing can gain one. -/
theorem readSign_append {text : List UInt8} (hne : text ≠ []) (tail : List UInt8) :
    readSign (text ++ tail) = ((readSign text).1, (readSign text).2 ++ tail) := by
  cases text with
  | nil => exact absurd rfl hne
  | cons byte text =>
    rw [List.cons_append, readSign, readSign]
    repeat' split
    all_goals rfl

/-- An exponent begins only at its letter, which ends no numeral. -/
theorem readExponent_continues : Continues readExponent := by
  intro text exponent rest h tail htail
  cases text with
  | nil =>
    cases h
    cases tail with
    | nil => rfl
    | cons byte tail =>
      obtain ⟨-, -, hlower, hupper⟩ := htail rfl byte rfl
      exact if_neg (not_or.mpr ⟨hlower, hupper⟩)
  | cons byte text =>
    unfold readExponent at h ⊢
    rw [List.cons_append]
    by_cases hletter : byte = 0x65 ∨ byte = 0x45
    · simp only [hletter, if_true] at h ⊢
      have hne : text ≠ [] := by
        rintro rfl
        cases h
      split at h
      · rename_i hdigits
        cases h
        rw [readSign_append hne tail, readSomeDigits_continues hdigits htail]
      · cases h
    · simp only [hletter, if_false] at h ⊢
      cases h
      rfl

theorem readUnsigned_continues (negative : Bool) : Continues (readUnsigned negative) := by
  intro text numeral rest h tail htail
  unfold readUnsigned at h ⊢
  split at h
  · cases h
  · rename_i hwhole
    split at h
    · cases h
    · rename_i hfraction
      split at h
      · cases h
      · rename_i hexponent
        cases h
        -- If the fraction leaves nothing, neither does the exponent, and so on.
        have hexponentLe := length_le_of_readExponent hexponent
        have hfractionLe := length_le_of_readFraction hfraction
        rw [readWhole_continues hwhole fun hnil =>
          htail (eq_nil_of_length_le (Nat.le_trans hexponentLe hfractionLe) hnil)]
        dsimp only
        rw [readFraction_continues hfraction fun hnil =>
          htail (eq_nil_of_length_le hexponentLe hnil)]
        dsimp only
        rw [readExponent_continues hexponent htail]

theorem readNumeral_continues : Continues readNumeral := by
  intro text numeral rest h tail htail
  cases text with
  | nil => cases h
  | cons byte text =>
    unfold readNumeral at h ⊢
    rw [List.cons_append]
    by_cases hminus : byte = Ascii.minus
    · simp only [hminus, if_true] at h ⊢
      exact readUnsigned_continues true h htail
    · simp only [hminus, if_false] at h ⊢
      exact readUnsigned_continues false h htail

/-- The value of a numeral depends on its parts only. -/
theorem readNumber_continues : Continues readNumber := by
  intro text number rest h tail htail
  unfold readNumber at h ⊢
  split at h
  · cases h
  · rename_i hnumeral
    split at h
    · rename_i hvalue
      cases h
      rw [readNumeral_continues hnumeral htail]
      simp only [hvalue]
    · cases h

/-- A number begins with a digit or a minus sign. -/
theorem head_of_readNumber {text rest : List UInt8} {number : Number}
    (h : readNumber text = .ok (number, rest)) :
    ∃ byte tail, text = byte :: tail ∧ (byte = Ascii.minus ∨ Ascii.isDigit byte = true) := by
  cases text with
  | nil => cases h
  | cons byte tail =>
    refine ⟨byte, tail, rfl, Decidable.or_iff_not_imp_left.mpr fun hminus => ?_⟩
    refine Decidable.byContradiction fun hdigit => ?_
    have hzero : byte ≠ Ascii.zero := by
      rintro rfl
      exact hdigit (by decide)
    simp [readNumber, readNumeral, readUnsigned, readWhole, readSomeDigits, hminus, hzero,
      hdigit] at h

/-- Digits that are followed by nothing. -/
theorem readDigits_of_forall {text : List UInt8} (h : ∀ byte ∈ text, Ascii.isDigit byte = true) :
    readDigits text = (text.map Ascii.digitValue, []) := by
  induction text with
  | nil => rfl
  | cons byte text ih =>
    obtain ⟨hdigit, hrest⟩ := List.forall_mem_cons.mp h
    have hdigits := ih hrest
    simp only [readDigits, Prod.mk.injEq] at hdigits
    simp [readDigits, hdigit, hdigits]

/-- Digits that are a numeral on their own. -/
theorem readNumeral_of_forall {text : List UInt8} (hne : text ≠ [])
    (h : ∀ byte ∈ text, Ascii.isDigit byte = true)
    (hzero : text = [Ascii.zero] ∨ text.head? ≠ some Ascii.zero) :
    readNumeral text = .ok (⟨false, text.map Ascii.digitValue, [], none⟩, []) := by
  obtain ⟨byte, tail, rfl⟩ := List.exists_cons_of_ne_nil hne
  have hdigit : Ascii.isDigit byte = true := h byte List.mem_cons_self
  have hminus : byte ≠ Ascii.minus := by
    rintro rfl
    cases hdigit
  rcases hzero with hzero | hzero
  · cases hzero
    rfl
  · have hhead : byte ≠ Ascii.zero := fun heq => hzero (congrArg some heq)
    have hdigits : readWhole (byte :: tail) = .ok ((byte :: tail).map Ascii.digitValue, []) := by
      rw [readWhole, if_neg hhead, readSomeDigits, if_pos hdigit, readDigits_of_forall h]
    rw [readNumeral, if_neg hminus, readUnsigned, hdigits]
    rfl

end Lexical

namespace Numeral

/-- Digits that make a number of 64 bits are absorbed. -/
theorem absorb_eq {value : Nat} {digits : List Nat}
    (h : digits.foldl (fun value digit => 10 * value + digit) value ≤ maxWord) :
    absorb value digits = (digits.foldl (fun value digit => 10 * value + digit) value, 0) := by
  induction digits generalizing value with
  | nil => rfl
  | cons digit digits ih =>
    have hle : ∀ (digits : List Nat) (value : Nat),
        value ≤ digits.foldl (fun value digit => 10 * value + digit) value := by
      intro digits
      induction digits with
      | nil => exact fun value => Nat.le_refl value
      | cons digit digits ih => exact fun value => Nat.le_trans (by omega) (ih (10 * value + digit))
    rw [absorb, if_pos (Nat.le_trans (hle digits _) h), ih h, List.foldl_cons]

/-- Digits without a sign, a point or an exponent are an integer. -/
theorem value?_of_digits {digits : List Nat} (h : Lexical.digitsValue digits ≤ maxWord) :
    value? ⟨false, digits, [], none⟩ = some (.integer (Lexical.digitsValue digits)) := by
  have habsorb : absorb 0 digits = (Lexical.digitsValue digits, 0) := absorb_eq h
  simp [value?, habsorb]

end Numeral

namespace Json

/-- The last digit of a number, and those before it. -/
theorem writeNat_eq (value : Nat) :
    writeNat value =
      (if value < 10 then [] else writeNat (value / 10)) ++ [UInt8.ofNat (48 + value % 10)] := by
  have hdigit : ∀ {digit : Nat}, digit < 10 → digit.digitChar.toNat = 48 + digit :=
    Nat.toNat_digitChar_of_lt_ten
  rw [writeNat, Nat.toDigits_eq_if (by decide)]
  split
  · rename_i hlt
    simp [asciiBytes, hdigit hlt, Nat.mod_eq_of_lt hlt]
  · simp [asciiBytes, writeNat, hdigit (Nat.mod_lt value (by decide : 0 < 10))]

/-- A written number consists of digits, with which it begins properly, and has its value. -/
theorem writeNat_digits (value : Nat) :
    (∀ byte ∈ writeNat value, Ascii.isDigit byte = true) ∧
      (writeNat value = [Ascii.zero] ∨ (writeNat value).head? ≠ some Ascii.zero) ∧
      Lexical.digitsValue ((writeNat value).map Ascii.digitValue) = value := by
  have hdigit : ∀ digit < 10, Ascii.isDigit (UInt8.ofNat (48 + digit)) = true ∧
      Ascii.digitValue (UInt8.ofNat (48 + digit)) = digit := by
    decide
  induction value using Nat.strongRecOn with
  | ind value ih =>
    obtain ⟨hlast, hlastValue⟩ := hdigit (value % 10) (Nat.mod_lt _ (by decide))
    rw [writeNat_eq]
    generalize UInt8.ofNat (48 + value % 10) = last at hlast hlastValue ⊢
    by_cases hlt : value < 10
    · rw [Nat.mod_eq_of_lt hlt] at hlastValue
      rw [if_pos hlt, List.nil_append]
      refine ⟨List.forall_mem_singleton.mpr hlast, ?_, ?_⟩
      · rw [List.singleton_inj, List.head?_cons, Ne, Option.some.injEq]
        exact Decidable.em _
      · simp [Lexical.digitsValue, hlastValue]
    · obtain ⟨hdigits, hzero, hvalue⟩ := ih (value / 10) (by omega)
      rw [if_neg hlt]
      refine ⟨?_, ?_, ?_⟩
      · exact List.forall_mem_append.mpr ⟨hdigits, List.forall_mem_singleton.mpr hlast⟩
      · -- The number before the last digit is positive, so it does not begin with a zero.
        right
        cases hwrite : writeNat (value / 10) with
        | nil =>
          rw [hwrite] at hvalue
          exact absurd hvalue (by simp [Lexical.digitsValue]; omega)
        | cons byte tail =>
          rw [hwrite] at hzero hvalue
          refine hzero.resolve_left fun hsingle => ?_
          rw [hsingle] at hvalue
          have : value / 10 = 0 := hvalue.symm
          omega
      · rw [Lexical.digitsValue] at hvalue
        simp only [Lexical.digitsValue, List.map_append, List.foldl_append, hvalue, List.map_cons,
          List.map_nil, List.foldl_cons, List.foldl_nil, hlastValue]
        omega

end Json

/-- A number that is read back as it was written. -/
def Number.Survives (number : Number) : Prop :=
  Lexical.readNumber (Json.writeNumber number) = .ok (number, [])

instance (number : Number) : Decidable number.Survives :=
  match h : Lexical.readNumber (Json.writeNumber number) with
  | .ok (read, rest) =>
    decidable_of_iff (read = number ∧ rest = []) (by simp [Number.Survives, h])
  | .error failure => .isFalse (by simp [Number.Survives, h])

namespace Number

/-- A number that survives does so in front of other text. -/
theorem Survives.read {number : Number} (h : number.Survives) {rest : List UInt8}
    (hrest : Lexical.EndsNumeral rest) :
    Lexical.readNumber (Json.writeNumber number ++ rest) = .ok (number, rest) :=
  Lexical.readNumber_continues.extends h hrest

/-- Natural numbers of 64 bits survive. -/
theorem survives_ofNat {value : Nat} (h : value ≤ Numeral.maxWord) :
    Survives (.integer value) := by
  obtain ⟨hdigits, hzero, hvalue⟩ := Json.writeNat_digits value
  have hne : Json.writeNat value ≠ [] := by
    rw [Json.writeNat_eq]
    simp
  have hwrite : Json.writeNumber (.integer value) = Json.writeNat value := by
    simp [Json.writeNumber]
  rw [Survives, hwrite, Lexical.readNumber, Lexical.readNumeral_of_forall hne hdigits hzero]
  dsimp only
  rw [Numeral.value?_of_digits (hvalue.symm ▸ h), hvalue]

end Number

end JtagPlayer
