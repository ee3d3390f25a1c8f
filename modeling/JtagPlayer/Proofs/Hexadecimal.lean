import JtagPlayer.Hex
import JtagPlayer.Proofs.Numbers

/-!
# Hexadecimal texts

What a text of hexadecimal digits denotes is said of its characters alone: which of them are digits
and which may stand between digits (`Hex.IsHexadecimal`), what the digits are in upper case
(`Hex.digitsOf`), and which number they denote (`Hex.numberOfDigits`). `Hex.codec_exact` says that
texts are read and written by these, whatever the text and whatever the bytes.

A byte is two digits, and reading and writing agree because bytes and their halves are inverse:
`Hex.bytesOfDigits_halves` and `Hex.halves_bytesOfDigits`. What is read of a whole text, blanks and
all, is settled before in `Hex.decode_eq`.
-/

namespace JtagPlayer

namespace Hex

/-- A list is kept by a function that keeps all of its members. -/
theorem map_eq_self {α : Type} {f : α → α} {values : List α}
    (h : ∀ value ∈ values, f value = value) : values.map f = values :=
  (List.map_congr_left h).trans (List.map_id' values)

/-! ## Characters -/

/-- The sixteen digits in upper case, each in the place of its value. -/
def numerals : List Char :=
  ['0', '1', '2', '3', '4', '5', '6', '7', '8', '9', 'A', 'B', 'C', 'D', 'E', 'F']

/-- The digits of either case. -/
def digitCharacters : List Char :=
  numerals ++ ['a', 'b', 'c', 'd', 'e', 'f']

/-- The characters that may stand between digits: space, tab, line feed, form feed and carriage
return. -/
def blanks : List Char :=
  [' ', '\t', '\n', '\x0c', '\r']

theorem isBlank_iff (c : Char) : isBlank c = true ↔ c ∈ blanks := by
  simp [isBlank, blanks, or_assoc]

/-- What is known of a digit: its code is small, it is no blank, and its upper case is one of the
sixteen. -/
theorem digit_character {c : Char} (h : c ∈ digitCharacters) :
    c.toNat < 128 ∧ isBlank c = false ∧ c.toUpper ∈ numerals := by
  have hall : digitCharacters.all fun c =>
      c.toNat < 128 ∧ isBlank c = false ∧ c.toUpper ∈ numerals := by decide
  exact of_decide_eq_true (List.all_eq_true.mp hall c h)

/-- A digit in upper case is written for its place. -/
theorem digit_idxOf {c : Char} (h : c ∈ numerals) :
    numerals.idxOf c < 16 ∧ digit (numerals.idxOf c) = c := by
  have hall : numerals.all fun c =>
      numerals.idxOf c < 16 ∧ digit (numerals.idxOf c) = c := by decide
  exact of_decide_eq_true (List.all_eq_true.mp hall c h)

/-- What is written for a value is the digit in its place, and stays the same in upper case. -/
theorem digit_written {value : Nat} (h : value < 16) :
    digit value ∈ digitCharacters ∧ (digit value).toUpper = digit value ∧
      numerals.idxOf (digit value) = value := by
  have hall : ∀ value < 16, digit value ∈ digitCharacters ∧
      (digit value).toUpper = digit value ∧ numerals.idxOf (digit value) = value := by decide
  exact hall value h

/-- No character from the 128th on has a value. -/
theorem digitValue?_of_large {c : Char} (h : 128 ≤ c.toNat) : digitValue? c = none := by
  have hlarge : ∀ bound : Char, bound.toNat < 128 → ¬ c ≤ bound := fun bound hbound hle =>
    absurd (Nat.lt_of_le_of_lt hle hbound) (Nat.not_lt.mpr h)
  rw [digitValue?, if_neg fun hrange => hlarge '9' (by decide) hrange.2,
    if_neg fun hrange => hlarge 'F' (by decide) hrange.2,
    if_neg fun hrange => hlarge 'f' (by decide) hrange.2]

/-- The value of a digit is the place of its upper case, and other characters have none. -/
theorem digitValue?_eq (c : Char) :
    digitValue? c =
      if c ∈ digitCharacters then some (numerals.idxOf c.toUpper) else none := by
  by_cases hsmall : c.toNat < 128
  · have hall : ∀ code < 128, digitValue? (Char.ofNat code) =
        if Char.ofNat code ∈ digitCharacters then
          some (numerals.idxOf (Char.ofNat code).toUpper)
        else none := by
      decide +kernel
    rw [← Char.ofNat_toNat c]
    exact hall c.toNat hsmall
  · rw [digitValue?_of_large (Nat.le_of_not_lt hsmall),
      if_neg fun hdigit => hsmall (digit_character hdigit).1]

/-- Some characters have values if all of them are digits. -/
theorem mapM_digitValue? (cs : List Char) :
    cs.mapM digitValue? =
      if cs.all fun c => c ∈ digitCharacters then
        some ((cs.map Char.toUpper).map numerals.idxOf)
      else none := by
  induction cs with
  | nil => rfl
  | cons c cs ih =>
    rw [List.mapM_cons, digitValue?_eq, ih, List.all_cons]
    by_cases hdigit : c ∈ digitCharacters
    · rw [if_pos hdigit, decide_eq_true hdigit, Bool.true_and]
      cases cs.all fun c => c ∈ digitCharacters <;> rfl
    · rw [if_neg hdigit, decide_eq_false hdigit, Bool.false_and]
      rfl

/-! ## Texts -/

/-- A text of digits and blanks. -/
def IsHexadecimal (text : String) : Prop :=
  ∀ c ∈ text.toList, c ∈ digitCharacters ∨ c ∈ blanks

instance : DecidablePred IsHexadecimal := fun text =>
  List.decidableBAll (fun c => c ∈ digitCharacters ∨ c ∈ blanks) text.toList

/-- The digits of a text, in order and in upper case. -/
def digitsOf (text : String) : List Char :=
  (text.toList.filter fun c => c ∈ digitCharacters).map Char.toUpper

/-- Digits with a zero in front if their number is odd. -/
def completed (digits : List Char) : List Char :=
  if digits.length % 2 = 1 then '0' :: digits else digits

/-- The number that digits in upper case denote, most significant first. -/
def numberOfDigits (digits : List Char) : Nat :=
  digits.foldl (fun number c => 16 * number + numerals.idxOf c) 0

theorem mem_numerals_of_mem_digitsOf {text : String} {c : Char} (h : c ∈ digitsOf text) :
    c ∈ numerals := by
  obtain ⟨original, hmem, rfl⟩ := List.mem_map.mp h
  exact (digit_character (of_decide_eq_true (List.mem_filter.mp hmem).2)).2.2

theorem mem_numerals_of_mem_completed {text : String} {c : Char}
    (h : c ∈ completed (digitsOf text)) : c ∈ numerals := by
  unfold completed at h
  split at h
  · rcases List.mem_cons.mp h with rfl | hmem
    · decide
    · exact mem_numerals_of_mem_digitsOf hmem
  · exact mem_numerals_of_mem_digitsOf h

/-- A text is hexadecimal if only digits are left of it without its blanks. -/
theorem isHexadecimal_iff (text : String) :
    IsHexadecimal text ↔
      ((text.toList.filter fun c => !isBlank c).all fun c => c ∈ digitCharacters) = true := by
  simp only [List.all_eq_true, decide_eq_true_iff]
  constructor
  · intro h c hc
    obtain ⟨hmem, hblank⟩ := List.mem_filter.mp hc
    refine (h c hmem).resolve_right fun hblanks => ?_
    rw [(isBlank_iff c).mpr hblanks] at hblank
    cases hblank
  · intro h c hc
    by_cases hblank : isBlank c = true
    · exact .inr ((isBlank_iff c).mp hblank)
    · exact .inl (h c (List.mem_filter.mpr ⟨hc, by simp [hblank]⟩))

/-- What is left of a hexadecimal text without its blanks are its digits. -/
theorem filter_not_isBlank {text : String} (h : IsHexadecimal text) :
    (text.toList.filter fun c => !isBlank c) =
      text.toList.filter fun c => c ∈ digitCharacters := by
  refine List.filter_congr fun c hc => ?_
  by_cases hdigit : c ∈ digitCharacters
  · simp [hdigit, (digit_character hdigit).2.1]
  · have hblank := (isBlank_iff c).mpr ((h c hc).resolve_left hdigit)
    simp [hdigit, hblank]

/-- The values of the digits of a text are read, if it is hexadecimal. -/
theorem decode_eq (text : String) :
    decode text =
      if IsHexadecimal text then
        .ok (bytesOfDigits (padEven ((digitsOf text).map numerals.idxOf)))
      else .error { text } := by
  rw [decode, mapM_digitValue?]
  by_cases h : IsHexadecimal text
  · rw [if_pos ((isHexadecimal_iff text).mp h), if_pos h, filter_not_isBlank h, digitsOf]
  · rw [if_neg fun hall => h ((isHexadecimal_iff text).mpr hall), if_neg h]

/-! ## Bytes and their halves -/

/-- The values of the two digits of a byte. -/
def halves (byte : UInt8) : List Nat :=
  [byte.toNat / 16, byte.toNat % 16]

theorem lt_of_mem_halves {bytes : List UInt8} {value : Nat} (h : value ∈ bytes.flatMap halves) :
    value < 16 := by
  obtain ⟨byte, -, hvalue⟩ := List.mem_flatMap.mp h
  have hbyte := byte.toNat_lt
  simp only [halves, List.mem_cons, List.not_mem_nil, or_false] at hvalue
  omega

theorem length_halves (bytes : List UInt8) :
    (bytes.flatMap halves).length = 2 * bytes.length := by
  induction bytes with
  | nil => rfl
  | cons byte bytes ih =>
    rw [List.flatMap_cons, List.length_append, ih, List.length_cons, halves, List.length_cons,
      List.length_singleton]
    omega

/-- Bytes are recovered from their halves. -/
theorem bytesOfDigits_halves (bytes : List UInt8) :
    bytesOfDigits (bytes.flatMap halves) = bytes := by
  induction bytes with
  | nil => rfl
  | cons byte bytes ih =>
    rw [List.flatMap_cons, halves, List.cons_append, List.singleton_append, bytesOfDigits,
      Nat.div_add_mod, UInt8.ofNat_toNat, ih]

/-- An even number of digits is recovered from the bytes that are made of them. -/
theorem halves_bytesOfDigits {digits : List Nat} (heven : digits.length % 2 = 0)
    (hsmall : ∀ value ∈ digits, value < 16) : (bytesOfDigits digits).flatMap halves = digits := by
  induction digits using bytesOfDigits.induct with
  | case1 high low digits ih =>
    obtain ⟨hhigh, hlow, hrest⟩ :
        high < 16 ∧ low < 16 ∧ ∀ value ∈ digits, value < 16 := by simpa using hsmall
    have hbyte : (UInt8.ofNat (16 * high + low)).toNat = 16 * high + low :=
      UInt8.toNat_ofNat_of_lt' (Nat.lt_of_lt_of_le (by omega : 16 * high + low < 256) (by decide))
    have hdiv : (16 * high + low) / 16 = high := by omega
    have hmod : (16 * high + low) % 16 = low := by omega
    have heven' : digits.length % 2 = 0 := by
      rw [List.length_cons, List.length_cons] at heven
      omega
    rw [bytesOfDigits, List.flatMap_cons, halves, hbyte, hdiv, hmod, ih heven' hrest]
    rfl
  | case2 digits hshort =>
    obtain _ | ⟨first, _ | ⟨second, more⟩⟩ := digits
    · rfl
    · cases heven
    · exact absurd rfl (hshort first second more)

/-- A digit is written for each half. -/
theorem encode_eq (bytes : List UInt8) :
    encode bytes = String.ofList ((bytes.flatMap halves).map digit) := by
  rw [encode, List.map_flatMap]
  rfl

/-- Bytes denote what their halves denote in base sixteen. -/
theorem numberOfBytes_eq_halves (bytes : List UInt8) :
    numberOfBytes bytes =
      (bytes.flatMap halves).foldl (fun number value => 16 * number + value) 0 := by
  rw [List.foldl_flatMap, numberOfBytes]
  congr 1
  funext number byte
  rw [halves, List.foldl_cons, List.foldl_cons, List.foldl_nil]
  omega

/-! ## Reading and writing -/

/-- What is written is hexadecimal, and its digits are all of it. -/
theorem digitsOf_encode (bytes : List UInt8) :
    IsHexadecimal (encode bytes) ∧ digitsOf (encode bytes) = (bytes.flatMap halves).map digit := by
  have hdigit : ∀ c ∈ (bytes.flatMap halves).map digit,
      c ∈ digitCharacters ∧ c.toUpper = c := by
    intro c hc
    obtain ⟨value, hvalue, rfl⟩ := List.mem_map.mp hc
    obtain ⟨hdigit, hupper, -⟩ := digit_written (lt_of_mem_halves hvalue)
    exact ⟨hdigit, hupper⟩
  rw [IsHexadecimal, digitsOf, encode_eq, String.toList_ofList]
  refine ⟨fun c hc => .inl (hdigit c hc).1, ?_⟩
  rw [List.filter_eq_self.mpr fun c hc => decide_eq_true (hdigit c hc).1]
  exact map_eq_self fun c hc => (hdigit c hc).2

/-- Bytes are recovered from what is written for them. -/
theorem decode_encode (bytes : List UInt8) : decode (encode bytes) = .ok bytes := by
  obtain ⟨hexadecimal, hdigits⟩ := digitsOf_encode bytes
  have hvalues : ((bytes.flatMap halves).map digit).map numerals.idxOf = bytes.flatMap halves := by
    rw [List.map_map]
    exact map_eq_self fun value hvalue => (digit_written (lt_of_mem_halves hvalue)).2.2
  have heven : (bytes.flatMap halves).length % 2 = 0 := by
    rw [length_halves, Nat.mul_mod_right]
  rw [decode_eq, if_pos hexadecimal, hdigits, hvalues, padEven, if_pos heven,
    bytesOfDigits_halves]

/-- The digit in front of an odd number of values is a zero. -/
theorem padEven_map_idxOf (digits : List Char) :
    padEven (digits.map numerals.idxOf) = (completed digits).map numerals.idxOf := by
  unfold padEven completed
  rw [List.length_map]
  by_cases hodd : digits.length % 2 = 1
  · rw [if_neg (by omega), if_pos hodd]
    rfl
  · rw [if_pos (by omega), if_neg hodd]

theorem length_completed (digits : List Char) : (completed digits).length % 2 = 0 := by
  unfold completed
  split
  · rw [List.length_cons]
    omega
  · omega

theorem numberOfDigits_completed (digits : List Char) :
    numberOfDigits (completed digits) = numberOfDigits digits := by
  unfold completed
  split <;> rfl

/-- The halves of the bytes that are read from a hexadecimal text are the values of its digits,
completed to an even number. -/
theorem halves_of_decode {text : String} {bytes : List UInt8} (h : decode text = .ok bytes) :
    bytes.flatMap halves = (completed (digitsOf text)).map numerals.idxOf := by
  rw [decode_eq] at h
  split at h
  · cases h
    rw [padEven_map_idxOf]
    refine halves_bytesOfDigits (by rw [List.length_map, length_completed]) fun value hvalue => ?_
    obtain ⟨c, hc, rfl⟩ := List.mem_map.mp hvalue
    exact (digit_idxOf (mem_numerals_of_mem_completed hc)).1
  · cases h

/-- Texts and bytes are related exactly. Bytes are recovered from what is written for them. A text
is read if it consists of digits and blanks, and otherwise reported as it is. What is written for
the bytes that are read are the digits of the text in upper case, with a zero in front if their
number is odd, so that the bytes denote the same number. -/
theorem codec_exact :
    (∀ bytes, decode (encode bytes) = .ok bytes) ∧
      ∀ text, ((∃ bytes, decode text = .ok bytes) ↔ IsHexadecimal text) ∧
        (∀ bytes, decode text = .ok bytes →
          encode bytes = String.ofList (completed (digitsOf text)) ∧
            numberOfBytes bytes = numberOfDigits (digitsOf text)) ∧
        (¬ IsHexadecimal text → decode text = .error { text }) := by
  refine ⟨decode_encode, fun text => ⟨⟨?_, ?_⟩, ?_, ?_⟩⟩
  · rintro ⟨bytes, hread⟩
    refine Decidable.byContradiction fun hexadecimal => ?_
    rw [decode_eq, if_neg hexadecimal] at hread
    cases hread
  · intro hexadecimal
    exact ⟨_, by rw [decode_eq, if_pos hexadecimal]⟩
  · intro bytes hread
    have hhalves := halves_of_decode hread
    constructor
    · have hdigits : ((completed (digitsOf text)).map numerals.idxOf).map digit =
          completed (digitsOf text) := by
        rw [List.map_map]
        exact map_eq_self fun c hc => (digit_idxOf (mem_numerals_of_mem_completed hc)).2
      rw [encode_eq, hhalves, hdigits]
    · rw [numberOfBytes_eq_halves, hhalves, List.foldl_map, ← numberOfDigits_completed]
      rfl
  · intro hexadecimal
    rw [decode_eq, if_neg hexadecimal]

/-- A line break and a space between three digits of either case, and a text with a letter that is
no digit. -/
theorem codec_exact_spaced :
    decode (encode [0x00, 0xF0]) = .ok [0x00, 0xF0] ∧ decode "a\nb C" = .ok [0x0A, 0xBC] ∧
      IsHexadecimal "a\nb C" ∧ encode [0x0A, 0xBC] = String.ofList ['0', 'A', 'B', 'C'] ∧
      numberOfBytes [0x0A, 0xBC] = 0xABC ∧
      ¬ IsHexadecimal "0x12" ∧ decode "0x12" = .error { text := "0x12" } := by
  have hread : decode "a\nb C" = .ok [0x0A, 0xBC] := rfl
  have hrefused : ¬ IsHexadecimal "0x12" := by decide
  obtain ⟨hsome, hwritten, -⟩ := codec_exact.2 "a\nb C"
  obtain ⟨hdigits, hnumber⟩ := hwritten _ hread
  exact ⟨codec_exact.1 _, hread, hsome.mp ⟨_, hread⟩, hdigits, hnumber, hrefused,
    (codec_exact.2 "0x12").2.2 hrefused⟩

end Hex

end JtagPlayer
