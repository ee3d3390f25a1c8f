import JtagPlayer.Fault.Basic
import JtagPlayer.Proofs.Merging

/-!
# Comparison and rendering of what came back

The bytes that come back from a scan are compared byte by byte and written digit by digit.
`Pattern.accepts_bytes_iff` says which bits the comparison is about, those below the length of the
pattern that the mask selects. `Pattern.accepts_iff` says it of the bits as they came back, and
`Hex.encode_eq_ofNumber` says that the text is the number that the bytes denote.
-/

namespace JtagPlayer

/-- The bits of a number that begins with a byte. -/
theorem testBit_numberOfBytes_cons (byte : UInt8) (bytes : List UInt8) (index : Nat) :
    (numberOfBytes (byte :: bytes)).testBit index =
      if index < 8 * bytes.length then (numberOfBytes bytes).testBit index
      else byte.toNat.testBit (index - 8 * bytes.length) := by
  have hlength : (bytes.reverse.flatMap byteBits).length = 8 * bytes.length := by
    rw [length_flatMap_byteBits, List.length_reverse]
  have hsplit : (byte :: bytes).reverse.flatMap byteBits =
      bytes.reverse.flatMap byteBits ++ byteBits byte := by
    simp
  rw [numberOfBytes_eq, hsplit, testBit_numberOfBits, List.getD_eq_getElem?_getD,
    List.getElem?_append, hlength, ← numberOfBits_byteBits, numberOfBytes_eq, testBit_numberOfBits,
    testBit_numberOfBits, List.getD_eq_getElem?_getD, List.getD_eq_getElem?_getD]
  split <;> rfl

/-- Two bytes agree under a mask if the bits that it selects do. -/
theorem and_beq_and_iff (expected observed care : UInt8) :
    (expected &&& care == observed &&& care) = true ↔
      ∀ index, care.toNat.testBit index = true →
        expected.toNat.testBit index = observed.toNat.testBit index := by
  rw [beq_iff_eq, ← UInt8.toNat_inj, UInt8.toNat_and, UInt8.toNat_and]
  constructor
  · intro h index hcare
    have hbit := congrArg (fun number => number.testBit index) h
    simpa [Nat.testBit_and, hcare] using hbit
  · intro h
    apply Nat.eq_of_testBit_eq
    intro index
    rw [Nat.testBit_and, Nat.testBit_and]
    cases hcare : care.toNat.testBit index with
    | false => simp
    | true => rw [h index hcare]

/-- A mask selects the bits that are set in the number it denotes, and all if it is absent. -/
def Selected (mask : List UInt8) (index : Nat) : Prop :=
  mask ≠ [] → (numberOfBytes mask).testBit index = true

/-- A byte in which just the lowest bits are set. -/
def IsLow (count : Nat) (scope : UInt8) : Prop :=
  ∀ index, scope.toNat.testBit index = decide (index < count)

theorem isLow_eight : IsLow 8 0xFF := by
  intro index
  by_cases hindex : index < 8
  · have hall : ∀ index < 8, (255 : UInt8).toNat.testBit index = true := by decide
    rw [hall index hindex, decide_eq_true hindex]
  · rw [testBit_byte (Nat.le_of_not_lt hindex), decide_eq_false hindex]

section Mask

variable {mask : List UInt8} {count index : Nat}

/-- What a mask selects after its first byte is what the rest of it selects. -/
theorem selected_tail_iff (hmask : mask = [] ∨ mask.length = count + 1)
    (hindex : index < 8 * count) : Selected mask.tail index ↔ Selected mask index := by
  rcases hmask with rfl | hmask
  · exact Iff.rfl
  obtain _ | ⟨first, rest⟩ := mask
  · cases hmask
  have hrest : rest.length = count := Nat.succ.inj hmask
  have hne : rest ≠ [] := by
    rintro rfl
    rw [List.length_nil] at hrest
    omega
  unfold Selected
  rw [testBit_numberOfBytes_cons, hrest, if_pos hindex]
  exact ⟨fun h _ => h hne, fun h _ => h (by simp)⟩

/-- The first byte of a mask selects the highest bits. -/
theorem selected_head_iff (hmask : mask = [] ∨ mask.length = count + 1) (hindex : index < 8) :
    (mask.headD 0xFF).toNat.testBit index = true ↔ Selected mask (8 * count + index) := by
  rcases hmask with rfl | hmask
  · have hall : (255 : UInt8).toNat.testBit index = true := by
      rw [isLow_eight, decide_eq_true hindex]
    exact ⟨fun _ hne => absurd rfl hne, fun _ => hall⟩
  obtain _ | ⟨first, rest⟩ := mask
  · cases hmask
  have hrest : rest.length = count := Nat.succ.inj hmask
  unfold Selected
  rw [testBit_numberOfBytes_cons, hrest, if_neg (by omega), Nat.add_sub_cancel_left]
  exact ⟨fun h _ => h, fun h => h (by simp)⟩

end Mask

namespace Pattern

/-- Bytes are compared bit by bit: those of the first byte that are in scope and all others, as far
as the mask selects them. -/
theorem agree_iff {count : Nat} {scope : UInt8} (hcount : count ≤ 8) (hscope : IsLow count scope)
    {mask expected observed : List UInt8} (hobserved : observed.length = expected.length)
    (hmask : mask = [] ∨ mask.length = expected.length) :
    agree scope mask expected observed = true ↔
      ∀ index < 8 * expected.length, index < 8 * (expected.length - 1) + count →
        Selected mask index →
          (numberOfBytes expected).testBit index = (numberOfBytes observed).testBit index := by
  -- Behind the first byte all bits are in scope, so the induction is over all scopes.
  induction expected generalizing count scope mask observed with
  | nil => simp [agree]
  | cons first expected ih =>
    obtain _ | ⟨answer, observed⟩ := observed
    · cases hobserved
    have hobserved' : observed.length = expected.length := Nat.succ.inj hobserved
    have htail : mask.tail = [] ∨ mask.tail.length = expected.length := by
      rcases hmask with rfl | hmask
      · exact .inl rfl
      · exact .inr (by rw [List.length_tail, hmask, List.length_cons, Nat.add_sub_cancel])
    rw [agree, Bool.and_eq_true, and_beq_and_iff, ih (Nat.le_refl 8) isLow_eight hobserved' htail]
    have hcare : ∀ index, ((mask.headD 0xFF) &&& scope).toNat.testBit index = true ↔
        (mask.headD 0xFF).toNat.testBit index = true ∧ index < count := by
      intro index
      rw [UInt8.toNat_and, Nat.testBit_and, hscope, Bool.and_eq_true, decide_eq_true_iff]
    rw [List.length_cons, Nat.add_sub_cancel]
    constructor
    · rintro ⟨hfirst, hrest⟩ index - hindex hselected
      rw [testBit_numberOfBytes_cons, testBit_numberOfBytes_cons, hobserved']
      by_cases hlow : index < 8 * expected.length
      · rw [if_pos hlow, if_pos hlow]
        exact hrest index hlow (by omega) ((selected_tail_iff hmask hlow).mpr hselected)
      · rw [if_neg hlow, if_neg hlow]
        refine hfirst _ ((hcare _).mpr ⟨(selected_head_iff hmask (by omega)).mpr ?_, by omega⟩)
        rwa [Nat.add_sub_cancel' (Nat.le_of_not_lt hlow)]
    · intro h
      refine ⟨fun index hbit => ?_, fun index hlow _ hselected => ?_⟩
      · obtain ⟨hhead, hindex⟩ := (hcare index).mp hbit
        have hbits := h (8 * expected.length + index) (by omega) (by omega)
          ((selected_head_iff hmask (by omega)).mp hhead)
        rw [testBit_numberOfBytes_cons, testBit_numberOfBytes_cons, hobserved',
          if_neg (by omega), if_neg (by omega), Nat.add_sub_cancel_left] at hbits
        exact hbits
      · have hbits := h index (by omega) (by omega) ((selected_tail_iff hmask hlow).mp hselected)
        rw [testBit_numberOfBytes_cons, testBit_numberOfBytes_cons, hobserved', if_pos hlow,
          if_pos hlow] at hbits
        exact hbits

/-- Whether the mask of a pattern selects a bit. Without a mask all bits are selected. -/
def selects (pattern : Pattern) (index : Nat) : Bool :=
  match pattern.mask with
  | none => true
  | some mask => (numberOfBytes mask).testBit index

theorem leadingBits_le (pattern : Pattern) : pattern.leadingBits ≤ 8 := by
  unfold leadingBits
  split <;> omega

theorem isLow_leadingMask (pattern : Pattern) : IsLow pattern.leadingBits pattern.leadingMask := by
  have hcount := pattern.leadingBits_le
  unfold leadingMask
  generalize pattern.leadingBits = count at hcount
  intro index
  by_cases hindex : index < 8
  · have hall : ∀ count ≤ 8, ∀ index < 8,
        (UInt8.ofNat ((1 <<< count) - 1)).toNat.testBit index = decide (index < count) := by decide
    exact hall count hcount index hindex
  · rw [testBit_byte (Nat.le_of_not_lt hindex), decide_eq_false (by omega)]

/-- The bits in scope are those below the length of a pattern. -/
theorem scope_iff (pattern : Pattern) (index : Nat) :
    (index < 8 * pattern.numBytes ∧
      index < 8 * (pattern.numBytes - 1) + pattern.leadingBits) ↔ index < pattern.length.toNat := by
  have hnumBytes : pattern.numBytes = (pattern.length.toNat + 7) / 8 := rfl
  rw [hnumBytes]
  unfold leadingBits
  split <;> omega

section Widths

variable {pattern : Pattern}
  (hmask : ∀ mask, pattern.mask = some mask → mask.length = pattern.numBytes)

include hmask

/-- A mask that is there selects what its bytes select. -/
theorem selected_iff_selects {index : Nat} (hindex : index < pattern.length.toNat) :
    Selected (pattern.mask.getD []) index ↔ pattern.selects index = true := by
  unfold Selected selects
  cases hgiven : pattern.mask with
  | none => simp
  | some mask =>
    have hne : mask ≠ [] := by
      intro hnil
      have hwidth := hmask mask hgiven
      have hnumBytes : pattern.numBytes = (pattern.length.toNat + 7) / 8 := rfl
      rw [hnil, List.length_nil] at hwidth
      omega
    exact ⟨fun h => h hne, fun h _ => h⟩

/-- Bytes pass if their selected bits are those of the bytes expected, all of the same width. -/
theorem accepts_bytes_iff (htdo : ∀ tdo, pattern.tdo = some tdo → tdo.length = pattern.numBytes)
    {observed : List UInt8} (hobserved : observed.length = pattern.numBytes) :
    pattern.accepts observed = true ↔
      ∀ tdo, pattern.tdo = some tdo → ∀ index < pattern.length.toNat,
        pattern.selects index = true →
          (numberOfBytes tdo).testBit index = (numberOfBytes observed).testBit index := by
  cases hexpected : pattern.tdo with
  | none => simp [accepts, hexpected]
  | some expected =>
    have hwidth : expected.length = pattern.numBytes := htdo expected hexpected
    have hmaskWidth :
        pattern.mask.getD [] = [] ∨ (pattern.mask.getD []).length = expected.length := by
      cases hgiven : pattern.mask with
      | none => exact .inl rfl
      | some mask => exact .inr ((hmask mask hgiven).trans hwidth.symm)
    rw [accepts, hexpected, agree_iff pattern.leadingBits_le pattern.isLow_leadingMask
      (hobserved.trans hwidth.symm) hmaskWidth, hwidth]
    constructor
    · rintro h tdo ⟨⟩ index hindex hselects
      obtain ⟨hbytes, hbits⟩ := (pattern.scope_iff index).mpr hindex
      exact h index hbytes hbits ((selected_iff_selects hmask hindex).mpr hselects)
    · intro h index hbytes hbits hselected
      have hindex := (pattern.scope_iff index).mp ⟨hbytes, hbits⟩
      exact h expected rfl index hindex ((selected_iff_selects hmask hindex).mp hselected)

end Widths

/-- The bits that came back pass if the selected ones are those of the number expected. -/
theorem accepts_iff {pattern : Pattern} (hfull : pattern.IsFull) {received : List Bool}
    (hlength : received.length = pattern.length.toNat) :
    pattern.accepts (bytesOf received) = true ↔
      ∀ tdo, pattern.tdo = some tdo → ∀ index < pattern.length.toNat,
        pattern.selects index = true →
          (numberOfBytes tdo).testBit index = received.getD index false := by
  have hobserved : (bytesOf received).length = pattern.numBytes := by
    rw [length_bytesOf, hlength]
    rfl
  rw [accepts_bytes_iff (hfull.width .mask) (hfull.width .tdo) hobserved]
  simp only [numberOfBytes_bytesOf, testBit_numberOfBits]

end Pattern

namespace Hex

/-- The last upper-case digits of a number, as many as given, most significant first. -/
def ofNumber (width number : Nat) : String :=
  String.ofList ((List.range width).reverse.map fun place => digit (number >>> (4 * place) % 16))

/-- The digits of a number that begins with a byte. -/
theorem nibble_cons (byte : UInt8) (bytes : List UInt8) (place : Nat) :
    numberOfBytes (byte :: bytes) >>> (4 * place) % 16 =
      if place < 2 * bytes.length then numberOfBytes bytes >>> (4 * place) % 16
      else byte.toNat >>> (4 * (place - 2 * bytes.length)) % 16 := by
  have hmod : ∀ number index, (number % 16).testBit index =
      (decide (index < 4) && number.testBit index) :=
    fun number index => Nat.testBit_mod_two_pow number 4 index
  by_cases hplace : place < 2 * bytes.length
  · rw [if_pos hplace]
    apply Nat.eq_of_testBit_eq
    intro index
    rw [hmod, hmod, Nat.testBit_shiftRight, Nat.testBit_shiftRight, testBit_numberOfBytes_cons]
    by_cases hindex : index < 4
    · rw [if_pos (by omega)]
    · rw [decide_eq_false hindex, Bool.false_and, Bool.false_and]
  · rw [if_neg hplace]
    apply Nat.eq_of_testBit_eq
    intro index
    have hoffset : 4 * place + index - 8 * bytes.length =
        4 * (place - 2 * bytes.length) + index := by omega
    rw [hmod, hmod, Nat.testBit_shiftRight, Nat.testBit_shiftRight, testBit_numberOfBytes_cons,
      if_neg (by omega), hoffset]

/-- Two digits for each byte are the digits of the number that the bytes denote. -/
theorem encode_eq_ofNumber (bytes : List UInt8) :
    encode bytes = ofNumber (2 * bytes.length) (numberOfBytes bytes) := by
  rw [encode, ofNumber]
  congr 1
  induction bytes with
  | nil => rfl
  | cons byte bytes ih =>
    have hdigits : byteDigits byte =
        [digit (byte.toNat >>> (4 * 1) % 16), digit (byte.toNat >>> (4 * 0) % 16)] := by
      have hhigh : byte.toNat >>> (4 * 1) % 16 = byte.toNat / 16 := by
        have hlt := byte.toNat_lt
        rw [Nat.shiftRight_eq_div_pow]
        omega
      rw [hhigh]
      rfl
    have hrange : (List.range (2 * (byte :: bytes).length)).reverse =
        (2 * bytes.length + 1) :: (2 * bytes.length) ::
          (List.range (2 * bytes.length)).reverse := by
      rw [List.length_cons, Nat.mul_add, List.range_succ, List.range_succ]
      simp
    have hrest : (List.range (2 * bytes.length)).reverse.map
        (fun place => digit (numberOfBytes (byte :: bytes) >>> (4 * place) % 16)) =
          (List.range (2 * bytes.length)).reverse.map
            fun place => digit (numberOfBytes bytes >>> (4 * place) % 16) := by
      apply List.map_congr_left
      intro place hplace
      rw [nibble_cons, if_pos (List.mem_range.mp (List.mem_reverse.mp hplace))]
    rw [List.flatMap_cons, hdigits, hrange, List.map_cons, List.map_cons, hrest, ← ih,
      nibble_cons, if_neg (by omega), nibble_cons, if_neg (by omega), Nat.add_sub_cancel_left,
      Nat.sub_self]
    rfl

end Hex

end JtagPlayer
