import JtagPlayer.Proofs.Numbers
import JtagPlayer.Session

/-!
# Stored patterns are full

`Pattern.merge_cases` lists the ways in which a change can be accepted. From it follows that a
stored pattern is always full, `Pattern.IsFull`: it is empty, or it has bits to send, and each of
its byte strings is exactly as wide as the register.

A full pattern sends the binary digits of the number that its bytes denote,
`Pattern.bits_eq_digits`.
-/

namespace JtagPlayer

/-- What ends well in two steps ends well in both. -/
theorem bind_eq_ok {ε α β : Type} {x : Except ε α} {f : α → Except ε β} {y : β}
    (h : (x >>= f) = .ok y) : ∃ a, x = .ok a ∧ f a = .ok y := by
  cases x with
  | error error => cases h
  | ok a => exact ⟨a, rfl, h⟩

namespace Pattern

/-- A byte string of a pattern. -/
def field (pattern : Pattern) : PatternField → Option (List UInt8)
  | .tdi => pattern.tdi
  | .tdo => pattern.tdo
  | .mask => pattern.mask
  | .smask => pattern.smask

/-- A pattern without bits is empty, any other has bits to send, and each byte string that is there
is as wide as the register. -/
structure IsFull (pattern : Pattern) : Prop where
  eq_empty : pattern.length = 0 → pattern = .empty
  tdi : pattern.length ≠ 0 → ∃ bytes, pattern.tdi = some bytes
  width : ∀ name bytes, pattern.field name = some bytes → bytes.length = pattern.numBytes

theorem isFull_empty : IsFull .empty where
  eq_empty _ := rfl
  tdi h := absurd rfl h
  width name bytes hbytes := by cases name <;> cases hbytes

/-- Byte strings that are not refused fit into the register. -/
theorem le_of_checkWidth {name : RegisterName} {field : PatternField} {width : Nat}
    {bytes : List UInt8} (h : checkWidth name field width (some bytes) = .ok ()) :
    bytes.length ≤ width := by
  rw [checkWidth] at h
  split at h
  · cases h
  · omega

theorem length_widen {width : Nat} {bytes : List UInt8} (h : bytes.length ≤ width) :
    (widen width bytes).length = width := by
  rw [widen, List.length_append, List.length_replicate]
  omega

/-- What a change that is accepted makes of a stored pattern: it clears it, or every byte string
fits and there are bits to send. -/
theorem merge_cases {name : RegisterName} {stored delta merged : Pattern}
    (h : merge name stored delta = .ok merged) :
    (delta.length = 0 ∧ name.isPayload = false ∧ merged = .empty) ∨
    (delta.length ≠ 0 ∧
      (∀ field bytes, delta.field field = some bytes → bytes.length ≤ delta.numBytes) ∧
      ∃ tdi,
        (delta.tdi.map (widen delta.numBytes)).or (carried stored delta stored.tdi) = some tdi ∧
        merged = {
          length := delta.length
          tdi := some tdi
          tdo := delta.tdo.map (widen delta.numBytes)
          mask := (delta.mask.map (widen delta.numBytes)).or (carried stored delta stored.mask)
          smask :=
            (delta.smask.map (widen delta.numBytes)).or (carried stored delta stored.smask) }) := by
  by_cases hlength : delta.length = 0
  · rw [merge, if_pos hlength] at h
    cases hpayload : name.isPayload with
    | true =>
      rw [hpayload] at h
      cases h
    | false =>
      rw [hpayload] at h
      cases h
      exact .inl ⟨hlength, rfl, rfl⟩
  · rw [merge, if_neg hlength] at h
    -- The four widths are checked before anything is merged.
    obtain ⟨⟨⟩, htdi, h⟩ := bind_eq_ok h
    obtain ⟨⟨⟩, htdo, h⟩ := bind_eq_ok h
    obtain ⟨⟨⟩, hmask, h⟩ := bind_eq_ok h
    obtain ⟨⟨⟩, hsmask, h⟩ := bind_eq_ok h
    refine .inr ⟨hlength, ?_, ?_⟩
    · intro field bytes hbytes
      cases field with
      | tdi => exact le_of_checkWidth (by rw [← htdi, ← hbytes]; rfl)
      | tdo => exact le_of_checkWidth (by rw [← htdo, ← hbytes]; rfl)
      | mask => exact le_of_checkWidth (by rw [← hmask, ← hbytes]; rfl)
      | smask => exact le_of_checkWidth (by rw [← hsmask, ← hbytes]; rfl)
    · split at h
      · cases h
      · rename_i tdi hmerged
        cases h
        exact ⟨tdi, hmerged, rfl⟩

/-- A byte string that is widened or carried over is as wide as the register. -/
theorem length_of_widened_or_carried {stored delta : Pattern} (hstored : stored.IsFull)
    {name : PatternField} {bytes : List UInt8}
    (hfit : ∀ bytes, delta.field name = some bytes → bytes.length ≤ delta.numBytes)
    (h : ((delta.field name).map (widen delta.numBytes)).or
      (carried stored delta (stored.field name)) = some bytes) :
    bytes.length = delta.numBytes := by
  rcases Option.or_eq_some_iff.mp h with hwidened | ⟨-, hcarried⟩
  · obtain ⟨supplied, hsupplied, rfl⟩ := Option.map_eq_some_iff.mp hwidened
    exact length_widen (hfit supplied hsupplied)
  · unfold carried at hcarried
    split at hcarried
    · rename_i hlength
      rw [hstored.width name bytes hcarried, numBytes, hlength, numBytes]
    · cases hcarried

/-- Stored patterns stay full. -/
theorem merge_isFull {name : RegisterName} {stored delta merged : Pattern}
    (hstored : stored.IsFull) (h : merge name stored delta = .ok merged) : merged.IsFull := by
  rcases merge_cases h with ⟨-, -, rfl⟩ | ⟨hlength, hfit, tdi, htdi, rfl⟩
  · exact isFull_empty
  · refine ⟨fun hzero => absurd hzero hlength, fun _ => ⟨tdi, rfl⟩, ?_⟩
    intro name bytes hbytes
    show bytes.length = delta.numBytes
    cases name with
    | tdi => exact length_of_widened_or_carried hstored (hfit .tdi) (htdi.trans hbytes)
    | tdo =>
      -- The expected bits are the one byte string that is never carried over.
      refine @length_of_widened_or_carried _ _ hstored .tdo _ (hfit .tdo) ?_
      exact Option.or_eq_some_iff.mpr (.inl hbytes)
    | mask => exact length_of_widened_or_carried hstored (hfit .mask) hbytes
    | smask => exact length_of_widened_or_carried hstored (hfit .smask) hbytes

/-- A full pattern sends the binary digits of the number that its bytes denote. -/
theorem bits_eq_digits {pattern : Pattern} (h : pattern.IsFull) :
    pattern.bits = pattern.digits := by
  apply List.ext_getElem
  · rw [length_bits, digits, List.length_map, List.length_range]
  intro index hindex hindex'
  rw [length_bits] at hindex
  have hlength : pattern.length ≠ 0 := by
    intro hzero
    rw [hzero] at hindex
    exact Nat.not_lt_zero _ hindex
  obtain ⟨bytes, hbytes⟩ := h.tdi hlength
  have hwidth := h.width .tdi bytes hbytes
  have hsupplied : pattern.supplied = bytes := by
    rw [supplied, hbytes, Option.getD_some, ← hwidth, List.take_length]
  have hmissing : pattern.missing = 0 := by rw [missing, hsupplied, hwidth, Nat.sub_self]
  have hbits : pattern.bits = (bytes.reverse.flatMap byteBits).take pattern.length.toNat := by
    rw [bits, hsupplied, hmissing, List.replicate_zero, List.append_nil]
  have hlong : index < (bytes.reverse.flatMap byteBits).length := by
    have hnumBytes : pattern.numBytes = (pattern.length.toNat + 7) / 8 := rfl
    rw [length_flatMap_byteBits, List.length_reverse, hwidth]
    omega
  have hnumber : pattern.number = numberOfBits (bytes.reverse.flatMap byteBits) := by
    rw [number, hbytes, Option.getD_some, numberOfBytes_eq]
  simp only [hbits, digits, List.getElem_take, List.getElem_map, List.getElem_range]
  rw [hnumber, testBit_numberOfBits, List.getD_eq_getElem?_getD, List.getElem?_eq_getElem hlong,
    Option.getD_some]

end Pattern

namespace Registers

/-- All six patterns are full. -/
def IsFull (registers : Registers) : Prop :=
  ∀ name, (registers.get name).IsFull

theorem isFull_default : IsFull {} := by
  intro name
  obtain ⟨role, register⟩ := name
  cases role <;> cases register <;> exact Pattern.isFull_empty

/-- A change that is accepted is a merge into one pattern. -/
theorem update_eq_ok {registers updated : Registers} {name : RegisterName} {delta : Pattern}
    (h : registers.update name delta = .ok updated) :
    ∃ merged, (registers.get name).merge name delta = .ok merged ∧
      updated = registers.set name merged := by
  unfold update at h
  cases hmerge : (registers.get name).merge name delta with
  | error error =>
    rw [hmerge] at h
    cases h
  | ok merged =>
    rw [hmerge] at h
    cases h
    exact ⟨merged, rfl, rfl⟩

/-- Stored patterns stay full. -/
theorem update_isFull {registers updated : Registers} {name : RegisterName} {delta : Pattern}
    (hfull : registers.IsFull) (h : registers.update name delta = .ok updated) :
    updated.IsFull := by
  obtain ⟨merged, hmerge, rfl⟩ := update_eq_ok h
  intro other
  by_cases hother : other = name
  · rw [hother, get_set]
    exact Pattern.merge_isFull (hfull name) hmerge
  · rw [get_set_of_ne registers merged hother]
    exact hfull other

end Registers

end JtagPlayer
