import JtagPlayer.Proofs.Persistence
import JtagPlayer.Proofs.Comparing

/-!
# What the bytes of a pattern mean

The bits below the length of a pattern have a meaning, and the others have none: zero bytes may
stand in front or not, the rest of a partial first byte may hold anything, and the mask of the bits
sent is not used at all. `Pattern.Equivalent` says so of two changes and `Pattern.SameMeaning` of
two stored patterns.

A merge keeps bits without meaning and carries them over, but `Pattern.SameMeaning.merge` says that
they stay without: equivalent changes are refused for the same reason or lead to patterns that mean
the same. Such patterns are sent by the same clocks, `Segments.shift_congr`, and accept the same
answers, `Pattern.SameMeaning.accepts_eq`.
-/

namespace JtagPlayer

namespace Pattern

/-- The numbers that two byte strings denote have the same lowest bits, as many as given. -/
def SameLow (length : UInt32) (bytes bytes' : List UInt8) : Prop :=
  ∀ index < length.toNat,
    (numberOfBytes bytes).testBit index = (numberOfBytes bytes').testBit index

/-- Two byte strings that fit a change and that have the same bits below its length once they are
filled up with zero bytes in front. -/
structure Interchangeable (delta : Pattern) (bytes bytes' : List UInt8) : Prop where
  fits : bytes.length ≤ delta.numBytes
  fits' : bytes'.length ≤ delta.numBytes
  low : SameLow delta.length (widen delta.numBytes bytes) (widen delta.numBytes bytes')

instance (length : UInt32) (bytes bytes' : List UInt8) : Decidable (SameLow length bytes bytes') :=
  inferInstanceAs (Decidable (∀ index < length.toNat, _))

instance (delta : Pattern) (bytes bytes' : List UInt8) :
    Decidable (delta.Interchangeable bytes bytes') :=
  decidable_of_iff (bytes.length ≤ delta.numBytes ∧ bytes'.length ≤ delta.numBytes ∧
      SameLow delta.length (widen delta.numBytes bytes) (widen delta.numBytes bytes'))
    ⟨fun ⟨hfits, hfits', hlow⟩ => ⟨hfits, hfits', hlow⟩, fun h => ⟨h.fits, h.fits', h.low⟩⟩

/-- Two changes that differ in bits without meaning only. -/
structure Equivalent (delta delta' : Pattern) : Prop where
  length : delta.length = delta'.length
  field : ∀ name, name ≠ .smask → delta.field name = delta'.field name ∨
    Option.Rel delta.Interchangeable (delta.field name) (delta'.field name)
  smask : delta.smask = delta'.smask ∨
    ∀ bytes, delta.smask = some bytes ∨ delta'.smask = some bytes →
      bytes.length ≤ delta.numBytes

/-- Two full patterns of the same length, with the same byte strings and the same bits below that
length in each, the mask of the bits sent excepted. -/
structure SameMeaning (stored stored' : Pattern) : Prop where
  full : stored.IsFull
  full' : stored'.IsFull
  length : stored.length = stored'.length
  field : ∀ name, name ≠ .smask →
    Option.Rel (SameLow stored.length) (stored.field name) (stored'.field name)

variable {name : RegisterName} {stored stored' delta delta' : Pattern}

theorem Equivalent.refl (delta : Pattern) : Equivalent delta delta where
  length := rfl
  field _ _ := .inl rfl
  smask := .inl rfl

theorem Equivalent.numBytes (h : Equivalent delta delta') : delta.numBytes = delta'.numBytes := by
  rw [Pattern.numBytes, h.length, Pattern.numBytes]

theorem sameMeaning_empty : SameMeaning .empty .empty where
  full := isFull_empty
  full' := isFull_empty
  length := rfl
  field name _ := by cases name <;> exact .none

/-- Byte strings that both fit are not refused. -/
theorem checkWidth_congr {field : PatternField} {width : Nat}
    {supplied supplied' : Option (List UInt8)}
    (h : supplied = supplied' ∨
      ∀ bytes, supplied = some bytes ∨ supplied' = some bytes → bytes.length ≤ width) :
    checkWidth name field width supplied = checkWidth name field width supplied' := by
  rcases h with rfl | hfits
  · rfl
  · rw [checkWidth_eq_ok.mpr fun bytes hbytes => hfits bytes (.inl hbytes),
      checkWidth_eq_ok.mpr fun bytes hbytes => hfits bytes (.inr hbytes)]

/-- Equivalent changes are refused for the same width. -/
theorem Equivalent.checkWidths_eq (h : Equivalent delta delta') :
    checkWidths name delta = checkWidths name delta' := by
  have hfield : ∀ field, checkWidth name field delta.numBytes (delta.field field) =
      checkWidth name field delta'.numBytes (delta'.field field) := by
    intro field
    rw [← h.numBytes]
    refine checkWidth_congr ?_
    by_cases hsmask : field = .smask
    · subst hsmask
      exact h.smask
    · refine (h.field field hsmask).imp_right fun hrel bytes => ?_
      generalize delta.field field = supplied at hrel
      generalize delta'.field field = supplied' at hrel
      cases hrel with
      | none => rintro (⟨⟨⟩⟩ | ⟨⟨⟩⟩)
      | some hbytes =>
        rintro (⟨⟨⟩⟩ | ⟨⟨⟩⟩)
        · exact hbytes.fits
        · exact hbytes.fits'
  have htdi := hfield .tdi
  have htdo := hfield .tdo
  have hmask := hfield .mask
  have hsmask := hfield .smask
  simp only [Pattern.field] at htdi htdo hmask hsmask
  rw [checkWidths, htdi, htdo, hmask, hsmask, checkWidths]

/-- What equivalent changes supply has the same bits below their length. -/
theorem Equivalent.supplied (h : Equivalent delta delta') {field : PatternField}
    (hfield : field ≠ .smask) :
    Option.Rel (SameLow delta.length) ((delta.field field).map (widen delta.numBytes))
      ((delta'.field field).map (widen delta'.numBytes)) := by
  rw [← h.numBytes]
  rcases h.field field hfield with heq | hrel
  · rw [heq]
    cases delta'.field field with
    | none => exact .none
    | some bytes => exact .some fun _ _ => rfl
  · generalize delta.field field = supplied at hrel
    generalize delta'.field field = supplied' at hrel
    cases hrel with
    | none => exact .none
    | some hbytes => exact .some hbytes.low

/-- So has what is carried over of patterns that mean the same. -/
theorem SameMeaning.carried (hstored : SameMeaning stored stored') (h : Equivalent delta delta')
    {field : PatternField} (hfield : field ≠ .smask) :
    Option.Rel (SameLow delta.length) (Pattern.carried stored delta (stored.field field))
      (Pattern.carried stored' delta' (stored'.field field)) := by
  rw [Pattern.carried, Pattern.carried, ← hstored.length, ← h.length]
  by_cases hlength : stored.length = delta.length
  · rw [if_pos hlength, if_pos hlength, ← hlength]
    exact hstored.field field hfield
  · rw [if_neg hlength, if_neg hlength]
    exact .none

/-- So has what is stored then. -/
theorem SameMeaning.mergedField (hstored : SameMeaning stored stored')
    (h : Equivalent delta delta') {field : PatternField} (hfield : field ≠ .smask) :
    Option.Rel (SameLow delta.length) (stored.mergedField delta field)
      (stored'.mergedField delta' field) := by
  have hsupplied := h.supplied hfield
  rw [Pattern.mergedField, Pattern.mergedField]
  generalize (delta.field field).map (widen delta.numBytes) = supplied at hsupplied
  generalize (delta'.field field).map (widen delta'.numBytes) = supplied' at hsupplied
  cases hsupplied with
  | none => exact hstored.carried h hfield
  | some hbytes => exact .some hbytes

/-- Equivalent changes to patterns that mean the same are refused for the same reason, or lead to
patterns that mean the same. -/
theorem SameMeaning.merge (hstored : SameMeaning stored stored') (h : Equivalent delta delta')
    (name : RegisterName) :
    (∃ error, Pattern.merge name stored delta = .error error ∧
      Pattern.merge name stored' delta' = .error error) ∨
    ∃ merged merged', Pattern.merge name stored delta = .ok merged ∧
      Pattern.merge name stored' delta' = .ok merged' ∧ SameMeaning merged merged' := by
  by_cases hlength : delta.length = 0
  · rw [merge_of_length_zero name stored hlength,
      merge_of_length_zero name stored' (h.length ▸ hlength)]
    cases name.isPayload with
    | true => exact .inl ⟨_, rfl, rfl⟩
    | false => exact .inr ⟨_, _, rfl, rfl, sameMeaning_empty⟩
  have hmerge := merge_of_length_ne_zero name stored hlength
  have hmerge' := merge_of_length_ne_zero name stored' (h.length ▸ hlength : delta'.length ≠ 0)
  rw [← h.checkWidths_eq, ← h.length] at hmerge'
  cases hwidths : checkWidths name delta with
  | error error =>
    rw [hwidths] at hmerge hmerge'
    exact .inl ⟨error, hmerge, hmerge'⟩
  | ok u =>
    rw [hwidths] at hmerge hmerge'
    have htdi := hstored.mergedField h (show PatternField.tdi ≠ .smask by simp)
    generalize htdi' : stored.mergedField delta .tdi = tdi at htdi
    generalize htdi'' : stored'.mergedField delta' .tdi = tdi' at htdi
    rw [htdi'] at hmerge
    rw [htdi''] at hmerge'
    cases htdi with
    | none => exact .inl ⟨_, hmerge, hmerge'⟩
    | @some bytes bytes' hbytes =>
      refine .inr ⟨_, _, hmerge, hmerge', merge_isFull hstored.full hmerge,
        merge_isFull hstored.full' hmerge', h.length, fun field hfield => ?_⟩
      cases field with
      | tdi => exact .some hbytes
      | tdo => exact h.supplied hfield
      | mask => exact hstored.mergedField h hfield
      | smask => exact absurd rfl hfield

theorem SameLow.getD {length : UInt32} {supplied supplied' : Option (List UInt8)}
    (h : Option.Rel (SameLow length) supplied supplied') :
    SameLow length (supplied.getD []) (supplied'.getD []) := by
  cases h with
  | none => exact fun _ _ => rfl
  | some hlow => exact hlow

/-- Patterns that mean the same send the same bits. -/
theorem SameMeaning.bits_eq (h : SameMeaning stored stored') : stored.bits = stored'.bits := by
  have hlow : SameLow stored.length (stored.tdi.getD []) (stored'.tdi.getD []) :=
    .getD (h.field .tdi (by simp))
  rw [bits_eq_digits h.full, bits_eq_digits h.full', digits, digits, ← h.length]
  exact List.map_congr_left fun index hindex => hlow index (List.mem_range.mp hindex)

/-- They select the same bits. -/
theorem SameMeaning.selects_eq (h : SameMeaning stored stored') {index : Nat}
    (hindex : index < stored.length.toNat) : stored.selects index = stored'.selects index := by
  have hmask : Option.Rel (SameLow stored.length) stored.mask stored'.mask :=
    h.field .mask (by simp)
  unfold selects
  generalize stored.mask = mask at hmask
  generalize stored'.mask = mask' at hmask
  cases hmask with
  | none => rfl
  | some hlow => exact hlow index hindex

/-- They accept the same answers. -/
theorem SameMeaning.accepts_eq (h : SameMeaning stored stored') {received : List Bool}
    (hlength : received.length = stored.length.toNat) :
    stored.accepts (bytesOf received) = stored'.accepts (bytesOf received) := by
  rw [Bool.eq_iff_iff, accepts_iff h.full hlength, accepts_iff h.full' (h.length ▸ hlength),
    ← h.length]
  have htdo : Option.Rel (SameLow stored.length) stored.tdo stored'.tdo := h.field .tdo (by simp)
  generalize stored.tdo = tdo at htdo
  generalize stored'.tdo = tdo' at htdo
  cases htdo with
  | none => simp
  | @some expected expected' hlow =>
    constructor
    · rintro hagree tdo ⟨⟩ index hindex hselects
      rw [← hlow index hindex]
      exact hagree expected rfl index hindex ((h.selects_eq hindex).trans hselects)
    · rintro hagree tdo ⟨⟩ index hindex hselects
      rw [hlow index hindex]
      exact hagree expected' rfl index hindex ((h.selects_eq hindex).symm.trans hselects)

end Pattern

namespace Segments

/-- Patterns that mean the same are sent by the same clocks. -/
theorem shift_congr {segments segments' : Segments}
    (h : ∀ role, (segments.get role).SameMeaning (segments'.get role)) :
    segments.shift = segments'.shift := by
  have hpattern : ∀ leave role, TapDriver.shiftPattern leave (segments.get role) =
      TapDriver.shiftPattern leave (segments'.get role) := by
    intro leave role
    rw [TapDriver.shiftPattern_eq, TapDriver.shiftPattern_eq, (h role).bits_eq]
  have hheader := (h .header).length
  have hpayload := (h .payload).length
  have htrailer := (h .trailer).length
  have hsent := hpattern (segments.trailer.length == 0 && segments.payload.length == 0) .header
  have hsent' := hpattern (segments.trailer.length == 0) .payload
  have hsent'' := hpattern true .trailer
  simp only [get] at hheader hpayload htrailer hsent hsent' hsent''
  simp only [shift, length, hsent, hsent', hsent'']
  simp only [hheader, hpayload, htrailer]

end Segments

namespace Registers

/-- All six patterns mean the same. -/
def SameMeaning (registers registers' : Registers) : Prop :=
  ∀ name, (registers.get name).SameMeaning (registers'.get name)

theorem sameMeaning_default : SameMeaning {} {} := by
  intro name
  obtain ⟨role, register⟩ := name
  cases role <;> cases register <;> exact Pattern.sameMeaning_empty

/-- Equivalent changes are refused for the same reason, or lead to patterns that mean the same. -/
theorem SameMeaning.update {registers registers' : Registers}
    (h : registers.SameMeaning registers') {delta delta' : Pattern}
    (hdelta : delta.Equivalent delta') (name : RegisterName) :
    (∃ error, registers.update name delta = .error error ∧
      registers'.update name delta' = .error error) ∨
    ∃ updated updated', registers.update name delta = .ok updated ∧
      registers'.update name delta' = .ok updated' ∧ updated.SameMeaning updated' := by
  rw [Registers.update, Registers.update]
  rcases (h name).merge hdelta name with
    ⟨error, hmerge, hmerge'⟩ | ⟨merged, merged', hmerge, hmerge', hmerged⟩
  · rw [hmerge, hmerge']
    exact .inl ⟨error, rfl, rfl⟩
  · rw [hmerge, hmerge']
    refine .inr ⟨_, _, rfl, rfl, fun other => ?_⟩
    by_cases hother : other = name
    · rw [hother, get_set, get_set]
      exact hmerged
    · rw [get_set_of_ne registers merged hother, get_set_of_ne registers' merged' hother]
      exact h other

end Registers

/-- Two instructions that differ in bits without meaning only. -/
inductive Instruction.Equivalent : Instruction → Instruction → Prop where
  | same (instruction : Instruction) : Equivalent instruction instruction
  | setHeader (register : Register) {delta delta' : Pattern} (h : delta.Equivalent delta') :
      Equivalent (.setHeader register delta) (.setHeader register delta')
  | setTrailer (register : Register) {delta delta' : Pattern} (h : delta.Equivalent delta') :
      Equivalent (.setTrailer register delta) (.setTrailer register delta')
  | shift (register : Register) {delta delta' : Pattern} (label : Option String)
      (h : delta.Equivalent delta') :
      Equivalent (.shift register delta label) (.shift register delta' label)

end JtagPlayer
