import JtagPlayer.Json.Lexical
import JtagPlayer.Json.Writer

/-!
# Strings between quotes

`Lexical.readString_escaped` says that a written string is read back, whatever follows it. The
argument goes byte by byte: what stands for a byte is read as this byte, and the closing quote is
the first one that no backslash stands in front of.
-/

namespace JtagPlayer

namespace Lexical

/-- Puts some bytes in front of those that a reader has taken. -/
def prepend (bytes : List UInt8) : Reading (List UInt8) → Reading (List UInt8) :=
  Except.map fun (more, rest) => (bytes ++ more, rest)

theorem readStringBytes_quote (rest : List UInt8) :
    readStringBytes (Ascii.quote :: rest) = .ok ([], rest) := by
  rw [readStringBytes, if_pos rfl]

/-- An escape is read as what it stands for. -/
theorem readStringBytes_escape {bytes text rest : List UInt8}
    (h : readEscape text = .ok (bytes, rest)) :
    readStringBytes (Ascii.backslash :: text) = prepend bytes (readStringBytes rest) := by
  rw [readStringBytes, if_neg (by decide), if_pos rfl]
  split
  · rename_i herror
    cases h.symm.trans herror
  · rename_i hescape
    cases h.symm.trans hescape
    cases readStringBytes rest <;> rfl

/-- Any other byte is read as itself, if it is no control character. -/
theorem readStringBytes_plain {byte : UInt8} (hquote : byte ≠ Ascii.quote)
    (hbackslash : byte ≠ Ascii.backslash) (hcontrol : ¬ byte < 0x20) (text : List UInt8) :
    readStringBytes (byte :: text) = prepend [byte] (readStringBytes text) := by
  rw [readStringBytes, if_neg hquote, if_neg hbackslash, if_neg hcontrol]
  cases readStringBytes text <;> rfl

theorem readEscape_short {letter byte : UInt8} (h : shortEscape? letter = some byte)
    (rest : List UInt8) : readEscape (letter :: rest) = .ok ([byte], rest) := by
  have hletter : letter ≠ Ascii.letterU := by
    rintro rfl
    cases h
  simp only [readEscape, if_neg hletter, h]

/-- The code point of a control character, in four digits. -/
theorem readEscape_control {byte : UInt8} (hcontrol : byte < 0x20) (rest : List UInt8) :
    readEscape (Ascii.letterU :: Ascii.zero :: Ascii.zero :: Json.hexDigit (byte.toNat / 16) ::
      Json.hexDigit (byte.toNat % 16) :: rest) = .ok ([byte], rest) := by
  have hhex : ∀ digit < 16, Ascii.hexValue? (Json.hexDigit digit) = some digit := by decide
  have hbytes : ∀ value < 32, codePointBytes value = [UInt8.ofNat value] := by decide +kernel
  have hlt : byte.toNat < 32 := hcontrol
  have hunit : readCodeUnit (Ascii.zero :: Ascii.zero :: Json.hexDigit (byte.toNat / 16) ::
      Json.hexDigit (byte.toNat % 16) :: rest) = .ok (byte.toNat, rest) := by
    have hzero : Ascii.hexValue? Ascii.zero = some 0 := rfl
    simp only [readCodeUnit, hzero, hhex _ (by omega : byte.toNat / 16 < 16),
      hhex _ (by omega : byte.toNat % 16 < 16)]
    congr 2
    omega
  rw [readEscape, if_pos rfl, readCodePoint, hunit]
  dsimp only
  rw [if_neg (by omega), if_neg (by omega), hbytes _ hlt, UInt8.ofNat_toNat]

/-- What stands for a byte is read as this byte. -/
theorem readStringBytes_escapeByte (byte : UInt8) (text : List UInt8) :
    readStringBytes (Json.escapeByte byte ++ text) =
      prepend [byte] (readStringBytes text) := by
  have hshort : ∀ {letter : UInt8}, shortEscape? letter = some byte →
      readStringBytes (Ascii.backslash :: letter :: text) =
        prepend [byte] (readStringBytes text) :=
    fun h => readStringBytes_escape (readEscape_short h text)
  unfold Json.escapeByte
  by_cases hquote : byte = Ascii.quote
  · rw [if_pos hquote]
    exact hshort (by rw [hquote]; rfl)
  by_cases hbackslash : byte = Ascii.backslash
  · rw [if_neg hquote, if_pos hbackslash]
    exact hshort (by rw [hbackslash]; rfl)
  rw [if_neg hquote, if_neg hbackslash]
  repeat' split
  all_goals first
    | exact hshort (by subst byte; rfl)
    | skip
  · rename_i hcontrol
    exact readStringBytes_escape (readEscape_control hcontrol text)
  · rename_i hcontrol
    exact readStringBytes_plain hquote hbackslash hcontrol text

/-- Bytes are read up to the closing quote. -/
theorem readStringBytes_escaped (bytes rest : List UInt8) :
    readStringBytes (bytes.flatMap Json.escapeByte ++ Ascii.quote :: rest) = .ok (bytes, rest) := by
  induction bytes with
  | nil => exact readStringBytes_quote rest
  | cons byte bytes ih =>
    rw [List.flatMap_cons, List.append_assoc, readStringBytes_escapeByte, ih]
    rfl

/-- A text between quotes. -/
theorem readString_escaped (value : String) (rest : List UInt8) :
    readString ((Text.toBytes value).flatMap Json.escapeByte ++ Ascii.quote :: rest) =
      .ok (value, rest) := by
  rw [readString, readStringBytes_escaped]
  dsimp only
  rw [Text.ofBytes?_toBytes]

end Lexical

end JtagPlayer
