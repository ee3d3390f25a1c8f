import JtagPlayer.Hex
import JtagPlayer.Json.Numeral
import JtagPlayer.Text.Ascii

/-!
# Reading from the front of a text

A `Reader` takes something from the front of a text and leaves the rest, which is shorter. The
readers of this module take the parts of a JSON document that hold no others: words, numerals and
strings. A `ReadFailure` says whether a text ended too early, is not well formed, or is well formed
but not what was asked for; a reader reports the first failure it meets.
-/

namespace JtagPlayer

/-- Why a text cannot be read. -/
inductive ReadFailure where
  /-- The text ends before what it begins is complete. -/
  | ended
  /-- The text is no JSON. -/
  | malformed
  /-- A value is not of the kind that was asked for. -/
  | mismatched
  /-- A string that should be a bit pattern is not hexadecimal. -/
  | badPattern (invalid : Hex.Invalid)
  deriving DecidableEq

/-- The result of reading from a text: a value and the rest of the text. -/
abbrev Reading (α : Type) := Except ReadFailure (α × List UInt8)

/-- Takes something from the front of a text, at least one byte. -/
structure Reader (α : Type) where
  read : List UInt8 → Reading α
  shorter : ∀ {text : List UInt8} {value : α} {rest : List UInt8},
    read text = .ok (value, rest) → rest.length < text.length

/-- Applies a function to what a reader takes. -/
def Reader.map {α β : Type} (f : α → β) (reader : Reader α) : Reader β where
  read text := match reader.read text with
    | .ok (value, rest) => .ok (f value, rest)
    | .error failure => .error failure
  shorter {text value rest} h := by
    split at h
    · next hread =>
      cases h
      exact reader.shorter hread
    · cases h

namespace Lexical

/-! ## Space and words -/

/-- The bytes that may stand between the parts of a document. -/
def isSpace (byte : UInt8) : Bool :=
  byte == 0x20 || byte == 0x0a || byte == 0x09 || byte == 0x0d

/-- The text from its first byte that is no space. -/
def skipSpace (text : List UInt8) : List UInt8 :=
  text.dropWhile isSpace

theorem length_skipSpace_le (text : List UInt8) : (skipSpace text).length ≤ text.length :=
  (List.dropWhile_suffix _).length_le

/-- Skipping space leaves no more than there was. -/
theorem length_lt_of_skipSpace {text rest : List UInt8} {byte : UInt8}
    (h : skipSpace text = byte :: rest) : rest.length < text.length := by
  have := length_skipSpace_le text
  simp [h] at this
  omega

/-- The rest of a text that begins with a word. -/
def readWord : List UInt8 → List UInt8 → Except ReadFailure (List UInt8)
  | [], text => .ok text
  | _ :: _, [] => .error .ended
  | expected :: word, byte :: text =>
    if byte = expected then readWord word text else .error .malformed

theorem length_le_of_readWord {word text rest : List UInt8} (h : readWord word text = .ok rest) :
    rest.length ≤ text.length := by
  fun_induction readWord word text with
  | case1 text => cases h; exact Nat.le_refl _
  | case2 => cases h
  | case3 word byte text ih => exact Nat.le_succ_of_le (ih h)
  | case4 => cases h

/-! ## Numerals -/

/-- The values of the digits at the front of a text, and the rest. -/
def readDigits (text : List UInt8) : List Nat × List UInt8 :=
  ((text.takeWhile Ascii.isDigit).map Ascii.digitValue, text.dropWhile Ascii.isDigit)

theorem length_readDigits_le (text : List UInt8) : (readDigits text).2.length ≤ text.length :=
  (List.dropWhile_suffix _).length_le

/-- One digit at least. -/
def readSomeDigits (text : List UInt8) : Reading (List Nat) :=
  match text with
  | [] => .error .ended
  | byte :: _ => if Ascii.isDigit byte then .ok (readDigits text) else .error .malformed

theorem length_le_of_readSomeDigits {text rest : List UInt8} {digits : List Nat}
    (h : readSomeDigits text = .ok (digits, rest)) : rest.length ≤ text.length := by
  unfold readSomeDigits at h
  split at h
  · cases h
  · split at h
    · cases h
      exact length_readDigits_le (_ :: _)
    · cases h

/-- The digits before the point, of which a zero in front must be the only one. -/
def readWhole (text : List UInt8) : Reading (List Nat) :=
  match text with
  | byte :: rest =>
    if byte = Ascii.zero then
      if (rest.head?.map Ascii.isDigit).getD false then .error .malformed else .ok ([0], rest)
    else readSomeDigits text
  | [] => .error .ended

theorem length_lt_of_readWhole {text rest : List UInt8} {digits : List Nat}
    (h : readWhole text = .ok (digits, rest)) : rest.length < text.length := by
  unfold readWhole at h
  split at h
  · next byte tail =>
    split at h
    · split at h
      · cases h
      · cases h
        simp
    · unfold readSomeDigits at h
      split at h
      · cases h
      · next hcons =>
        cases hcons
        split at h
        · next hdigit =>
          cases h
          have := length_readDigits_le tail
          simp only [readDigits, List.dropWhile_cons, hdigit, if_true, List.length_cons] at this ⊢
          omega
        · cases h
  · cases h

/-- The digits after a point, if there is one. -/
def readFraction (text : List UInt8) : Reading (List Nat) :=
  match text with
  | byte :: rest => if byte = Ascii.point then readSomeDigits rest else .ok ([], text)
  | [] => .ok ([], [])

theorem length_le_of_readFraction {text rest : List UInt8} {digits : List Nat}
    (h : readFraction text = .ok (digits, rest)) : rest.length ≤ text.length := by
  unfold readFraction at h
  split at h
  · split at h
    · exact Nat.le_succ_of_le (length_le_of_readSomeDigits h)
    · cases h
      exact Nat.le_refl _
  · cases h
    exact Nat.le_refl _

/-- The sign at the front of an exponent: whether it is a minus, and the rest. -/
def readSign (text : List UInt8) : Bool × List UInt8 :=
  match text with
  | byte :: rest =>
    if byte = Ascii.minus then (true, rest)
    else if byte = Ascii.plus then (false, rest)
    else (false, text)
  | [] => (false, [])

theorem length_readSign_le (text : List UInt8) : (readSign text).2.length ≤ text.length := by
  unfold readSign
  split
  · split
    · exact Nat.le_succ _
    · split
      · exact Nat.le_succ _
      · exact Nat.le_refl _
  · exact Nat.le_refl _

/-- The number that some digits denote. -/
def digitsValue (digits : List Nat) : Nat :=
  digits.foldl (fun value digit => 10 * value + digit) 0

/-- An exponent, if there is one. -/
def readExponent (text : List UInt8) : Reading (Option Int) :=
  match text with
  | byte :: rest =>
    if byte = 0x65 ∨ byte = 0x45 then
      match readSomeDigits (readSign rest).2 with
      | .ok (digits, rest') =>
        let value : Int := digitsValue digits
        .ok (some (if (readSign rest).1 then -value else value), rest')
      | .error failure => .error failure
    else .ok (none, text)
  | [] => .ok (none, [])

theorem length_le_of_readExponent {text rest : List UInt8} {exponent : Option Int}
    (h : readExponent text = .ok (exponent, rest)) : rest.length ≤ text.length := by
  unfold readExponent at h
  split at h
  · next tail =>
    split at h
    · split at h
      · next hdigits =>
        cases h
        have := length_le_of_readSomeDigits hdigits
        have := length_readSign_le tail
        simp only [List.length_cons]
        omega
      · cases h
    · cases h
      exact Nat.le_refl _
  · cases h
    exact Nat.le_refl _

/-- The digits of a numeral whose sign has been taken. -/
def readUnsigned (negative : Bool) (text : List UInt8) : Reading Numeral :=
  match readWhole text with
  | .error failure => .error failure
  | .ok (whole, text₁) =>
    match readFraction text₁ with
    | .error failure => .error failure
    | .ok (fraction, text₂) =>
      match readExponent text₂ with
      | .error failure => .error failure
      | .ok (exponent, rest) => .ok ({ negative, whole, fraction, exponent }, rest)

theorem length_lt_of_readUnsigned {negative : Bool} {text rest : List UInt8} {numeral : Numeral}
    (h : readUnsigned negative text = .ok (numeral, rest)) : rest.length < text.length := by
  unfold readUnsigned at h
  split at h
  · cases h
  · next hwhole =>
    split at h
    · cases h
    · next hfraction =>
      split at h
      · cases h
      · next hexponent =>
        cases h
        have := length_lt_of_readWhole hwhole
        have := length_le_of_readFraction hfraction
        have := length_le_of_readExponent hexponent
        omega

/-- A numeral. -/
def readNumeral (text : List UInt8) : Reading Numeral :=
  match text with
  | byte :: rest =>
    if byte = Ascii.minus then readUnsigned true rest else readUnsigned false text
  | [] => .error .ended

theorem length_lt_of_readNumeral {text rest : List UInt8} {numeral : Numeral}
    (h : readNumeral text = .ok (numeral, rest)) : rest.length < text.length := by
  unfold readNumeral at h
  split at h
  · split at h
    · exact Nat.lt_succ_of_lt (length_lt_of_readUnsigned h)
    · exact length_lt_of_readUnsigned h
  · cases h

/-- A number: a numeral whose value is in range. -/
def readNumber (text : List UInt8) : Reading Number :=
  match readNumeral text with
  | .error failure => .error failure
  | .ok (numeral, rest) =>
    match numeral.value? with
    | some number => .ok (number, rest)
    | none => .error .malformed

/-- A number takes at least one digit. -/
theorem length_lt_of_readNumber {text rest : List UInt8} {number : Number}
    (h : readNumber text = .ok (number, rest)) : rest.length < text.length := by
  unfold readNumber at h
  split at h
  · cases h
  · next hnumeral =>
    split at h
    · cases h
      exact length_lt_of_readNumeral hnumeral
    · cases h

/-! ## Strings -/

/-- The value of four hexadecimal digits. All four bytes must be there before any is judged. -/
def readCodeUnit (text : List UInt8) : Reading Nat :=
  match text with
  | a :: b :: c :: d :: rest =>
    match Ascii.hexValue? a, Ascii.hexValue? b, Ascii.hexValue? c, Ascii.hexValue? d with
    | some a, some b, some c, some d => .ok (((a * 16 + b) * 16 + c) * 16 + d, rest)
    | _, _, _, _ => .error .malformed
  | _ => .error .ended

theorem length_lt_of_readCodeUnit {text rest : List UInt8} {unit : Nat}
    (h : readCodeUnit text = .ok (unit, rest)) : rest.length < text.length := by
  unfold readCodeUnit at h
  split at h
  · split at h
    · cases h
      simp only [List.length_cons]
      omega
    · cases h
  · cases h

/-- The second half of a code point above the basic plane, as an escape of its own. -/
def readTrailingUnit (text : List UInt8) : Reading Nat :=
  match text with
  | [] => .error .ended
  | byte :: text =>
    if byte = Ascii.backslash then
      match text with
      | [] => .error .ended
      | byte :: text =>
        if byte = Ascii.letterU then
          match readCodeUnit text with
          | .ok (unit, rest) =>
            if 0xdc00 ≤ unit ∧ unit ≤ 0xdfff then .ok (unit, rest) else .error .malformed
          | .error failure => .error failure
        else .error .malformed
    else .error .malformed

theorem length_lt_of_readTrailingUnit {text rest : List UInt8} {unit : Nat}
    (h : readTrailingUnit text = .ok (unit, rest)) : rest.length < text.length := by
  unfold readTrailingUnit at h
  split at h
  · cases h
  · split at h
    · split at h
      · cases h
      · split at h
        · split at h
          · next hunit =>
            split at h
            · cases h
              have := length_lt_of_readCodeUnit hunit
              simp only [List.length_cons]
              omega
            · cases h
          · cases h
        · cases h
    · cases h

/-- The bytes of a code point. -/
def codePointBytes (codePoint : Nat) : List UInt8 :=
  Text.toBytes (String.singleton (Char.ofNat codePoint))

/-- The code point after the letter u of an escape. A code point above the basic plane is written as
two escapes; the halves of such a pair do not stand alone. -/
def readCodePoint (text : List UInt8) : Reading (List UInt8) :=
  match readCodeUnit text with
  | .error failure => .error failure
  | .ok (unit, rest) =>
    if 0xdc00 ≤ unit ∧ unit ≤ 0xdfff then .error .malformed
    else if 0xd800 ≤ unit ∧ unit ≤ 0xdbff then
      match readTrailingUnit rest with
      | .error failure => .error failure
      | .ok (trailing, rest) =>
        .ok (codePointBytes ((unit - 0xd800) * 0x400 + (trailing - 0xdc00) + 0x10000), rest)
    else .ok (codePointBytes unit, rest)

theorem length_lt_of_readCodePoint {text rest bytes : List UInt8}
    (h : readCodePoint text = .ok (bytes, rest)) : rest.length < text.length := by
  unfold readCodePoint at h
  split at h
  · cases h
  · next hunit =>
    split at h
    · cases h
    · split at h
      · split at h
        · cases h
        · next htrailing =>
          have := length_lt_of_readCodeUnit hunit
          have := length_lt_of_readTrailingUnit htrailing
          rw [Except.ok.injEq, Prod.mk.injEq] at h
          rw [← h.2]
          omega
      · rw [Except.ok.injEq, Prod.mk.injEq] at h
        exact h.2 ▸ length_lt_of_readCodeUnit hunit

/-- The byte that a letter after a backslash stands for. -/
def shortEscape? (letter : UInt8) : Option UInt8 :=
  if letter = Ascii.quote then some Ascii.quote
  else if letter = Ascii.backslash then some Ascii.backslash
  else if letter = 0x2f then some 0x2f
  else if letter = Ascii.letterB then some 0x08
  else if letter = Ascii.letterF then some 0x0c
  else if letter = Ascii.letterN then some 0x0a
  else if letter = Ascii.letterR then some 0x0d
  else if letter = Ascii.letterT then some 0x09
  else none

/-- What follows a backslash: the bytes it stands for. -/
def readEscape (text : List UInt8) : Reading (List UInt8) :=
  match text with
  | [] => .error .ended
  | letter :: rest =>
    if letter = Ascii.letterU then readCodePoint rest
    else match shortEscape? letter with
      | some byte => .ok ([byte], rest)
      | none => .error .malformed

theorem length_lt_of_readEscape {text rest bytes : List UInt8}
    (h : readEscape text = .ok (bytes, rest)) : rest.length < text.length := by
  unfold readEscape at h
  split at h
  · cases h
  · split at h
    · exact Nat.lt_succ_of_lt (length_lt_of_readCodePoint h)
    · split at h
      · cases h
        simp
      · cases h

/-- The bytes of a string up to its closing quote. Control characters must be escaped. -/
def readStringBytes (text : List UInt8) : Reading (List UInt8) :=
  match text with
  | [] => .error .ended
  | byte :: rest =>
    if byte = Ascii.quote then .ok ([], rest)
    else if byte = Ascii.backslash then
      match _hescape : readEscape rest with
      | .error failure => .error failure
      | .ok (bytes, rest) =>
        match readStringBytes rest with
        | .error failure => .error failure
        | .ok (more, rest) => .ok (bytes ++ more, rest)
    else if byte < 0x20 then .error .malformed
    else match readStringBytes rest with
      | .error failure => .error failure
      | .ok (more, rest) => .ok (byte :: more, rest)
termination_by text.length
decreasing_by
  · have := length_lt_of_readEscape _hescape
    simp only [List.length_cons]
    omega
  · simp

theorem length_lt_of_readStringBytes {text rest bytes : List UInt8}
    (h : readStringBytes text = .ok (bytes, rest)) : rest.length < text.length := by
  fun_induction readStringBytes text generalizing bytes rest with
  | case1 => cases h
  | case2 => cases h; simp
  | case3 => cases h
  | case4 => cases h
  | case5 tail _ afterEscape hescape more afterMore hmore _ ih =>
    cases h
    have := length_lt_of_readEscape hescape
    have := ih hmore
    simp only [List.length_cons]
    omega
  | case6 => cases h
  | case7 => cases h
  | case8 byte tail _ _ _ more afterMore hmore ih =>
    cases h
    have := ih hmore
    simp only [List.length_cons]
    omega

/-- A string whose opening quote has been taken. Its bytes must encode a text. -/
def readString (text : List UInt8) : Reading String :=
  match readStringBytes text with
  | .error failure => .error failure
  | .ok (bytes, rest) =>
    match Text.ofBytes? bytes with
    | some value => .ok (value, rest)
    | none => .error .malformed

/-- A string takes at least its closing quote. -/
theorem length_lt_of_readString {text rest : List UInt8} {value : String}
    (h : readString text = .ok (value, rest)) : rest.length < text.length := by
  unfold readString at h
  split at h
  · cases h
  · next hbytes =>
    split at h
    · cases h
      exact length_lt_of_readStringBytes hbytes
    · cases h

end Lexical

end JtagPlayer
