import JtagPlayer.Proofs.Extents

/-!
# The texts of JSON values

`Json.Spells levels value text` says that a text spells a value in which at most `levels` arrays and
objects are nested. It is the grammar of JSON and knows nothing of readers: there may be space
between any two parts, a character of a string may be escaped or not, and a number may have any
digits. Only what its readers cannot tell is left out: numbers out of range, and escapes that encode
no character.

The grammar comes before the readers of what holds no other values. Each of them takes what is
spelt, and takes nothing else; the names of the first kind of lemmas end in `spelt` and those of the
second begin with `spells_of`.
-/

namespace JtagPlayer

/-! ## The grammar -/

namespace Lexical

/-- A text of space only. -/
def Blank (text : List UInt8) : Prop :=
  ∀ byte ∈ text, isSpace byte = true

/-- Digits, at least one. -/
structure SpellsDigits (digits : List Nat) (text : List UInt8) : Prop where
  ne_nil : text ≠ []
  isDigit : ∀ byte ∈ text, Ascii.isDigit byte = true
  values : text.map Ascii.digitValue = digits

/-- The digits before the point. A zero in front is the only one. -/
structure SpellsWhole (digits : List Nat) (text : List UInt8) : Prop
    extends SpellsDigits digits text where
  zero : text.head? = some Ascii.zero → text = [Ascii.zero]

/-- A point and the digits after it, or neither. -/
inductive SpellsFraction : List Nat → List UInt8 → Prop where
  | none : SpellsFraction [] []
  | some {digits text} (h : SpellsDigits digits text) :
    SpellsFraction digits (Ascii.point :: text)

/-- The sign of an exponent, if it has one, and whether that is a minus. -/
inductive SpellsSign : Bool → List UInt8 → Prop where
  | none : SpellsSign false []
  | plus : SpellsSign false [Ascii.plus]
  | minus : SpellsSign true [Ascii.minus]

/-- The letter e and an exponent, or neither. -/
inductive SpellsExponent : Option Int → List UInt8 → Prop where
  | none : SpellsExponent Option.none []
  | some {letter negative sign digits text} (hletter : letter = 0x65 ∨ letter = 0x45)
    (hsign : SpellsSign negative sign) (h : SpellsDigits digits text) :
    SpellsExponent (Option.some (if negative then -(digitsValue digits : Int)
      else digitsValue digits)) (letter :: (sign ++ text))

/-- The parts of a numeral, one after the other. -/
inductive SpellsNumeral : Numeral → List UInt8 → Prop where
  | intro {negative whole fraction exponent wholeText fractionText exponentText}
    (hwhole : SpellsWhole whole wholeText) (hfraction : SpellsFraction fraction fractionText)
    (hexponent : SpellsExponent exponent exponentText) :
    SpellsNumeral ⟨negative, whole, fraction, exponent⟩
      ((if negative then [Ascii.minus] else []) ++ (wholeText ++ (fractionText ++ exponentText)))

/-- Four hexadecimal digits. -/
inductive SpellsCodeUnit : Nat → List UInt8 → Prop where
  | intro {a b c d first second third fourth} (ha : Ascii.hexValue? a = some first)
    (hb : Ascii.hexValue? b = some second) (hc : Ascii.hexValue? c = some third)
    (hd : Ascii.hexValue? d = some fourth) :
    SpellsCodeUnit (((first * 16 + second) * 16 + third) * 16 + fourth) [a, b, c, d]

/-- What stands after a backslash for some bytes: a letter, a code point of the basic plane, or the
two halves of one above it. -/
inductive SpellsEscape : List UInt8 → List UInt8 → Prop where
  | short {letter byte} (h : shortEscape? letter = some byte) : SpellsEscape [byte] [letter]
  | codePoint {unit text} (hunit : SpellsCodeUnit unit text)
    (hbasic : ¬ (0xd800 ≤ unit ∧ unit ≤ 0xdfff)) :
    SpellsEscape (codePointBytes unit) (Ascii.letterU :: text)
  | pair {high low highText lowText} (hhigh : SpellsCodeUnit high highText)
    (hlow : SpellsCodeUnit low lowText) (hrange : 0xd800 ≤ high ∧ high ≤ 0xdbff)
    (hrange' : 0xdc00 ≤ low ∧ low ≤ 0xdfff) :
    SpellsEscape (codePointBytes ((high - 0xd800) * 0x400 + (low - 0xdc00) + 0x10000))
      (Ascii.letterU :: (highText ++ Ascii.backslash :: Ascii.letterU :: lowText))

/-- What stands for some bytes between quotes. -/
inductive SpellsBytes : List UInt8 → List UInt8 → Prop where
  | nil : SpellsBytes [] []
  | plain {byte bytes text} (hquote : byte ≠ Ascii.quote) (hbackslash : byte ≠ Ascii.backslash)
    (hcontrol : ¬ byte < 0x20) (h : SpellsBytes bytes text) :
    SpellsBytes (byte :: bytes) (byte :: text)
  | escape {escaped escapedText bytes text} (hescape : SpellsEscape escaped escapedText)
    (h : SpellsBytes bytes text) :
    SpellsBytes (escaped ++ bytes) (Ascii.backslash :: (escapedText ++ text))

/-- A string between quotes. -/
def SpellsString (value : String) (text : List UInt8) : Prop :=
  ∃ body, SpellsBytes (Text.toBytes value) body ∧ text = Ascii.quote :: (body ++ [Ascii.quote])

end Lexical

open Lexical

namespace Json

/-- The text of a value, with space around it. -/
structure Placed (α : Type) where
  before : List UInt8
  value : α
  text : List UInt8
  after : List UInt8

namespace Placed

variable {α : Type}

/-- All bytes of it. -/
def bytes (placed : Placed α) : List UInt8 :=
  placed.before ++ (placed.text ++ placed.after)

/-- Nothing but space stands around it. -/
structure IsSpaced (placed : Placed α) : Prop where
  before : Blank placed.before
  after : Blank placed.after

end Placed

/-- The text of a member of an object, with space around its name and its value. -/
structure PlacedMember (ν α : Type) extends Placed α where
  beforeName : List UInt8
  name : ν
  nameText : List UInt8
  afterName : List UInt8

namespace PlacedMember

variable {ν α : Type}

/-- The member. -/
def member (placed : PlacedMember ν α) : ν × α :=
  (placed.name, placed.value)

/-- All bytes of it. -/
def memberBytes (placed : PlacedMember ν α) : List UInt8 :=
  placed.beforeName ++ (placed.nameText ++ (placed.afterName ++ Ascii.colon :: placed.bytes))

/-- Nothing but space stands around its name, which is spelt as names are, and its value. -/
structure IsNamed (SpellsName : ν → List UInt8 → Prop) (placed : PlacedMember ν α) : Prop
    extends placed.toPlaced.IsSpaced where
  beforeName : Blank placed.beforeName
  nameText : SpellsName placed.name placed.nameText
  afterName : Blank placed.afterName

end PlacedMember

/-- Texts with commas between them, or space if there are none. -/
def listed (space : List UInt8) : List (List UInt8) → List UInt8
  | [] => space
  | first :: more => first ++ more.flatMap (Ascii.comma :: ·)

/-- A text that spells a value in which at most so many arrays and objects are nested. -/
inductive Spells : Nat → Json → List UInt8 → Prop where
  | null (levels) : Spells levels .null (Text.toBytes "null")
  | bool (levels value) :
    Spells levels (.bool value) (Text.toBytes (if value then "true" else "false"))
  | number (levels) {numeral value text} (h : SpellsNumeral numeral text)
    (hvalue : numeral.value? = some value) : Spells levels (.number value) text
  | string (levels) {value text} (h : SpellsString value text) : Spells levels (.string value) text
  | array {levels space} {items : List (Placed Json)} (hspace : Blank space)
    (hspaced : ∀ item ∈ items, item.IsSpaced)
    (h : ∀ item ∈ items, Spells levels item.value item.text) :
    Spells (levels + 1) (.array (items.map Placed.value))
      (Ascii.openBracket :: (listed space (items.map Placed.bytes) ++ [Ascii.closeBracket]))
  | object {levels space} {members : List (PlacedMember String Json)} (hspace : Blank space)
    (hnamed : ∀ member ∈ members, member.IsNamed SpellsString)
    (h : ∀ member ∈ members, Spells levels member.value member.text) :
    Spells (levels + 1) (.object (members.map PlacedMember.member))
      (Ascii.openBrace :: (listed space (members.map PlacedMember.memberBytes) ++
        [Ascii.closeBrace]))

/-- A document that spells a value. -/
def Document (value : Json) (text : List UInt8) : Prop :=
  ∃ before body after, Blank before ∧ Blank after ∧ Spells maxLevels value body ∧
    text = before ++ (body ++ after)

end Json

/-! ## Numerals -/

namespace Lexical

/-- A text that does not begin with a digit. -/
def EndsDigits (text : List UInt8) : Prop :=
  ∀ byte ∈ text.head?, Ascii.isDigit byte = false

/-- What ends a numeral begins with no digit. -/
theorem EndsNumeral.endsDigits {text : List UInt8} (h : EndsNumeral text) : EndsDigits text :=
  fun byte hbyte => (h byte hbyte).1

section Numerals

variable {text rest : List UInt8} {digits : List Nat}

/-- Digits are read up to the first byte that is none. -/
theorem readDigits_spelt (h : ∀ byte ∈ text, Ascii.isDigit byte = true) (hrest : EndsDigits rest) :
    readDigits (text ++ rest) = (text.map Ascii.digitValue, rest) := by
  rw [readDigits, List.takeWhile_append_of_pos h, List.dropWhile_append_of_pos h]
  cases rest with
  | nil => simp
  | cons byte rest => simp [hrest byte rfl]

/-- Digits that follow the grammar are read to their end. -/
theorem readSomeDigits_spelt (h : SpellsDigits digits text) (hrest : EndsDigits rest) :
    readSomeDigits (text ++ rest) = .ok (digits, rest) := by
  obtain ⟨byte, tail, rfl⟩ := List.exists_cons_of_ne_nil h.ne_nil
  have hdigits := readDigits_spelt h.isDigit hrest
  rw [List.cons_append] at hdigits ⊢
  rw [readSomeDigits, if_pos (h.isDigit byte List.mem_cons_self), hdigits, h.values]

/-- Where digits were read, the grammar has at least one in front of the rest. -/
theorem spells_of_readSomeDigits (h : readSomeDigits text = .ok (digits, rest)) :
    ∃ body, text = body ++ rest ∧ SpellsDigits digits body := by
  cases text with
  | nil => cases h
  | cons byte text =>
    rw [readSomeDigits] at h
    split at h
    · rename_i hdigit
      cases h
      refine ⟨(byte :: text).takeWhile Ascii.isDigit,
        (List.takeWhile_append_dropWhile).symm, ?_, List.all_eq_true.mp List.all_takeWhile, rfl⟩
      simp [hdigit]
    · cases h

/-- The digits before the point are read to their end: a zero stands alone, so that none may follow
it, and any other digit takes the digits behind it along. -/
theorem readWhole_spelt (h : SpellsWhole digits text) (hrest : EndsDigits rest) :
    readWhole (text ++ rest) = .ok (digits, rest) := by
  obtain ⟨byte, tail, rfl⟩ := List.exists_cons_of_ne_nil h.ne_nil
  by_cases hzero : byte = Ascii.zero
  · cases h.zero (congrArg some hzero)
    have hnone : ¬ (rest.head?.map Ascii.isDigit).getD false = true := by
      cases rest with
      | nil => nofun
      | cons byte rest => simpa using hrest byte rfl
    rw [← h.values, List.singleton_append, readWhole, if_pos rfl, if_neg hnone]
    rfl
  · have hdigits := readSomeDigits_spelt h.toSpellsDigits hrest
    rw [List.cons_append] at hdigits ⊢
    rw [readWhole, if_neg hzero, hdigits]

/-- What was read before the point follows the grammar, which has no zero in front of other digits.
-/
theorem spells_of_readWhole (h : readWhole text = .ok (digits, rest)) :
    ∃ body, text = body ++ rest ∧ SpellsWhole digits body := by
  cases text with
  | nil => cases h
  | cons byte text =>
    rw [readWhole] at h
    by_cases hzero : byte = Ascii.zero
    · rw [if_pos hzero] at h
      split at h
      · cases h
      · cases h
        refine ⟨[byte], rfl, ⟨List.cons_ne_nil _ _, ?_, ?_⟩, fun _ => hzero ▸ rfl⟩
        · exact List.forall_mem_singleton.mpr (hzero ▸ rfl)
        · rw [hzero]
          rfl
    · rw [if_neg hzero] at h
      obtain ⟨body, hbody, hdigits⟩ := spells_of_readSomeDigits h
      refine ⟨body, hbody, hdigits, fun hhead => ?_⟩
      obtain ⟨first, tail, rfl⟩ := List.exists_cons_of_ne_nil hdigits.ne_nil
      cases hbody
      cases hhead
      exact absurd rfl hzero

/-- A fraction is read to its end. If there is none, nothing behind it may look like one. -/
theorem readFraction_spelt (h : SpellsFraction digits text) (hrest : EndsDigits rest)
    (hpoint : rest.head? ≠ some Ascii.point) :
    readFraction (text ++ rest) = .ok (digits, rest) := by
  cases h with
  | none =>
    cases rest with
    | nil => rfl
    | cons byte rest => exact if_neg fun heq => hpoint (congrArg some heq)
  | some h => rw [List.cons_append, readFraction, if_pos rfl, readSomeDigits_spelt h hrest]

/-- What was read behind a point is a fraction, and without a point nothing was read. -/
theorem spells_of_readFraction (h : readFraction text = .ok (digits, rest)) :
    ∃ body, text = body ++ rest ∧ SpellsFraction digits body := by
  cases text with
  | nil =>
    cases h
    exact ⟨[], rfl, .none⟩
  | cons byte text =>
    rw [readFraction] at h
    split at h
    · rename_i hpoint
      obtain ⟨body, rfl, hdigits⟩ := spells_of_readSomeDigits h
      exact ⟨byte :: body, rfl, hpoint ▸ .some hdigits⟩
    · cases h
      exact ⟨[], rfl, .none⟩

/-- The sign of an exponent is read apart from its digits, for no digit is a sign. -/
theorem readSign_spelt {negative : Bool} {sign : List UInt8} (hsign : SpellsSign negative sign)
    (h : SpellsDigits digits text) (rest : List UInt8) :
    readSign (sign ++ (text ++ rest)) = (negative, text ++ rest) := by
  cases hsign with
  | none =>
    obtain ⟨byte, tail, rfl⟩ := List.exists_cons_of_ne_nil h.ne_nil
    have hdigit := h.isDigit byte List.mem_cons_self
    have hminus : byte ≠ Ascii.minus := by
      rintro rfl
      cases hdigit
    have hplus : byte ≠ Ascii.plus := by
      rintro rfl
      cases hdigit
    exact (if_neg hminus).trans (if_neg hplus)
  | plus => rfl
  | minus => rfl

/-- Reading a sign cannot fail: what it takes is a sign or nothing. -/
theorem spells_of_readSign (text : List UInt8) :
    ∃ sign, text = sign ++ (readSign text).2 ∧ SpellsSign (readSign text).1 sign := by
  cases text with
  | nil => exact ⟨[], rfl, .none⟩
  | cons byte text =>
    rw [readSign]
    split
    · rename_i hminus
      exact ⟨[byte], rfl, hminus ▸ .minus⟩
    split
    · rename_i hplus
      exact ⟨[byte], rfl, hplus ▸ .plus⟩
    · exact ⟨[], rfl, .none⟩

/-- An exponent is read to its end. If there is none, what follows does not begin with its letter.
-/
theorem readExponent_spelt {exponent : Option Int} (h : SpellsExponent exponent text)
    (hrest : EndsNumeral rest) : readExponent (text ++ rest) = .ok (exponent, rest) := by
  cases h with
  | none =>
    cases rest with
    | nil => rfl
    | cons byte rest =>
      obtain ⟨-, -, hlower, hupper⟩ := hrest byte rfl
      exact if_neg (not_or.mpr ⟨hlower, hupper⟩)
  | some hletter hsign h =>
    rw [List.cons_append, List.append_assoc, readExponent, if_pos hletter,
      readSign_spelt hsign h, readSomeDigits_spelt h hrest.endsDigits]

/-- What was read behind the letter is a sign and digits, and without the letter nothing was read.
-/
theorem spells_of_readExponent {exponent : Option Int}
    (h : readExponent text = .ok (exponent, rest)) :
    ∃ body, text = body ++ rest ∧ SpellsExponent exponent body := by
  cases text with
  | nil =>
    cases h
    exact ⟨[], rfl, .none⟩
  | cons byte text =>
    rw [readExponent] at h
    split at h
    · rename_i hletter
      obtain ⟨sign, hsigned, hsign⟩ := spells_of_readSign text
      split at h
      · rename_i hread
        cases h
        obtain ⟨body, hbody, hdigits⟩ := spells_of_readSomeDigits hread
        refine ⟨byte :: (sign ++ body), ?_, .some hletter hsign hdigits⟩
        rw [List.cons_append, List.append_assoc, ← hbody, ← hsigned]
      · cases h
    · cases h
      exact ⟨[], rfl, .none⟩

/-- Behind the digits in front of it, a fraction or an exponent is told by its first byte. -/
theorem endsDigits_exponent {exponent : Option Int} (h : SpellsExponent exponent text)
    (hrest : EndsNumeral rest) :
    EndsDigits (text ++ rest) ∧ (text ++ rest).head? ≠ some Ascii.point := by
  cases h with
  | none => exact ⟨hrest.endsDigits, fun hpoint => (hrest _ hpoint).2.1 rfl⟩
  | some hletter hsign h =>
    rcases hletter with rfl | rfl <;>
      exact ⟨by rintro byte ⟨⟩; rfl, by rintro ⟨⟩⟩

/-- A fraction begins with a point, so the digits in front of it end there. -/
theorem endsDigits_fraction {tail : List UInt8} (h : SpellsFraction digits text)
    (htail : EndsDigits tail) : EndsDigits (text ++ tail) := by
  cases h with
  | none => exact htail
  | some h =>
    rintro byte ⟨⟩
    rfl

/-- A numeral is read to its end, into its parts. -/
theorem readNumeral_spelt {numeral : Numeral} (h : SpellsNumeral numeral text)
    (hrest : EndsNumeral rest) : readNumeral (text ++ rest) = .ok (numeral, rest) := by
  obtain @⟨negative, whole, fraction, exponent, wholeText, fractionText, exponentText, hwhole,
    hfraction, hexponent⟩ := h
  obtain ⟨hdigits, hpoint⟩ := endsDigits_exponent hexponent hrest
  have hunsigned : readUnsigned negative (wholeText ++ (fractionText ++ (exponentText ++ rest))) =
      .ok (⟨negative, whole, fraction, exponent⟩, rest) := by
    rw [readUnsigned, readWhole_spelt hwhole (endsDigits_fraction hfraction hdigits)]
    dsimp only
    rw [readFraction_spelt hfraction hdigits hpoint]
    dsimp only
    rw [readExponent_spelt hexponent hrest]
  simp only [List.append_assoc]
  cases negative with
  | true => rw [if_pos rfl, List.singleton_append, readNumeral, if_pos rfl, hunsigned]
  | false =>
    obtain ⟨byte, tail, rfl⟩ := List.exists_cons_of_ne_nil hwhole.ne_nil
    have hminus : byte ≠ Ascii.minus := by
      rintro rfl
      cases hwhole.isDigit _ List.mem_cons_self
    exact (if_neg hminus).trans hunsigned

/-- What was read behind a minus, or without one, are the other parts of a numeral. -/
theorem spells_of_readUnsigned {negative : Bool} {numeral : Numeral}
    (h : readUnsigned negative text = .ok (numeral, rest)) :
    ∃ body, text = body ++ rest ∧
      SpellsNumeral numeral ((if negative then [Ascii.minus] else []) ++ body) := by
  unfold readUnsigned at h
  split at h
  · cases h
  rename_i hwhole
  split at h
  · cases h
  rename_i hfraction
  split at h
  · cases h
  rename_i hexponent
  cases h
  obtain ⟨wholeText, rfl, hwholeText⟩ := spells_of_readWhole hwhole
  obtain ⟨fractionText, rfl, hfractionText⟩ := spells_of_readFraction hfraction
  obtain ⟨exponentText, rfl, hexponentText⟩ := spells_of_readExponent hexponent
  exact ⟨wholeText ++ (fractionText ++ exponentText), by simp,
    .intro hwholeText hfractionText hexponentText⟩

/-- What was read as a numeral follows the grammar. -/
theorem spells_of_readNumeral {numeral : Numeral} (h : readNumeral text = .ok (numeral, rest)) :
    ∃ body, text = body ++ rest ∧ SpellsNumeral numeral body := by
  cases text with
  | nil => cases h
  | cons byte text =>
    rw [readNumeral] at h
    split at h
    · rename_i hminus
      obtain ⟨body, rfl, hbody⟩ := spells_of_readUnsigned h
      exact ⟨byte :: body, rfl, hminus ▸ hbody⟩
    · exact spells_of_readUnsigned h

/-- A numeral that has a value is read as this value. -/
theorem readNumber_spelt {numeral : Numeral} {value : Number} (h : SpellsNumeral numeral text)
    (hvalue : numeral.value? = some value) (hrest : EndsNumeral rest) :
    readNumber (text ++ rest) = .ok (value, rest) := by
  rw [readNumber, readNumeral_spelt h hrest]
  simp only [hvalue]

/-- A number that was read is the value of a numeral that follows the grammar. -/
theorem spells_of_readNumber {value : Number} (h : readNumber text = .ok (value, rest)) :
    ∃ body numeral, text = body ++ rest ∧ SpellsNumeral numeral body ∧
      numeral.value? = some value := by
  unfold readNumber at h
  split at h
  · cases h
  rename_i numeral rest' hnumeral
  split at h
  · rename_i hvalue
    cases h
    obtain ⟨body, rfl, hbody⟩ := spells_of_readNumeral hnumeral
    exact ⟨body, numeral, rfl, hbody, hvalue⟩
  · cases h

end Numerals

/-! ## Strings -/

section Strings

variable {text rest : List UInt8}

/-- Four hexadecimal digits are read as the number that they make. -/
theorem readCodeUnit_spelt {unit : Nat} (h : SpellsCodeUnit unit text) (rest : List UInt8) :
    readCodeUnit (text ++ rest) = .ok (unit, rest) := by
  cases h with
  | intro ha hb hc hd =>
    simp only [List.cons_append, List.nil_append, readCodeUnit, ha, hb, hc, hd]

/-- A code unit that was read stands there in four hexadecimal digits. -/
theorem spells_of_readCodeUnit {unit : Nat} (h : readCodeUnit text = .ok (unit, rest)) :
    ∃ body, text = body ++ rest ∧ SpellsCodeUnit unit body := by
  unfold readCodeUnit at h
  split at h
  · split at h
    · rename_i ha hb hc hd
      cases h
      exact ⟨_, rfl, .intro ha hb hc hd⟩
    · cases h
  · cases h

/-- All three kinds of escapes are read to their end. A surrogate in front is read on, and any other
code unit is not. -/
theorem readEscape_spelt {bytes : List UInt8} (h : SpellsEscape bytes text) (rest : List UInt8) :
    readEscape (text ++ rest) = .ok (bytes, rest) := by
  cases h with
  | short h => exact readEscape_short h rest
  | codePoint hunit hbasic =>
    rw [List.cons_append, readEscape, if_pos rfl, readCodePoint, readCodeUnit_spelt hunit]
    dsimp only
    rw [if_neg (by omega), if_neg (by omega)]
  | @pair high low highText lowText hhigh hlow hrange hrange' =>
    have htrailing : readTrailingUnit (Ascii.backslash :: Ascii.letterU :: (lowText ++ rest)) =
        .ok (low, rest) := by
      simp only [readTrailingUnit, if_true, readCodeUnit_spelt hlow, if_pos hrange']
    rw [List.cons_append, List.append_assoc, readEscape, if_pos rfl, readCodePoint,
      readCodeUnit_spelt hhigh]
    dsimp only
    rw [if_neg (by omega), if_pos hrange, List.cons_append, List.cons_append, htrailing]

/-- The second half of a pair was read behind a backslash and the letter u, and it is a low
surrogate. -/
theorem spells_of_readTrailingUnit {unit : Nat} (h : readTrailingUnit text = .ok (unit, rest)) :
    ∃ body, text = Ascii.backslash :: Ascii.letterU :: (body ++ rest) ∧
      SpellsCodeUnit unit body ∧ 0xdc00 ≤ unit ∧ unit ≤ 0xdfff := by
  unfold readTrailingUnit at h
  repeat' split at h
  all_goals cases h
  rename_i hbackslash _ _ _ hletter _ hrange hunit
  obtain ⟨body, rfl, hbody⟩ := spells_of_readCodeUnit hunit
  exact ⟨body, by rw [hbackslash, hletter], hbody, hrange⟩

/-- The code units that were read behind the letter u make an escape: a single one is no surrogate,
and two are a pair. -/
theorem spells_of_readCodePoint {bytes : List UInt8} (h : readCodePoint text = .ok (bytes, rest)) :
    ∃ body, text = body ++ rest ∧ SpellsEscape bytes (Ascii.letterU :: body) := by
  unfold readCodePoint at h
  split at h
  · cases h
  rename_i hunit
  obtain ⟨body, rfl, hbody⟩ := spells_of_readCodeUnit hunit
  split at h
  · cases h
  rename_i hlow
  split at h
  · rename_i hhigh
    split at h
    · cases h
    rename_i htrailing
    obtain ⟨rfl, rfl⟩ := Prod.mk.inj (Except.ok.inj h)
    obtain ⟨lowText, rfl, hlowText, hrange⟩ := spells_of_readTrailingUnit htrailing
    exact ⟨body ++ Ascii.backslash :: Ascii.letterU :: lowText, by simp,
      .pair hbody hlowText hhigh hrange⟩
  · obtain ⟨rfl, rfl⟩ := Prod.mk.inj (Except.ok.inj h)
    exact ⟨body, rfl, .codePoint hbody (by omega)⟩

/-- What was read behind a backslash is one of the three kinds of escapes. -/
theorem spells_of_readEscape {bytes : List UInt8} (h : readEscape text = .ok (bytes, rest)) :
    ∃ body, text = body ++ rest ∧ SpellsEscape bytes body := by
  cases text with
  | nil => cases h
  | cons letter text =>
    rw [readEscape] at h
    split at h
    · rename_i hunicode
      obtain ⟨body, rfl, hbody⟩ := spells_of_readCodePoint h
      exact ⟨letter :: body, rfl, hunicode ▸ hbody⟩
    · split at h
      · rename_i hshort
        cases h
        exact ⟨[letter], rfl, .short hshort⟩
      · cases h

/-- The body of a string is read up to the quote behind it. -/
theorem readStringBytes_spelt {bytes : List UInt8} (h : SpellsBytes bytes text)
    (rest : List UInt8) :
    readStringBytes (text ++ Ascii.quote :: rest) = .ok (bytes, rest) := by
  induction h with
  | nil => exact readStringBytes_quote rest
  | plain hquote hbackslash hcontrol h ih =>
    rw [List.cons_append, readStringBytes_plain hquote hbackslash hcontrol, ih]
    rfl
  | escape hescape h ih =>
    rw [List.cons_append, List.append_assoc, readStringBytes_escape (readEscape_spelt hescape _),
      ih]
    rfl

/-- What was read up to a quote follows the grammar. -/
theorem spells_of_readStringBytes {bytes : List UInt8}
    (h : readStringBytes text = .ok (bytes, rest)) :
    ∃ body, text = body ++ Ascii.quote :: rest ∧ SpellsBytes bytes body := by
  fun_induction readStringBytes text generalizing bytes rest with
  | case1 | case3 | case4 | case6 | case7 => cases h
  | case2 =>
    cases h
    exact ⟨[], rfl, .nil⟩
  | case5 text _ afterEscape hescape more afterMore hmore _ ih =>
    cases h
    obtain ⟨escaped, rfl, hescaped⟩ := spells_of_readEscape hescape
    obtain ⟨body, rfl, hbody⟩ := ih hmore
    exact ⟨Ascii.backslash :: (escaped ++ body), by simp, .escape hescaped hbody⟩
  | case8 byte text hquote hbackslash hcontrol more afterMore hmore ih =>
    cases h
    obtain ⟨body, rfl, hbody⟩ := ih hmore
    exact ⟨byte :: body, rfl, .plain hquote hbackslash hcontrol hbody⟩

/-- Bytes that were taken for a string are the bytes of this string. -/
theorem toBytes_of_ofBytes? {bytes : List UInt8} {value : String}
    (h : Text.ofBytes? bytes = some value) : Text.toBytes value = bytes := by
  unfold Text.ofBytes? String.fromUTF8? at h
  split at h
  · cases h
    rfl
  · cases h

/-- A string in quotes is read to its end: its bytes are valid, since they are the bytes of a
string. -/
theorem readString_spelt {value : String} (h : SpellsString value text) (rest : List UInt8) :
    ∃ tail, text = Ascii.quote :: tail ∧ readString (tail ++ rest) = .ok (value, rest) := by
  obtain ⟨body, hbytes, rfl⟩ := h
  refine ⟨_, rfl, ?_⟩
  rw [List.append_assoc, List.singleton_append, readString, readStringBytes_spelt hbytes]
  dsimp only
  rw [Text.ofBytes?_toBytes]

/-- A string that was read behind a quote ends with another one, and its body follows the grammar.
-/
theorem spells_of_readString {value : String} (h : readString text = .ok (value, rest)) :
    ∃ body, Ascii.quote :: text = body ++ rest ∧ SpellsString value body := by
  unfold readString at h
  split at h
  · cases h
  rename_i hread
  split at h
  · rename_i hvalue
    cases h
    obtain ⟨body, rfl, hbody⟩ := spells_of_readStringBytes hread
    exact ⟨Ascii.quote :: (body ++ [Ascii.quote]), by simp, body,
      toBytes_of_ofBytes? hvalue ▸ hbody, rfl⟩
  · cases h

end Strings

end Lexical

end JtagPlayer
