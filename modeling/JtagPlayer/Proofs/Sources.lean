import JtagPlayer.Proofs.Spelling
import Mathlib.Tactic.Choose

/-!
# Documents as they are written

`Json.Spells` leaves out the documents that have no value: those with a number out of range, or with
an escape that encodes no character. In a `Source` a number is a numeral and a string a list of
characters and escapes, whatever they stand for, and `Source.Spells` is the grammar of JSON without
exception.

Which documents have a value is then a property of what is written. `Source.IsReadable` asks it of
every numeral, and of every escape in a string or in the name of a member. `Source.document_iff`
says that the documents that spell a value are those of the readable sources with this value.
-/

namespace JtagPlayer

open Lexical

/-- A part of a string as it is written. -/
inductive Piece where
  /-- A character that stands for itself. -/
  | plain (char : Char)
  /-- A backslash and a letter, for a character. -/
  | short (char : Char)
  /-- A backslash, the letter u and four hexadecimal digits, for a code unit. -/
  | codeUnit (value : Nat)

/-- A JSON value as it is written. -/
inductive Source where
  | null
  | bool (value : Bool)
  | number (numeral : Numeral)
  | string (pieces : List Piece)
  | array (items : List Source)
  | object (members : List (List Piece × Source))
  deriving Inhabited

/-! ## The grammar -/

namespace Piece

/-- A text that spells a part of a string. -/
inductive Spells : Piece → List UInt8 → Prop where
  | plain {char} (hquote : char ≠ '\"') (hbackslash : char ≠ '\\') (hcontrol : 0x20 ≤ char.toNat) :
    Spells (.plain char) (String.utf8EncodeChar char)
  | short {letter byte} (h : shortEscape? letter = some byte) :
    Spells (.short (Char.ofUInt8 byte)) [Ascii.backslash, letter]
  | codeUnit {unit text} (h : SpellsCodeUnit unit text) :
    Spells (.codeUnit unit) (Ascii.backslash :: Ascii.letterU :: text)

/-- A text that spells parts of a string, one after the other. -/
inductive SpellsAll : List Piece → List UInt8 → Prop where
  | nil : SpellsAll [] []
  | cons {piece pieces text more} (hpiece : piece.Spells text) (h : SpellsAll pieces more) :
    SpellsAll (piece :: pieces) (text ++ more)

/-- A text that spells a string between quotes. -/
def SpellsString (pieces : List Piece) (text : List UInt8) : Prop :=
  ∃ body, SpellsAll pieces body ∧ text = Ascii.quote :: (body ++ [Ascii.quote])

end Piece

namespace Source

open Json

/-- A text that spells a source in which at most so many arrays and objects are nested. -/
inductive Spells : Nat → Source → List UInt8 → Prop where
  | null (levels) : Spells levels .null (Text.toBytes "null")
  | bool (levels value) :
    Spells levels (.bool value) (Text.toBytes (if value then "true" else "false"))
  | number (levels) {numeral text} (h : SpellsNumeral numeral text) :
    Spells levels (.number numeral) text
  | string (levels) {pieces text} (h : Piece.SpellsString pieces text) :
    Spells levels (.string pieces) text
  | array {levels space} {items : List (Placed Source)} (hspace : Blank space)
    (hspaced : ∀ item ∈ items, item.IsSpaced)
    (h : ∀ item ∈ items, Spells levels item.value item.text) :
    Spells (levels + 1) (.array (items.map Placed.value))
      (Ascii.openBracket :: (listed space (items.map Placed.bytes) ++ [Ascii.closeBracket]))
  | object {levels space} {members : List (PlacedMember (List Piece) Source)}
    (hspace : Blank space) (hnamed : ∀ member ∈ members, member.IsNamed Piece.SpellsString)
    (h : ∀ member ∈ members, Spells levels member.value member.text) :
    Spells (levels + 1) (.object (members.map PlacedMember.member))
      (Ascii.openBrace :: (listed space (members.map PlacedMember.memberBytes) ++
        [Ascii.closeBrace]))

/-- A document of a source. -/
def Document (source : Source) (text : List UInt8) : Prop :=
  ∃ before body after, Blank before ∧ Blank after ∧ source.Spells maxLevels body ∧
    text = before ++ (body ++ after)

end Source

/-! ## What can be read -/

/-- A numeral is read as an integer of 64 bits or as a finite number of double precision. -/
def Numeral.IsReadable (numeral : Numeral) : Prop :=
  numeral.value? ≠ none

namespace Piece

/-- Every escape encodes a character. Surrogates do in pairs only, the high one first. -/
inductive AllEncode : List Piece → Prop where
  | nil : AllEncode []
  | plain (char) {pieces} (h : AllEncode pieces) : AllEncode (.plain char :: pieces)
  | short (char) {pieces} (h : AllEncode pieces) : AllEncode (.short char :: pieces)
  | codePoint {unit pieces} (hbasic : ¬ (0xd800 ≤ unit ∧ unit ≤ 0xdfff)) (h : AllEncode pieces) :
    AllEncode (.codeUnit unit :: pieces)
  | pair {high low pieces} (hhigh : 0xd800 ≤ high ∧ high ≤ 0xdbff)
    (hlow : 0xdc00 ≤ low ∧ low ≤ 0xdfff) (h : AllEncode pieces) :
    AllEncode (.codeUnit high :: .codeUnit low :: pieces)

/-- The characters that the parts of a string stand for, if every escape encodes one. -/
def characters : List Piece → List Char
  | [] => []
  | .plain char :: pieces => char :: characters pieces
  | .short char :: pieces => char :: characters pieces
  | .codeUnit high :: .codeUnit low :: pieces =>
    if 0xd800 ≤ high ∧ high ≤ 0xdbff then
      Char.ofNat ((high - 0xd800) * 0x400 + (low - 0xdc00) + 0x10000) :: characters pieces
    else Char.ofNat high :: characters (.codeUnit low :: pieces)
  | .codeUnit unit :: pieces => Char.ofNat unit :: characters pieces

/-- The string that is written. -/
def value (pieces : List Piece) : String :=
  String.ofList (characters pieces)

end Piece

namespace Source

/-- All that is written can be read: each numeral, and each escape in strings and in the names of
members. -/
inductive IsReadable : Source → Prop where
  | null : IsReadable .null
  | bool (value) : IsReadable (.bool value)
  | number {numeral : Numeral} (h : numeral.IsReadable) : IsReadable (.number numeral)
  | string {pieces} (h : Piece.AllEncode pieces) : IsReadable (.string pieces)
  | array {items} (h : ∀ item ∈ items, IsReadable item) : IsReadable (.array items)
  | object {members} (hnames : ∀ member ∈ members, Piece.AllEncode member.1)
    (h : ∀ member ∈ members, IsReadable member.2) : IsReadable (.object members)

/-- The value of a readable source. -/
def value : Source → Json
  | null => .null
  | bool value => .bool value
  | number numeral => .number (numeral.value?.getD (.integer 0))
  | string pieces => .string (Piece.value pieces)
  | array items => .array (items.map value)
  | object members => .object (members.map fun member => (Piece.value member.1, value member.2))
decreasing_by
  · have := List.sizeOf_lt_of_mem ‹_›
    rw [array.sizeOf_spec]
    omega
  · rename_i hmember
    have := List.sizeOf_lt_of_mem hmember
    obtain ⟨name, value⟩ := member
    rw [Prod.mk.sizeOf_spec] at this
    rw [object.sizeOf_spec]
    dsimp only
    omega

end Source

/-! ## Strings -/

namespace Piece

/-- A byte that follows another one in the encoding of a character. -/
def IsTrailing (byte : UInt8) : Prop :=
  0x80 ≤ byte ∧ byte < 0xc0

/-- The bytes behind the first of a character carry six bits each, below a mark. -/
theorem isTrailing_ofNat (value : Nat) : IsTrailing (UInt8.ofNat (value % 64 + 128)) := by
  rw [IsTrailing, UInt8.le_iff_toNat_le, UInt8.lt_iff_toNat_lt, UInt8.toNat_ofNat']
  simp only [UInt8.reduceToNat]
  omega

theorem le_ofNat {value : Nat} (h : 0xc0 ≤ value) (h' : value < 0x100) :
    0xc0 ≤ UInt8.ofNat value := by
  rw [UInt8.le_iff_toNat_le, UInt8.toNat_ofNat_of_lt' h']
  exact h

/-- A character in the range of ASCII is encoded as one byte. -/
theorem utf8EncodeChar_ascii {char : Char} (h : char.toNat < 0x80) :
    String.utf8EncodeChar char = [UInt8.ofNat char.toNat] :=
  if_pos (Nat.le_of_lt_succ h)

/-- Any other character is encoded as a leading byte and trailing ones. -/
theorem utf8EncodeChar_wide {char : Char} (h : 0x80 ≤ char.toNat) :
    ∃ first trailing, String.utf8EncodeChar char = first :: trailing ∧ 0xc0 ≤ first ∧
      ∀ byte ∈ trailing, IsTrailing byte := by
  have hascii : ¬ char.toNat ≤ 127 := by omega
  unfold String.utf8EncodeChar
  dsimp only
  rw [Char.toNat_val, if_neg hascii]
  -- There are one, two or three trailing bytes, and each takes the next six bits.
  repeat' split
  all_goals
    refine ⟨_, _, rfl, le_ofNat (by omega) (by omega), ?_⟩
    simp only [List.forall_mem_cons, isTrailing_ofNat, true_and]
    exact List.forall_mem_nil _

/-- The first byte of an encoding is no trailing one. -/
theorem exists_utf8EncodeChar (char : Char) :
    ∃ first trailing, String.utf8EncodeChar char = first :: trailing ∧ ¬ IsTrailing first ∧
      ∀ byte ∈ trailing, IsTrailing byte := by
  by_cases h : char.toNat < 0x80
  · refine ⟨_, [], utf8EncodeChar_ascii h, ?_, nofun⟩
    rintro ⟨hle, -⟩
    rw [UInt8.le_iff_toNat_le, UInt8.toNat_ofNat_of_lt' (Nat.lt_trans h (by decide))] at hle
    exact Nat.not_le_of_lt h hle
  · obtain ⟨first, trailing, hencode, hfirst, htrailing⟩ :=
      utf8EncodeChar_wide (Nat.not_lt.mp h)
    exact ⟨first, trailing, hencode, fun htrail => UInt8.not_lt.mpr hfirst htrail.2, htrailing⟩

/-- What two characters and the bytes behind them have in common. -/
theorem utf8EncodeChar_append_inj {char char' : Char} {bytes bytes' : List UInt8}
    (h : String.utf8EncodeChar char ++ bytes = String.utf8EncodeChar char' ++ bytes') :
    char = char' ∧ bytes = bytes' := by
  have hchar : some char = some char' := by
    have hdecode := @ByteArray.utf8DecodeChar?_utf8EncodeChar_append bytes.toByteArray char
    rw [← List.toByteArray_append, h, List.toByteArray_append,
      ByteArray.utf8DecodeChar?_utf8EncodeChar_append] at hdecode
    exact hdecode.symm
  cases hchar
  exact ⟨rfl, List.append_cancel_left h⟩

/-- The bytes of a string are those of its characters in order. -/
theorem toBytes_ofList (chars : List Char) :
    Text.toBytes (String.ofList chars) = chars.flatMap String.utf8EncodeChar := by
  rw [Text.toBytes, String.toByteArray_ofList, List.utf8Encode]
  exact List.toList_data_toByteArray

theorem toBytes_append (text more : String) :
    Text.toBytes (text ++ more) = Text.toBytes text ++ Text.toBytes more := by
  rw [Text.toBytes, String.toByteArray_append, ByteArray.data_append, Array.toList_append]
  rfl

/-- An escape of a code point stands for the bytes of the character at it. -/
theorem codePointBytes_eq (codePoint : Nat) :
    codePointBytes codePoint = String.utf8EncodeChar (Char.ofNat codePoint) := by
  rw [codePointBytes, String.singleton_eq_ofList, toBytes_ofList, List.flatMap_singleton]

/-- A byte that stands for itself between quotes. -/
def IsPlain (byte : UInt8) : Prop :=
  byte ≠ Ascii.quote ∧ byte ≠ Ascii.backslash ∧ ¬ byte < 0x20

theorem isPlain_of_le {byte : UInt8} (h : 0x80 ≤ byte) : IsPlain byte := by
  refine ⟨?_, ?_, UInt8.not_lt.mpr (UInt8.le_trans (by decide) h)⟩
  · rintro rfl
    exact absurd h (by decide)
  · rintro rfl
    exact absurd h (by decide)

/-- The characters that stand for themselves are those whose bytes do. -/
theorem isPlain_utf8EncodeChar_iff {char : Char} :
    (∀ byte ∈ String.utf8EncodeChar char, IsPlain byte) ↔
      char ≠ '\"' ∧ char ≠ '\\' ∧ 0x20 ≤ char.toNat := by
  by_cases h : char.toNat < 0x80
  · have hbyte : ∀ byte : UInt8, UInt8.ofNat char.toNat = byte ↔ char.toNat = byte.toNat := by
      intro byte
      rw [← UInt8.toNat_inj, UInt8.toNat_ofNat_of_lt' (Nat.lt_trans h (by decide))]
    rw [utf8EncodeChar_ascii h, List.forall_mem_singleton, IsPlain, Ne, hbyte, Ne, hbyte,
      UInt8.lt_iff_toNat_lt, UInt8.toNat_ofNat_of_lt' (Nat.lt_trans h (by decide)), Nat.not_lt,
      Ne, Ne, ← Char.toNat_inj, ← Char.toNat_inj]
    rfl
  · obtain ⟨first, trailing, hencode, hfirst, htrailing⟩ :=
      utf8EncodeChar_wide (Nat.not_lt.mp h)
    have hne : ∀ other : Char, other.toNat < 0x80 → char ≠ other := by
      rintro other hother rfl
      exact h hother
    have hplain : ∀ byte ∈ first :: trailing, IsPlain byte :=
      List.forall_mem_cons.mpr ⟨isPlain_of_le (UInt8.le_trans (by decide) hfirst),
        fun byte hbyte => isPlain_of_le (htrailing byte hbyte).1⟩
    rw [hencode]
    exact iff_of_true hplain ⟨hne _ (by decide), hne _ (by decide), by omega⟩

/-- Bytes that need no escape stand for themselves in front of any body. -/
theorem spellsBytes_append {front bytes text : List UInt8} (hfront : ∀ byte ∈ front, IsPlain byte)
    (h : SpellsBytes bytes text) : SpellsBytes (front ++ bytes) (front ++ text) := by
  induction front with
  | nil => exact h
  | cons byte front ih =>
    obtain ⟨⟨hquote, hbackslash, hcontrol⟩, hmore⟩ := List.forall_mem_cons.mp hfront
    exact .plain hquote hbackslash hcontrol (ih hmore)

/-- A letter after a backslash stands for a character of one byte. -/
theorem utf8EncodeChar_short {letter byte : UInt8} (h : shortEscape? letter = some byte) :
    String.utf8EncodeChar (Char.ofUInt8 byte) = [byte] := by
  unfold shortEscape? at h
  repeat' split at h
  all_goals cases h
  all_goals rfl

/-- A code unit that is no surrogate stands for a character of its own. -/
theorem characters_codeUnit {unit : Nat} (hbasic : ¬ (0xd800 ≤ unit ∧ unit ≤ 0xdfff))
    (pieces : List Piece) :
    characters (.codeUnit unit :: pieces) = Char.ofNat unit :: characters pieces := by
  have hhigh : ¬ (0xd800 ≤ unit ∧ unit ≤ 0xdbff) := by omega
  cases pieces with
  | nil => rfl
  | cons piece pieces =>
    cases piece with
    | codeUnit low => rw [characters, if_neg hhigh]
    | _ => rfl

/-- What spells the parts of a string spells the bytes of its characters. -/
theorem SpellsAll.spellsBytes {pieces : List Piece} {text : List UInt8} (h : SpellsAll pieces text)
    (hencode : AllEncode pieces) :
    SpellsBytes ((characters pieces).flatMap String.utf8EncodeChar) text := by
  -- The induction is on the encoding, which tells a pair of surrogates from two code units.
  induction hencode generalizing text with
  | nil =>
    cases h
    exact .nil
  | plain char hencode ih =>
    cases h with
    | cons hpiece h =>
    cases hpiece with
    | plain hquote hbackslash hcontrol =>
      rw [characters, List.flatMap_cons]
      exact spellsBytes_append
        (isPlain_utf8EncodeChar_iff.mpr ⟨hquote, hbackslash, hcontrol⟩) (ih h)
  | short char hencode ih =>
    cases h with
    | cons hpiece h =>
    cases hpiece with
    | short hletter =>
      rw [characters, List.flatMap_cons, utf8EncodeChar_short hletter]
      exact .escape (.short hletter) (ih h)
  | codePoint hbasic hencode ih =>
    cases h with
    | cons hpiece h =>
    cases hpiece with
    | codeUnit hunit =>
      rw [characters_codeUnit hbasic, List.flatMap_cons, ← codePointBytes_eq]
      exact .escape (.codePoint hunit hbasic) (ih h)
  | pair hhigh hlow hencode ih =>
    cases h with
    | cons hpiece h =>
    cases hpiece with
    | codeUnit hunit =>
    cases h with
    | cons hpiece h =>
    cases hpiece with
    | codeUnit hunit' =>
      rw [characters, if_pos hhigh, List.flatMap_cons, ← codePointBytes_eq]
      have hescape := SpellsBytes.escape (.pair hunit hunit' hhigh hlow) (ih h)
      simpa only [List.cons_append, List.append_assoc] using hescape

theorem Spells.singleton {piece : Piece} {text : List UInt8} (h : piece.Spells text) :
    SpellsAll [piece] text := by
  have hall := SpellsAll.cons h .nil
  rwa [List.append_nil] at hall

/-- An escape is spelt by the parts for one character. -/
theorem pieces_of_spellsEscape {bytes text : List UInt8} (h : SpellsEscape bytes text) :
    ∃ pieces char, bytes = String.utf8EncodeChar char ∧
      SpellsAll pieces (Ascii.backslash :: text) ∧
      ∀ more, AllEncode more →
        AllEncode (pieces ++ more) ∧ characters (pieces ++ more) = char :: characters more := by
  cases h with
  | short hletter =>
    refine ⟨_, _, (utf8EncodeChar_short hletter).symm, (Spells.short hletter).singleton, ?_⟩
    exact fun more hmore => ⟨.short _ hmore, rfl⟩
  | codePoint hunit hbasic =>
    refine ⟨_, _, codePointBytes_eq _, (Spells.codeUnit hunit).singleton, ?_⟩
    exact fun more hmore => ⟨.codePoint hbasic hmore, characters_codeUnit hbasic more⟩
  | pair hhigh hlow hrange hrange' =>
    have hspells := SpellsAll.cons (.codeUnit hhigh) (Spells.codeUnit hlow).singleton
    refine ⟨_, _, codePointBytes_eq _, hspells, fun more hmore => ⟨.pair hrange hrange' hmore, ?_⟩⟩
    exact if_pos hrange

/-- Pieces in a row are spelt one after the other. -/
theorem SpellsAll.append {pieces pieces' : List Piece} {text text' : List UInt8}
    (h : SpellsAll pieces text) (h' : SpellsAll pieces' text') :
    SpellsAll (pieces ++ pieces') (text ++ text') := by
  induction h with
  | nil => exact h'
  | cons hpiece h ih =>
    rw [List.append_assoc]
    exact .cons hpiece ih

/-- No escape stands for a trailing byte, so trailing bytes stand for themselves. -/
theorem spellsBytes_trailing {trailing bytes text : List UInt8}
    (htrailing : ∀ byte ∈ trailing, IsTrailing byte) (h : SpellsBytes (trailing ++ bytes) text) :
    ∃ more, text = trailing ++ more ∧ SpellsBytes bytes more := by
  induction trailing generalizing text with
  | nil => exact ⟨text, rfl, h⟩
  | cons byte trailing ih =>
    obtain ⟨hbyte, htrailing⟩ := List.forall_mem_cons.mp htrailing
    generalize hall : byte :: trailing ++ bytes = all at h
    cases h with
    | nil => cases hall
    | plain _ _ _ h =>
      cases hall
      obtain ⟨more, rfl, hmore⟩ := ih htrailing h
      exact ⟨more, rfl, hmore⟩
    | escape hescape h =>
      -- An escape stands for whole characters, and none of them begins with a trailing byte.
      obtain ⟨-, char, rfl, -⟩ := pieces_of_spellsEscape hescape
      obtain ⟨first, others, hencode, hfirst, -⟩ := exists_utf8EncodeChar char
      rw [hencode] at hall
      exact absurd ((List.cons.inj hall).1 ▸ hbyte) hfirst

/-- What spells the bytes of some characters spells parts of a string for them. -/
theorem pieces_of_spellsBytes {chars : List Char} {text : List UInt8}
    (h : SpellsBytes (chars.flatMap String.utf8EncodeChar) text) :
    ∃ pieces, SpellsAll pieces text ∧ AllEncode pieces ∧ characters pieces = chars := by
  induction chars generalizing text with
  | nil =>
    generalize hall : List.flatMap String.utf8EncodeChar [] = all at h
    cases h with
    | nil => exact ⟨[], .nil, .nil, rfl⟩
    | plain => cases hall
    | escape hescape h =>
      obtain ⟨-, char, rfl, -⟩ := pieces_of_spellsEscape hescape
      obtain ⟨first, others, hencode, -⟩ := exists_utf8EncodeChar char
      rw [hencode] at hall
      cases hall
  | cons char chars ih =>
    rw [List.flatMap_cons] at h
    generalize hall : String.utf8EncodeChar char ++ _ = all at h
    obtain ⟨first, trailing, hencode, -, htrailing⟩ := exists_utf8EncodeChar char
    cases h with
    | nil =>
      rw [hencode] at hall
      cases hall
    | plain hquote hbackslash hcontrol h =>
      rw [hencode] at hall
      cases hall
      -- The first byte stands for itself, so the trailing bytes of the character do so too.
      obtain ⟨more, rfl, hmore⟩ := spellsBytes_trailing htrailing h
      obtain ⟨pieces, hspells, hpieces, rfl⟩ := ih hmore
      have hplain : ∀ byte ∈ String.utf8EncodeChar char, IsPlain byte := by
        rw [hencode]
        exact List.forall_mem_cons.mpr ⟨⟨hquote, hbackslash, hcontrol⟩,
          fun byte hbyte => isPlain_of_le (htrailing byte hbyte).1⟩
      obtain ⟨hquote, hbackslash, hcontrol⟩ := isPlain_utf8EncodeChar_iff.mp hplain
      have hall := SpellsAll.cons (.plain hquote hbackslash hcontrol) hspells
      rw [hencode] at hall
      exact ⟨_, hall, .plain char hpieces, rfl⟩
    | escape hescape h =>
      -- An escape stands for one character, so it is the first of those that are left.
      obtain ⟨pieces, char', rfl, hspells, hmore⟩ := pieces_of_spellsEscape hescape
      obtain ⟨rfl, rfl⟩ := utf8EncodeChar_append_inj hall
      obtain ⟨pieces', hspells', hpieces', rfl⟩ := ih h
      exact ⟨pieces ++ pieces', hspells.append hspells', hmore pieces' hpieces'⟩

/-- The strings that can be read are those whose escapes encode characters. -/
theorem spellsString_iff {value : String} {text : List UInt8} :
    Lexical.SpellsString value text ↔
      ∃ pieces, SpellsString pieces text ∧ AllEncode pieces ∧ Piece.value pieces = value := by
  constructor
  · rintro ⟨body, hbody, rfl⟩
    rw [← String.ofList_toList (s := value), toBytes_ofList] at hbody
    obtain ⟨pieces, hspells, hencode, hvalue⟩ := pieces_of_spellsBytes hbody
    exact ⟨pieces, ⟨body, hspells, rfl⟩, hencode, by rw [Piece.value, hvalue, String.ofList_toList]⟩
  · rintro ⟨pieces, ⟨body, hspells, rfl⟩, hencode, rfl⟩
    exact ⟨body, toBytes_ofList _ ▸ hspells.spellsBytes hencode, rfl⟩

end Piece

/-! ## Documents -/

namespace Json

variable {ν ν' α β : Type}

/-- Another value in the place of a value, spelt by the same text. -/
def Placed.replace (placed : Placed α) (value : β) : Placed β :=
  ⟨placed.before, value, placed.text, placed.after⟩

/-- Another member in the place of a member, spelt by the same texts. -/
def PlacedMember.replace (placed : PlacedMember ν α) (name : ν') (value : β) : PlacedMember ν' β :=
  ⟨placed.toPlaced.replace value, placed.beforeName, name, placed.nameText, placed.afterName⟩

/-- The space around a value does not depend on the value. -/
theorem Placed.IsSpaced.replace {placed : Placed α} (h : placed.IsSpaced) (value : β) :
    (placed.replace value).IsSpaced :=
  ⟨h.before, h.after⟩

/-- Nor does the space around a name, whichever way the name is spelt. -/
theorem PlacedMember.IsNamed.replace {SpellsName : ν → List UInt8 → Prop}
    {SpellsName' : ν' → List UInt8 → Prop} {placed : PlacedMember ν α}
    (h : placed.IsNamed SpellsName) {name : ν'} (hname : SpellsName' name placed.nameText)
    (value : β) : (placed.replace name value).IsNamed SpellsName' :=
  ⟨h.toIsSpaced.replace value, h.beforeName, hname, h.afterName⟩

end Json

namespace Source

open Json

/-- What spells a readable source spells its value. -/
theorem Spells.spells_value {levels : Nat} {source : Source} {text : List UInt8}
    (h : source.Spells levels text) (hreadable : source.IsReadable) :
    Json.Spells levels source.value text := by
  induction h with
  | null levels =>
    rw [value]
    exact .null levels
  | bool levels held =>
    rw [value]
    exact .bool levels held
  | number levels h =>
    cases hreadable with
    | number hvalue =>
      obtain ⟨number, hnumber⟩ := Option.ne_none_iff_exists'.mp hvalue
      rw [value, hnumber]
      exact .number levels h hnumber
  | string levels h =>
    cases hreadable with
    | string hencode =>
      rw [value]
      exact .string levels (Piece.spellsString_iff.mpr ⟨_, h, hencode, rfl⟩)
  | @array levels space items hspace hspaced h ih =>
    cases hreadable with
    | array hreadable =>
      rw [List.forall_mem_map] at hreadable
      have hspells := @Json.Spells.array levels space
        (items.map fun item => item.replace item.value.value) hspace
        (List.forall_mem_map.mpr fun item hitem => (hspaced item hitem).replace _)
        (List.forall_mem_map.mpr fun item hitem => ih item hitem (hreadable item hitem))
      rw [value]
      rw [List.map_map, List.map_map] at hspells
      rw [List.map_map]
      exact hspells
  | @object levels space members hspace hnamed h ih =>
    cases hreadable with
    | object hnames hreadable =>
      rw [List.forall_mem_map] at hnames hreadable
      have hnamed' : ∀ member ∈ members, (member.replace (Piece.value member.name)
          member.value.value).IsNamed SpellsString := fun member hmember =>
        (hnamed member hmember).replace (Piece.spellsString_iff.mpr
          ⟨_, (hnamed member hmember).nameText, hnames member hmember, rfl⟩) _
      have hspells := @Json.Spells.object levels space
        (members.map fun member => member.replace (Piece.value member.name) member.value.value)
        hspace (List.forall_mem_map.mpr hnamed')
        (List.forall_mem_map.mpr fun member hmember =>
          ih member hmember (hreadable member hmember))
      rw [value]
      rw [List.map_map, List.map_map] at hspells
      rw [List.map_map]
      exact hspells

/-- What spells a value spells a readable source of it. -/
theorem exists_of_spells {levels : Nat} {json : Json} {text : List UInt8}
    (h : Json.Spells levels json text) :
    ∃ source : Source, source.Spells levels text ∧ source.IsReadable ∧ source.value = json := by
  induction h with
  | null levels => exact ⟨.null, .null levels, .null, by rw [value]⟩
  | bool levels held => exact ⟨.bool held, .bool levels held, .bool held, by rw [value]⟩
  | @number levels numeral number text h hnumber =>
    refine ⟨.number numeral, .number levels h, .number ?_, by rw [value, hnumber]; rfl⟩
    rw [Numeral.IsReadable, hnumber]
    exact Option.some_ne_none number
  | string levels h =>
    obtain ⟨pieces, hspells, hencode, hvalue⟩ := Piece.spellsString_iff.mp h
    exact ⟨.string pieces, .string levels hspells, .string hencode, by rw [value, hvalue]⟩
  | @array levels space items hspace hspaced h ih =>
    choose! source hspells hreadable hvalue using ih
    -- The sources of all items were chosen at once, and take the places of their values.
    have hall := @Spells.array levels space (items.map fun item => item.replace (source item))
      hspace (List.forall_mem_map.mpr fun item hitem => (hspaced item hitem).replace _)
      (List.forall_mem_map.mpr hspells)
    rw [List.map_map, List.map_map] at hall
    refine ⟨.array (items.map source), hall,
      .array (List.forall_mem_map.mpr hreadable), ?_⟩
    rw [value, List.map_map]
    exact congrArg Json.array (List.map_congr_left hvalue)
  | @object levels space members hspace hnamed h ih =>
    choose! source hspells hreadable hvalue using ih
    choose! pieces hpieces hencode hname using fun member hmember =>
      Piece.spellsString_iff.mp (hnamed member hmember).nameText
    have hnamed' : ∀ member ∈ members,
        (member.replace (pieces member) (source member)).IsNamed Piece.SpellsString :=
      fun member hmember => (hnamed member hmember).replace (hpieces member hmember) _
    have hall := @Spells.object levels space
      (members.map fun member => member.replace (pieces member) (source member)) hspace
      (List.forall_mem_map.mpr hnamed') (List.forall_mem_map.mpr hspells)
    rw [List.map_map, List.map_map] at hall
    refine ⟨.object (members.map fun member => (pieces member, source member)), hall,
      .object (List.forall_mem_map.mpr hencode) (List.forall_mem_map.mpr hreadable), ?_⟩
    rw [value, List.map_map]
    refine congrArg Json.object (List.map_congr_left fun member hmember => ?_)
    exact Prod.ext (hname member hmember) (hvalue member hmember)

/-- The documents that spell a value are those of the readable sources with this value. -/
theorem document_iff {json : Json} {text : List UInt8} :
    Json.Document json text ↔
      ∃ source : Source, source.Document text ∧ source.IsReadable ∧ source.value = json := by
  constructor
  · rintro ⟨before, body, after, hbefore, hafter, hspells, rfl⟩
    obtain ⟨source, hsource, hreadable, hvalue⟩ := exists_of_spells hspells
    exact ⟨source, ⟨before, body, after, hbefore, hafter, hsource, rfl⟩, hreadable, hvalue⟩
  · rintro ⟨source, ⟨before, body, after, hbefore, hafter, hspells, rfl⟩, hreadable, rfl⟩
    exact ⟨before, body, after, hbefore, hafter, hspells.spells_value hreadable, rfl⟩

end Source

end JtagPlayer
