import JtagPlayer.Fault.Reader
import JtagPlayer.Instruction.Reader
import JtagPlayer.Proofs.Extents
import Mathlib.Control.Monad.Basic

/-!
# Documents that were cut off or run together

An instruction stream and a fault report each end with the bracket or brace that closes them.
What is left of an accepted text when a byte that is no space is cut off its end is therefore not
accepted, wherever the cut is, and neither is an accepted text with anything but space behind it:
`whole_of_read`. It follows from `Json.readDocument_append`, which says what becomes of an accepted
text when more is put behind it.
-/

namespace JtagPlayer

open Lexical

namespace Json

/-! ## Values that are skipped -/

section Skipping

variable {text rest tail : List UInt8}

/-- A numeral that is skipped goes on if more digits follow, as one that is read does. -/
theorem skipNumeral_append (h : skipNumeral text = .ok rest)
    (htail : rest = [] → EndsNumeral tail) : skipNumeral (text ++ tail) = .ok (rest ++ tail) := by
  unfold skipNumeral at h
  split at h
  · rename_i hnumeral
    cases h
    rw [skipNumeral, readNumeral_continues hnumeral htail]
  · cases h

/-- A skipped escape ends after its letter or its four digits, without a look at what they encode.
-/
theorem skipEscape_append (h : skipEscape text = .ok rest) (tail : List UInt8) :
    skipEscape (text ++ tail) = .ok (rest ++ tail) := by
  unfold skipEscape at h
  repeat' split at h
  all_goals cases h
  · rename_i hletter _ _ hunit
    rw [List.cons_append, skipEscape, if_pos hletter, readCodeUnit_closes hunit tail]
  · rename_i hletter _ _ hescape
    rw [List.cons_append, skipEscape, if_neg hletter, hescape]

/-- A skipped string ends at the first quote that is not escaped. -/
theorem skipString_append (h : skipString text = .ok rest) (tail : List UInt8) :
    skipString (text ++ tail) = .ok (rest ++ tail) := by
  fun_induction skipString text with
  | case1 | case3 | case5 => cases h
  | case2 =>
    cases h
    rw [List.cons_append, skipString, if_pos rfl]
  | case4 text after hescape hquote ih =>
    rw [List.cons_append, skipString, if_neg hquote, if_pos rfl]
    split
    · rename_i herror
      cases (skipEscape_append hescape tail).symm.trans herror
    · rename_i hok
      cases (skipEscape_append hescape tail).symm.trans hok
      exact ih h
  | case6 byte text hquote hbackslash hcontrol ih =>
    rw [List.cons_append, skipString, if_neg hquote, if_neg hbackslash, if_neg hcontrol]
    exact ih h

/-- Of the values that hold no others only numbers look at what follows when they are skipped. -/
theorem skipScalar_append (h : skipScalar text = .ok rest)
    (htail : rest = [] → EndsNumeral tail) : skipScalar (text ++ tail) = .ok (rest ++ tail) := by
  cases text with
  | nil => cases h
  | cons byte text =>
    unfold skipScalar at h ⊢
    rw [List.cons_append]
    dsimp only at h ⊢
    repeat' split at h
    all_goals simp only [if_true, if_false, *]
    · exact readWord_append h tail
    · exact readWord_append h tail
    · exact readWord_append h tail
    · exact skipString_append h tail
    · exact skipNumeral_append h htail
    · cases h

/-! What comes next decides how skipping goes on. -/

section Steps

variable {outer : List Enclosing} {byte : UInt8}

/-- Behind a value the enclosing one goes on or is closed. -/
theorem skipNested_comma {enclosing : Enclosing} (h : skipSpace text = byte :: rest) :
    skipNested .comma (enclosing :: outer) text =
      if byte = enclosing.closing then skipNested .comma outer rest
      else if byte = Ascii.comma then
        match enclosing with
        | .array => skipNested .value (.array :: outer) rest
        | .object => skipNested .name (.object :: outer) rest
      else .error .malformed := by
  rw [skipNested]
  split
  · rename_i hspace
    cases h.symm.trans hspace
  · rename_i hspace
    cases h.symm.trans hspace
    rfl

/-- Where a value is due its first byte tells which kind it is of. -/
theorem skipNested_value (h : skipSpace text = byte :: rest) :
    skipNested .value outer text =
      if byte = Ascii.openBracket then skipNested .item (.array :: outer) rest
      else if byte = Ascii.openBrace then skipNested .member (.object :: outer) rest
      else match skipScalar (byte :: rest) with
        | .error failure => .error failure
        | .ok rest => skipNested .comma outer rest := by
  rw [skipNested]
  split
  · rename_i hspace
    cases h.symm.trans hspace
  · rename_i hspace
    cases h.symm.trans hspace
    congr 2
    split <;> simp only [*]

/-- Behind an opening bracket an item is due unless the array is closed. -/
theorem skipNested_item (h : skipSpace text = byte :: rest) :
    skipNested .item outer text =
      if byte = Ascii.closeBracket then skipNested .comma outer.tail rest
      else skipNested .value outer text := by
  conv => lhs; rw [skipNested]
  split
  · rename_i hspace
    cases h.symm.trans hspace
  · rename_i hspace
    cases h.symm.trans hspace
    rfl

/-- Behind an opening brace a name is due unless the object is closed. -/
theorem skipNested_member (h : skipSpace text = byte :: rest) :
    skipNested .member outer text =
      if byte = Ascii.closeBrace then skipNested .comma outer.tail rest
      else skipNested .name outer text := by
  conv => lhs; rw [skipNested]
  split
  · rename_i hspace
    cases h.symm.trans hspace
  · rename_i hspace
    cases h.symm.trans hspace
    rfl

/-- Behind a name and its colon a value is due. -/
theorem skipNested_name {afterName afterColon : List UInt8}
    (h : skipSpace text = Ascii.quote :: rest) (hname : skipString rest = .ok afterName)
    (hcolon : readColon afterName = .ok afterColon) :
    skipNested .name outer text = skipNested .value outer afterColon := by
  conv => lhs; rw [skipNested]
  split
  · rename_i hspace
    cases h.symm.trans hspace
  rename_i hspace
  cases h.symm.trans hspace
  rw [if_pos rfl]
  split
  · rename_i herror
    cases hname.symm.trans herror
  rename_i hok
  cases hname.symm.trans hok
  split
  · rename_i herror
    cases hcolon.symm.trans herror
  rename_i hok
  cases hcolon.symm.trans hok
  rfl

end Steps

/-- Skipping to the end of what is open stops at the same place when more text follows. -/
theorem skipNested_append {expecting : Expecting} {outer : List Enclosing}
    (h : skipNested expecting outer text = .ok rest) (htail : rest = [] → EndsNumeral tail) :
    skipNested expecting outer (text ++ tail) = .ok (rest ++ tail) := by
  -- Each step looks at a byte that is there, so the longer text makes the same step. Only a number
  -- at the end of the text looks at what follows.
  fun_induction skipNested expecting outer text with
  | case1 text =>
    cases h
    rw [skipNested]
  | case2 | case6 | case7 | case10 | case12 | case15 | case18 | case19 | case20 | case22 => cases h
  | case3 text enclosing outer after hspace ih =>
    rw [skipNested_comma (skipSpace_append_of_eq_cons hspace tail), if_pos rfl]
    exact ih h
  | case4 text outer after hspace hopen ih =>
    rw [skipNested_comma (skipSpace_append_of_eq_cons hspace tail), if_neg hopen, if_pos rfl]
    exact ih h
  | case5 text outer after hspace hopen ih =>
    rw [skipNested_comma (skipSpace_append_of_eq_cons hspace tail), if_neg hopen, if_pos rfl]
    exact ih h
  | case8 outer text after hspace ih =>
    rw [skipNested_value (skipSpace_append_of_eq_cons hspace tail), if_pos rfl]
    exact ih h
  | case9 outer text after hspace _ ih =>
    rw [skipNested_value (skipSpace_append_of_eq_cons hspace tail), if_neg (by decide), if_pos rfl]
    exact ih h
  | case11 outer text byte after hspace hbracket hbrace afterScalar hscalar ih =>
    have hnil : afterScalar = [] → EndsNumeral tail := fun hnil =>
      htail (eq_nil_of_length_le (length_le_of_skipNested h).1 hnil)
    rw [skipNested_value (skipSpace_append_of_eq_cons hspace tail), if_neg hbracket,
      if_neg hbrace, ← List.cons_append, skipScalar_append hscalar hnil]
    exact ih h
  | case13 outer text after hspace ih =>
    rw [skipNested_item (skipSpace_append_of_eq_cons hspace tail), if_pos rfl]
    exact ih h
  | case14 outer text byte after hspace hclose ih =>
    rw [skipNested_item (skipSpace_append_of_eq_cons hspace tail), if_neg hclose]
    exact ih h
  | case16 outer text after hspace ih =>
    rw [skipNested_member (skipSpace_append_of_eq_cons hspace tail), if_pos rfl]
    exact ih h
  | case17 outer text byte after hspace hclose ih =>
    rw [skipNested_member (skipSpace_append_of_eq_cons hspace tail), if_neg hclose]
    exact ih h
  | case21 outer text after afterName hname afterColon hcolon hspace ih =>
    rw [skipNested_name (skipSpace_append_of_eq_cons hspace tail)
      (skipString_append hname tail) (readColon_append hcolon tail)]
    exact ih h

/-- Skipping a value goes on as reading one does. -/
theorem skipper_continues : Continues skipper.read := by
  intro text value rest h tail htail
  dsimp only [skipper] at h ⊢
  split at h
  · rename_i hskip
    cases h
    rw [skipNested_append hskip htail]
  · cases h

end Skipping

/-! ## Values by position -/

section Records

variable {α ι σ : Type} {item : Reader ι}

/-- What stands between two items of a tuple is found whatever follows. -/
theorem readSeparator_append {first : Bool} {text rest : List UInt8}
    (h : readSeparator first text = .ok rest) (tail : List UInt8) :
    readSeparator first (text ++ tail) = .ok (rest ++ tail) := by
  unfold readSeparator at h ⊢
  split at h
  · cases h
  rename_i hspace
  rw [skipSpace_append_of_eq_cons hspace tail]
  dsimp only
  split at h
  · cases h
  rename_i hclose
  rw [if_neg hclose]
  split at h
  · rename_i hfirst
    cases h
    exact if_pos hfirst
  rename_i hfirst
  rw [if_neg hfirst]
  split at h
  · rename_i hcomma
    rw [if_pos hcomma]
    split at h
    · cases h
    rename_i hafter
    rw [skipSpace_append_of_eq_cons hafter tail]
    dsimp only
    split at h
    · cases h
    rename_i hitem
    cases h
    exact if_neg hitem
  · cases h

theorem readEnd_append {text rest : List UInt8} (h : readEnd text = .ok rest)
    (tail : List UInt8) : readEnd (text ++ tail) = .ok (rest ++ tail) := by
  unfold readEnd at h ⊢
  split at h
  · cases h
  rename_i hspace
  rw [skipSpace_append_of_eq_cons hspace tail]
  split at h
  · rename_i hclose
    cases h
    exact if_pos hclose
  · cases h

/-- So many items in a row continue if one item does. -/
theorem readExactly_continues (hitem : Continues item.read) (count : Nat) (first : Bool) :
    Continues (readExactly item count first) := by
  intro text values rest h tail htail
  induction count generalizing first text values rest with
  | zero =>
    cases h
    rfl
  | succ count ih =>
    unfold readExactly at h ⊢
    split at h
    · cases h
    rename_i hseparator
    split at h
    · cases h
    rename_i hvalue
    split at h
    · cases h
    rename_i hvalues
    cases h
    rw [readSeparator_append hseparator tail]
    dsimp only
    rw [hitem hvalue fun hnil =>
      htail (eq_nil_of_length_le (length_le_of_readExactly hvalues) hnil)]
    dsimp only
    rw [ih _ hvalues htail]

/-- A tuple ends with its bracket. -/
theorem readTuple_closes (hitem : Continues item.read) (count : Nat) :
    Closes (readTuple item count) := by
  intro text values rest h tail
  unfold readTuple at h ⊢
  split at h
  · cases h
  rename_i hvalues
  split at h
  · cases h
  rename_i hend
  cases h
  rw [readExactly_continues hitem count true hvalues]
  · dsimp only
    rw [readEnd_append hend tail]
  · rintro rfl
    cases hend

/-- A record ends with its bracket or its brace, whichever form it is written in. -/
theorem recordReader_closes {count : Nat} {ofItems : List ι → Option α}
    {member : σ → String → Except ReadFailure (Reader σ)} {start : σ} {ofMembers : σ → Option α}
    (hitem : Continues item.read)
    (hmember : ∀ state name reader, member state name = .ok reader → Continues reader.read) :
    Closes (recordReader item count ofItems member start ofMembers).read := by
  intro text value rest h tail
  dsimp only [recordReader] at h ⊢
  split at h
  · cases h
  rename_i hspace
  rw [skipSpace_append_of_eq_cons hspace tail]
  dsimp only
  split at h
  · rename_i hopen
    rw [if_pos hopen]
    split at h
    · cases h
    rename_i hitems
    split at h
    · rename_i hvalue
      cases h
      rw [readTuple_closes hitem count hitems tail]
      simp only [hvalue]
    · cases h
  rename_i hopen
  rw [if_neg hopen]
  split at h
  · rename_i hopen
    rw [if_pos hopen]
    split at h
    · cases h
    rename_i hmembers
    split at h
    · rename_i hvalue
      cases h
      rw [readObject_closes hmember start hmembers tail]
      simp only [hvalue]
    · cases h
  · cases h

end Records

/-! ## Documents -/

/-- What becomes of an accepted text when more is put behind it: it stays what it is if only space
was added, and is malformed otherwise. -/
theorem readDocument_append {α : Type} {reader : Reader α} (h : Closes reader.read)
    {text : List UInt8} {value : α} (hread : readDocument reader text = .ok value)
    (tail : List UInt8) :
    readDocument reader (text ++ tail) =
      if skipSpace tail = [] then .ok value else .error .malformed := by
  unfold readDocument at hread ⊢
  split at hread
  · cases hread
  rename_i rest hvalue
  split at hread
  · rename_i hspace
    cases hread
    rw [h hvalue tail]
    dsimp only
    rw [skipSpace_append (skipSpace_eq_nil_iff.mp hspace)]
  · cases hread

/-- A text of which no part is read that lacks more than space at its end, and with nothing but
space behind it. -/
structure Whole {α : Type} (read : List UInt8 → Except ReadFailure α) (text : List UInt8) :
    Prop where
  cut : ∀ front back, text = front ++ back → (∃ byte ∈ back, isSpace byte = false) →
    ∃ failure, read front = .error failure
  extended : ∀ tail, (∃ byte ∈ tail, isSpace byte = false) →
    read (text ++ tail) = .error .malformed

/-- What is read up to a closing byte is whole. -/
theorem whole_of_readDocument {α : Type} {reader : Reader α} (h : Closes reader.read)
    {text : List UInt8} {value : α} (hread : readDocument reader text = .ok value) :
    Whole (readDocument reader) text := by
  have hmore : ∀ {tail}, (∃ byte ∈ tail, isSpace byte = false) → skipSpace tail ≠ [] := by
    rintro tail ⟨byte, hmem, hbyte⟩ hnil
    cases hbyte.symm.trans (skipSpace_eq_nil_iff.mp hnil byte hmem)
  constructor
  · rintro front back rfl hback
    cases hfront : readDocument reader front with
    | error failure => exact ⟨failure, rfl⟩
    | ok other =>
      rw [readDocument_append h hfront back, if_neg (hmore hback)] at hread
      cases hread
  · intro tail htail
    rw [readDocument_append h hread tail, if_neg (hmore htail)]

end Json

open Json

/-! ## Instruction streams -/

namespace Instruction

variable {item : Reader Json}

/-- Each member of an instruction that is not yet complete is read by a reader that continues. -/
theorem draftReader_continues (h : Continues item.read) (draft : Draft) (name : String)
    (reader : Reader Draft) (hreader : draftReader item draft name = .ok reader) :
    Continues reader.read := by
  unfold draftReader at hreader
  repeat' split at hreader
  all_goals cases hreader
  · exact Reader.map_continues stringReader_closes.continues _
  · exact Reader.map_continues h _

/-- An instruction that is written as an array ends with its bracket. -/
theorem readItemForm_closes (h : Continues item.read) : Closes (readItemForm item) := by
  intro text instruction rest hread tail
  unfold readItemForm at hread ⊢
  split at hread
  · cases hread
  rename_i hspace
  rw [skipSpace_append_of_eq_cons hspace tail]
  dsimp only
  split at hread
  · cases hread
  rename_i hclose
  rw [if_neg hclose]
  split at hread
  · cases hread
  rename_i hkind
  rw [stringReader_closes hkind tail]
  dsimp only
  split at hread
  · cases hread
  rename_i hitems
  rw [readMore_closes h hitems tail]
  dsimp only
  split at hread
  · cases hread
  cases hread
  rfl

/-- An instruction that is written as an object ends with its brace. -/
theorem readMemberForm_closes (h : Continues item.read) : Closes (readMemberForm item) := by
  intro text instruction rest hread tail
  unfold readMemberForm at hread ⊢
  split at hread
  · cases hread
  rename_i hmembers
  rw [readObject_closes (draftReader_continues h) {} hmembers tail]
  dsimp only
  split at hread
  · cases hread
  split at hread
  · cases hread
  cases hread
  rfl

/-- The reader of instructions closes, in both forms. -/
theorem reader_closes (h : Continues item.read) : Closes (reader item).read := by
  intro text instruction rest hread tail
  dsimp only [reader] at hread ⊢
  split at hread
  · cases hread
  rename_i hspace
  rw [skipSpace_append_of_eq_cons hspace tail]
  dsimp only
  split at hread
  · rename_i hopen
    exact (if_pos hopen).trans (readItemForm_closes h hread tail)
  rename_i hopen
  rw [if_neg hopen]
  split at hread
  · rename_i hopen
    exact (if_pos hopen).trans (readMemberForm_closes h hread tail)
  · cases hread

end Instruction

/-- An instruction stream ends with its closing bracket. -/
theorem Program.reader_closes :
    Closes (arrayReader (Instruction.reader (valueReader (maxLevels - 2)))).read :=
  arrayReader_closes (Instruction.reader_closes (valueReader_continues _)).continues

/-! ## Fault reports -/

namespace Fault.Draft

/-- Each member of a fault is read by a reader that continues. -/
theorem memberReader_continues (draft : Draft) (name : String) (reader : Reader Draft)
    (h : draft.memberReader name = .ok reader) : Continues reader.read := by
  have hfill : ∀ {place : Option String} {put : String → Draft},
      fill place put = .ok reader → Continues reader.read := by
    intro place put hfill
    cases place with
    | some _ => cases hfill
    | none =>
      cases hfill
      exact Reader.map_continues stringReader_closes.continues _
  unfold memberReader at h
  split at h
  all_goals first
    | exact hfill h
    | cases h
  exact Reader.map_continues skipper_continues _

end Fault.Draft

/-- The reader of faults closes. -/
theorem Fault.reader_closes : Closes Fault.reader.read :=
  recordReader_closes stringReader_closes.continues Draft.memberReader_continues

namespace FaultReport

/-- Each member of a report is read by a reader that continues. -/
theorem memberReader_continues (faults : Option (List Fault)) (name : String)
    (reader : Reader (Option (List Fault))) (h : memberReader faults name = .ok reader) :
    Continues reader.read := by
  unfold memberReader at h
  repeat' split at h
  all_goals cases h
  · exact Reader.map_continues (arrayReader_closes Fault.reader_closes.continues).continues _
  · exact Reader.map_continues skipper_continues _

/-- A fault report ends with the bracket or brace that closes it. -/
theorem reader_closes : Closes FaultReport.reader.read :=
  recordReader_closes (arrayReader_closes Fault.reader_closes.continues).continues
    memberReader_continues

end FaultReport

/-- Instruction streams and fault reports that are read are whole: nothing is read from what is left
of them when more than space is cut off, or from them with more than space behind them. -/
theorem whole_of_read :
    (∀ text program, Program.read text = .ok program → Whole Program.read text) ∧
      ∀ text report, FaultReport.read text = .ok report → Whole FaultReport.read text :=
  ⟨fun _ _ => whole_of_readDocument Program.reader_closes,
    fun _ _ => whole_of_readDocument FaultReport.reader_closes⟩

/-- An instruction stream with a character of several bytes, an escape and numbers that are ignored,
and a fault report with a fault that is given by position. -/
theorem whole_of_read_mixed :
    Whole Program.read
        (Text.toBytes "[\x7b\"kind\": \"ü\\u00fc\", \"n\": [1e5, -0]\x7d]\n") ∧
      Whole FaultReport.read
        (Text.toBytes " \x7b\"faults\": [[\"]\", \"\", \"\", \"\", \"\\\\\"]]\x7d ") :=
  ⟨whole_of_read.1 _ [.unknown] (by decide +kernel),
    whole_of_read.2 _ ⟨[⟨"]", "", "", "", "\\"⟩]⟩ (by decide +kernel)⟩

end JtagPlayer
