import JtagPlayer.Json.Skip
import JtagPlayer.Proofs.Documents

/-!
# Where readers stop

A reader that stops at a closing byte takes the same from a text when more text follows: it
`Closes`. This holds of strings, arrays and objects, and of nothing else, for a number may go on. A
reader of any value therefore `Continues` only, which says the same of texts that leave something
over, and of those that leave nothing when what follows ends a numeral.

The two statements support each other: the items of an array need only continue, since a comma or
bracket is left behind each of them, and an array of such items closes. `Json.valueReader_continues`
and `Json.skipper_continues` are the results for values that are read and that are skipped.
-/

namespace JtagPlayer

namespace Lexical

/-- What is read from a text is read from it whatever follows. -/
def Closes {α : Type} (read : List UInt8 → Reading α) : Prop :=
  ∀ ⦃text value rest⦄, read text = .ok (value, rest) →
    ∀ tail, read (text ++ tail) = .ok (value, rest ++ tail)

/-- A reader that closes needs no proviso on what follows. -/
theorem Closes.continues {α : Type} {read : List UInt8 → Reading α} (h : Closes read) :
    Continues read :=
  fun _ _ _ hread tail _ => h hread tail

/-! ## Space, words and strings -/

/-- Nothing is left of a text behind its space just if all of it is space. -/
theorem skipSpace_eq_nil_iff {text : List UInt8} :
    skipSpace text = [] ↔ ∀ byte ∈ text, isSpace byte = true := by
  induction text with
  | nil => simp [skipSpace]
  | cons byte text ih =>
    rw [List.forall_mem_cons, ← ih, skipSpace, skipSpace, List.dropWhile_cons]
    cases isSpace byte <;> simp

/-- If something is left behind the space, then the space ends there whatever follows. -/
theorem skipSpace_append_of_eq_cons {text rest : List UInt8} {byte : UInt8}
    (h : skipSpace text = byte :: rest) (tail : List UInt8) :
    skipSpace (text ++ tail) = byte :: (rest ++ tail) := by
  induction text with
  | nil => cases h
  | cons first text ih =>
    rw [List.cons_append, skipSpace, List.dropWhile_cons]
    rw [skipSpace, List.dropWhile_cons] at h
    split at h
    · exact (if_pos ‹_›).trans (ih h)
    · cases h
      exact if_neg ‹_›

/-- A word ends with its last letter, whatever follows. -/
theorem readWord_append {word text rest : List UInt8} (h : readWord word text = .ok rest)
    (tail : List UInt8) : readWord word (text ++ tail) = .ok (rest ++ tail) := by
  fun_induction readWord word text with
  | case1 text =>
    cases h
    rw [readWord]
  | case2 | case4 => cases h
  | case3 word byte text ih =>
    rw [List.cons_append, readWord, if_pos rfl]
    exact ih h

/-- A code unit ends after four digits. -/
theorem readCodeUnit_closes : Closes readCodeUnit := by
  intro text unit rest h tail
  unfold readCodeUnit at h
  split at h
  · split at h
    · cases h
      simp only [List.cons_append, readCodeUnit, *]
    · cases h
  · cases h

/-- The second half of a pair ends with its code unit. -/
theorem readTrailingUnit_closes : Closes readTrailingUnit := by
  intro text unit rest h tail
  unfold readTrailingUnit at h
  repeat' split at h
  all_goals cases h
  rename_i hbackslash _ _ _ hletter _ hrange hunit
  simp only [List.cons_append, readTrailingUnit, if_pos hbackslash, if_pos hletter,
    readCodeUnit_closes hunit tail, if_pos hrange]

/-- Whether a second half is needed is told by the first, so a code point ends with the half that
completes it. -/
theorem readCodePoint_closes : Closes readCodePoint := by
  intro text bytes rest h tail
  unfold readCodePoint at h
  split at h
  · cases h
  rename_i unit afterUnit hunit
  rw [readCodePoint, readCodeUnit_closes hunit tail]
  dsimp only
  by_cases hlow : 0xdc00 ≤ unit ∧ unit ≤ 0xdfff
  · rw [if_pos hlow] at h
    cases h
  rw [if_neg hlow] at h ⊢
  by_cases hhigh : 0xd800 ≤ unit ∧ unit ≤ 0xdbff
  · rw [if_pos hhigh] at h ⊢
    split at h
    · cases h
    rename_i htrailing
    rw [readTrailingUnit_closes htrailing tail]
    obtain ⟨rfl, rfl⟩ := Prod.mk.inj (Except.ok.inj h)
    rfl
  · rw [if_neg hhigh] at h ⊢
    obtain ⟨rfl, rfl⟩ := Prod.mk.inj (Except.ok.inj h)
    rfl

/-- An escape ends with its letter or its code point. -/
theorem readEscape_closes : Closes readEscape := by
  intro text bytes rest h tail
  cases text with
  | nil => cases h
  | cons letter text =>
    rw [readEscape] at h
    rw [List.cons_append, readEscape]
    by_cases hunicode : letter = Ascii.letterU
    · rw [if_pos hunicode] at h ⊢
      exact readCodePoint_closes h tail
    · rw [if_neg hunicode] at h ⊢
      split at h
      · cases h
        rfl
      · cases h

/-- The body of a string ends at the first quote that is not escaped. -/
theorem readStringBytes_closes : Closes readStringBytes := by
  intro text bytes rest h tail
  fun_induction readStringBytes text generalizing bytes rest with
  | case1 | case3 | case4 | case6 | case7 => cases h
  | case2 =>
    cases h
    exact readStringBytes_quote _
  | case5 text _ afterEscape hescape more afterMore hmore _ ih =>
    cases h
    rw [List.cons_append, readStringBytes_escape (readEscape_closes hescape tail), ih hmore]
    rfl
  | case8 byte text hquote hbackslash hcontrol more afterMore hmore ih =>
    cases h
    rw [List.cons_append, readStringBytes_plain hquote hbackslash hcontrol, ih hmore]
    rfl

/-- A string ends with its quote, and its bytes are all there is to decide if it is valid. -/
theorem readString_closes : Closes readString := by
  intro text value rest h tail
  unfold readString at h
  split at h
  · cases h
  rename_i hbytes
  split at h
  · rename_i hvalue
    cases h
    rw [readString, readStringBytes_closes hbytes tail]
    simp only [hvalue]
  · cases h

end Lexical

open Lexical

/-- What is made of a value does not change where its text ends. -/
theorem Reader.map_continues {α β : Type} {reader : Reader α} (h : Continues reader.read)
    (f : α → β) : Continues (reader.map f).read := by
  intro text value rest hread tail htail
  dsimp only [Reader.map] at hread ⊢
  split at hread
  · rename_i hvalue
    cases hread
    rw [h hvalue htail]
  · cases hread

namespace Json

/-! ## Values that hold no others -/

/-- Of the values that hold no others only numbers look at what follows. -/
theorem readScalar_continues : Continues readScalar := by
  intro text value rest h tail htail
  unfold readScalar at h
  split at h
  · cases h
  · repeat' split at h
    all_goals cases h
    · simp only [List.cons_append, readScalar, if_true, readWord_append ‹_› tail, *]
    · simp only [List.cons_append, readScalar, if_true, readWord_append ‹_› tail, *]
      rfl
    · simp only [List.cons_append, readScalar, if_true, readWord_append ‹_› tail, *]
      rfl
    · simp only [List.cons_append, readScalar, if_true, readString_closes ‹_› tail, *]
      rfl
    · have hnumber := readNumber_continues ‹_› htail
      rw [List.cons_append] at hnumber ⊢
      simp only [readScalar, if_true, if_false, *]

/-- The reader of strings closes: the space that it skips stands in front. -/
theorem stringReader_closes : Closes stringReader.read := by
  intro text value rest h tail
  dsimp only [stringReader] at h ⊢
  split at h
  · rename_i hspace
    rw [skipSpace_append_of_eq_cons hspace tail]
    split at h
    · rename_i hquote
      exact (if_pos hquote).trans (readString_closes h tail)
    · cases h
  · cases h

/-! ## Arrays -/

section Arrays

variable {α : Type} {item : Reader α}

/-- Behind an item that others follow something is left. -/
theorem ne_nil_of_readMore {text rest : List UInt8} {items : List α}
    (h : readMore item text = .ok (items, rest)) : text ≠ [] := by
  rintro rfl
  have hlt := length_lt_of_readMore h
  exact absurd hlt (Nat.not_lt_zero _)

/-- The rest of an array ends with its bracket. An item in it is followed by a comma or by the
bracket, so it is enough that items continue. -/
theorem readMore_closes (h : Continues item.read) : Closes (readMore item) := by
  intro text items rest hread tail
  fun_induction readMore item text generalizing items rest with
  | case1 | case3 | case4 | case6 => cases hread
  | case2 text after hspace =>
    cases hread
    exact readMore_close (skipSpace_append_of_eq_cons hspace tail)
  | case5 text after first afterFirst hitem more afterMore hmore hspace _ ih =>
    cases hread
    have hnil : afterFirst = [] → EndsNumeral tail := fun hnil =>
      absurd hnil (ne_nil_of_readMore hmore)
    exact readMore_comma (skipSpace_append_of_eq_cons hspace tail) (h hitem hnil) (ih hmore)

/-- The items of an array end with its bracket, also if there are none. -/
theorem readItems_closes (h : Continues item.read) : Closes (readItems item) := by
  intro text items rest hread tail
  unfold readItems at hread ⊢
  split at hread
  · cases hread
  rename_i hspace
  rw [skipSpace_append_of_eq_cons hspace tail]
  dsimp only
  split at hread
  · rename_i hclose
    cases hread
    exact if_pos hclose
  rename_i hclose
  split at hread
  · cases hread
  rename_i hitem
  split at hread
  · cases hread
  rename_i hmore
  cases hread
  rw [if_neg hclose, h hitem fun hnil => absurd hnil (ne_nil_of_readMore hmore)]
  dsimp only
  rw [readMore_closes h hmore tail]

/-- An array closes if its items continue. -/
theorem arrayReader_closes (h : Continues item.read) : Closes (arrayReader item).read := by
  intro text items rest hread tail
  dsimp only [arrayReader] at hread ⊢
  split at hread
  · rename_i hspace
    rw [skipSpace_append_of_eq_cons hspace tail]
    split at hread
    · rename_i hopen
      exact (if_pos hopen).trans (readItems_closes h hread tail)
    · cases hread
  · cases hread

end Arrays

/-! ## Objects -/

/-- The name of a member ends with its quote. -/
theorem readName_closes : Closes readName := by
  intro text name rest h tail
  unfold readName at h ⊢
  split at h
  · cases h
  rename_i hspace
  rw [skipSpace_append_of_eq_cons hspace tail]
  split at h
  · rename_i hquote
    exact (if_pos hquote).trans (readString_closes h tail)
  · cases h

/-- The colon behind a name is found whatever follows it. -/
theorem readColon_append {text rest : List UInt8} (h : readColon text = .ok rest)
    (tail : List UInt8) : readColon (text ++ tail) = .ok (rest ++ tail) := by
  unfold readColon at h ⊢
  split at h
  · cases h
  rename_i hspace
  rw [skipSpace_append_of_eq_cons hspace tail]
  split at h
  · rename_i hcolon
    cases h
    exact if_pos hcolon
  · cases h

section Objects

variable {σ : Type} {value : σ → String → Except ReadFailure (Reader σ)}

/-- The members of an object end with its brace. The value of a member is followed by a comma or by
the brace, so it is enough that the readers of values continue. -/
theorem readMembers_closes
    (h : ∀ state name reader, value state name = .ok reader → Continues reader.read) (state : σ) :
    Closes (readMembers value state) := by
  intro text result rest hread tail
  fun_induction readMembers value state text with
  | case1 | case2 | case3 | case4 | case5 | case8 => cases hread
  | case6 state text name afterName hname reader hreader afterColon hcolon state' afterValue hvalue
      after hspace =>
    cases hread
    have hnil : afterValue = [] → EndsNumeral tail := by
      rintro rfl
      cases hspace
    rw [readMembers_step (readName_closes hname tail) hreader (readColon_append hcolon tail)
      (h _ _ _ hreader hvalue hnil) (skipSpace_append_of_eq_cons hspace tail), if_pos rfl]
  | case7 state text name afterName hname reader hreader afterColon hcolon state' afterValue hvalue
      after hspace _ ih =>
    have hnil : afterValue = [] → EndsNumeral tail := by
      rintro rfl
      cases hspace
    rw [readMembers_step (readName_closes hname tail) hreader (readColon_append hcolon tail)
      (h _ _ _ hreader hvalue hnil) (skipSpace_append_of_eq_cons hspace tail),
      if_neg (by decide), if_pos rfl]
    exact ih hread

/-- An object closes if the values in it continue, whichever reader each name selects. -/
theorem readObject_closes
    (h : ∀ state name reader, value state name = .ok reader → Continues reader.read) (state : σ) :
    Closes (readObject value state) := by
  intro text result rest hread tail
  unfold readObject at hread ⊢
  split at hread
  · cases hread
  rename_i hspace
  rw [skipSpace_append_of_eq_cons hspace tail]
  dsimp only
  split at hread
  · rename_i hclose
    cases hread
    exact if_pos hclose
  · rename_i hclose
    exact (if_neg hclose).trans (readMembers_closes h state hread tail)

end Objects

/-! ## Values -/

/-- A value continues if the values in it do: arrays and objects close, and of the others only
numbers may go on. -/
theorem nestedReader_continues {item : Option (Reader Json)}
    (h : ∀ reader, item = some reader → Continues reader.read) :
    Continues (nestedReader item).read := by
  intro text value rest hread tail htail
  -- Arrays and objects close. Only a value that holds no others makes use of `htail`.
  dsimp only [nestedReader] at hread ⊢
  cases hspace : skipSpace text with
  | nil =>
    rw [hspace] at hread
    cases hread
  | cons byte after =>
    rw [hspace] at hread
    rw [skipSpace_append_of_eq_cons hspace tail]
    unfold readValue at hread ⊢
    dsimp only at hread ⊢
    split
    · rename_i hopen
      rw [if_pos hopen] at hread
      split at hread
      · cases hread
      rename_i reader
      split at hread
      · rename_i hitems
        cases hread
        rw [readItems_closes (h reader rfl) hitems tail]
      · cases hread
    rename_i hopen
    rw [if_neg hopen] at hread
    split
    · rename_i hopen
      rw [if_pos hopen] at hread
      split at hread
      · cases hread
      rename_i reader
      split at hread
      · rename_i hmembers
        cases hread
        have hmember : ∀ members name reader',
            memberReader reader members name = .ok reader' → Continues reader'.read := by
          rintro members name reader' ⟨⟩
          exact Reader.map_continues (h reader rfl) _
        rw [readObject_closes hmember [] hmembers tail]
      · cases hread
    · rename_i hopen
      rw [if_neg hopen] at hread
      exact readScalar_continues hread htail

/-- The reader of any value continues, to whatever depth it reads. -/
theorem valueReader_continues (levels : Nat) : Continues (valueReader levels).read := by
  induction levels with
  | zero => exact nestedReader_continues fun reader hreader => by cases hreader
  | succ levels ih =>
    refine nestedReader_continues fun reader hreader => ?_
    cases hreader
    exact ih

end Json

end JtagPlayer
