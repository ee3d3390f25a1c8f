import JtagPlayer.Json.Reader

/-!
# Skipping JSON values

`Json.skipper` takes a value that nobody asked for without looking into it. It follows the grammar
but judges less than a reader of values does: numbers may be out of range, strings may hold bytes
that encode no text, and nesting has no limit. A numeral or word that breaks off is malformed here,
even at the end of a text, unless it is a word.
-/

namespace JtagPlayer

namespace Json

open Lexical

/-- The text after a numeral. -/
def skipNumeral (text : List UInt8) : Except ReadFailure (List UInt8) :=
  match readNumeral text with
  | .ok (_, rest) => .ok rest
  | .error _ => .error .malformed

theorem length_lt_of_skipNumeral {text rest : List UInt8} (h : skipNumeral text = .ok rest) :
    rest.length < text.length := by
  unfold skipNumeral at h
  split at h
  · next hnumeral =>
    cases h
    exact length_lt_of_readNumeral hnumeral
  · cases h

/-- The text after what follows a backslash. Any four hexadecimal digits do. -/
def skipEscape (text : List UInt8) : Except ReadFailure (List UInt8) :=
  match text with
  | [] => .error .ended
  | letter :: rest =>
    if letter = Ascii.letterU then
      match readCodeUnit rest with
      | .ok (_, rest) => .ok rest
      | .error failure => .error failure
    else match shortEscape? letter with
      | some _ => .ok rest
      | none => .error .malformed

theorem length_lt_of_skipEscape {text rest : List UInt8} (h : skipEscape text = .ok rest) :
    rest.length < text.length := by
  unfold skipEscape at h
  split at h
  · cases h
  · split at h
    · split at h
      · next hunit =>
        cases h
        exact Nat.lt_succ_of_lt (length_lt_of_readCodeUnit hunit)
      · cases h
    · split at h
      · cases h
        simp
      · cases h

/-- The text after the closing quote of a string. -/
def skipString (text : List UInt8) : Except ReadFailure (List UInt8) :=
  match text with
  | [] => .error .ended
  | byte :: rest =>
    if byte = Ascii.quote then .ok rest
    else if byte = Ascii.backslash then
      match _hescape : skipEscape rest with
      | .error failure => .error failure
      | .ok rest => skipString rest
    else if byte < 0x20 then .error .malformed
    else skipString rest
termination_by text.length
decreasing_by
  · have := length_lt_of_skipEscape _hescape
    simp only [List.length_cons]
    omega
  · simp

theorem length_lt_of_skipString {text rest : List UInt8} (h : skipString text = .ok rest) :
    rest.length < text.length := by
  fun_induction skipString text with
  | case1 => cases h
  | case2 => cases h; simp
  | case3 => cases h
  | case4 tail after hescape _ ih =>
    have := length_lt_of_skipEscape hescape
    have := ih h
    simp only [List.length_cons]
    omega
  | case5 => cases h
  | case6 byte tail _ _ _ ih =>
    have := ih h
    simp only [List.length_cons]
    omega

/-- The text after a value that holds no others and starts at the first byte. -/
def skipScalar (text : List UInt8) : Except ReadFailure (List UInt8) :=
  match text with
  | [] => .error .ended
  | byte :: rest =>
    if byte = Ascii.letterN then readWord (Text.toBytes "ull") rest
    else if byte = Ascii.letterT then readWord (Text.toBytes "rue") rest
    else if byte = Ascii.letterF then readWord (Text.toBytes "alse") rest
    else if byte = Ascii.quote then skipString rest
    else if byte = Ascii.minus ∨ Ascii.isDigit byte then skipNumeral text
    else .error .malformed

theorem length_lt_of_skipScalar {text rest : List UInt8} (h : skipScalar text = .ok rest) :
    rest.length < text.length := by
  unfold skipScalar at h
  split at h
  · cases h
  · split at h
    · exact Nat.lt_succ_of_le (length_le_of_readWord h)
    · split at h
      · exact Nat.lt_succ_of_le (length_le_of_readWord h)
      · split at h
        · exact Nat.lt_succ_of_le (length_le_of_readWord h)
        · split at h
          · exact Nat.lt_succ_of_lt (length_lt_of_skipString h)
          · split at h
            · exact length_lt_of_skipNumeral h
            · cases h

/-- The arrays and objects that are open around a place in a document, innermost first. -/
inductive Enclosing where
  | array
  | object
  deriving DecidableEq

/-- The byte that closes an array or object. -/
def Enclosing.closing : Enclosing → UInt8
  | array => Ascii.closeBracket
  | object => Ascii.closeBrace

/-- What may come next at a place in a document. -/
inductive Expecting where
  /-- A value. -/
  | value
  /-- A value, or the end of the array that has just been opened. -/
  | item
  /-- The name of a member, or the end of the object that has just been opened. -/
  | member
  /-- The name of a member. -/
  | name
  /-- A comma, or the end of an array or object. -/
  | comma

/-- Skips to the end of the outermost open array or object. -/
def skipNested (expecting : Expecting) (outer : List Enclosing) (text : List UInt8) :
    Except ReadFailure (List UInt8) :=
  match expecting with
  | .comma =>
    match outer with
    | [] => .ok text
    | enclosing :: outer =>
      match _hspace : skipSpace text with
      | [] => .error .ended
      | byte :: rest =>
        if byte = enclosing.closing then skipNested .comma outer rest
        else if byte = Ascii.comma then
          match enclosing with
          | .array => skipNested .value (.array :: outer) rest
          | .object => skipNested .name (.object :: outer) rest
        else .error .malformed
  | .value =>
    match _hspace : skipSpace text with
    | [] => .error .ended
    | byte :: rest =>
      if byte = Ascii.openBracket then skipNested .item (.array :: outer) rest
      else if byte = Ascii.openBrace then skipNested .member (.object :: outer) rest
      else match _hscalar : skipScalar (byte :: rest) with
        | .error failure => .error failure
        | .ok rest => skipNested .comma outer rest
  | .item =>
    match _hspace : skipSpace text with
    | [] => .error .ended
    | byte :: rest =>
      if byte = Ascii.closeBracket then skipNested .comma outer.tail rest
      else skipNested .value outer text
  | .member =>
    match _hspace : skipSpace text with
    | [] => .error .ended
    | byte :: rest =>
      if byte = Ascii.closeBrace then skipNested .comma outer.tail rest
      else skipNested .name outer text
  | .name =>
    match _hspace : skipSpace text with
    | [] => .error .ended
    | byte :: rest =>
      if byte = Ascii.quote then
        match _hstring : skipString rest with
        | .error failure => .error failure
        | .ok afterName =>
          match _hcolon : readColon afterName with
          | .error failure => .error failure
          | .ok afterColon => skipNested .value outer afterColon
      else .error .malformed
termination_by (text.length, match expecting with | .item | .member => 1 | _ => 0)
decreasing_by
  all_goals try have := length_lt_of_skipSpace _hspace
  all_goals first
    | omega
    | (have hscalar := length_lt_of_skipScalar _hscalar
       simp only [List.length_cons] at hscalar
       omega)
    | (have hstring := length_lt_of_skipString _hstring
       have hcolon := length_lt_of_readColon _hcolon
       omega)

/-- Skipping leaves no more than there was, and less if anything was to be skipped. -/
theorem length_le_of_skipNested {expecting : Expecting} {outer : List Enclosing}
    {text rest : List UInt8} (h : skipNested expecting outer text = .ok rest) :
    rest.length ≤ text.length ∧ (expecting ≠ .comma → rest.length < text.length) := by
  fun_induction skipNested expecting outer text with
  | case1 text => cases h; exact ⟨Nat.le_refl _, fun hne => absurd rfl hne⟩
  | case2 | case6 | case7 | case10 | case12 | case15 | case18 | case19 | case20 | case22 => cases h
  | case3 | case4 | case5 | case8 | case9 | case13 | case16 =>
    rename_i ih
    have := length_lt_of_skipSpace ‹_›
    have := (ih h).1
    exact ⟨by omega, fun _ => by omega⟩
  | case11 =>
    rename_i ih
    have := length_lt_of_skipSpace ‹_›
    have := length_lt_of_skipScalar ‹_›
    have := (ih h).1
    simp only [List.length_cons] at *
    exact ⟨by omega, fun _ => by omega⟩
  | case14 | case17 =>
    rename_i ih
    have := (ih h).2 (by simp)
    exact ⟨by omega, fun _ => this⟩
  | case21 =>
    rename_i ih
    have := length_lt_of_skipSpace ‹_›
    have := length_lt_of_skipString ‹_›
    have := length_lt_of_readColon ‹_›
    have := (ih h).1
    exact ⟨by omega, fun _ => by omega⟩

/-- Takes any value and makes nothing of it. -/
def skipper : Reader Unit where
  read text :=
    match skipNested .value [] text with
    | .ok rest => .ok ((), rest)
    | .error failure => .error failure
  shorter {text value rest} h := by
    split at h
    · next hskip =>
      cases h
      exact (length_le_of_skipNested hskip).2 (by simp)
    · cases h

end Json

end JtagPlayer
