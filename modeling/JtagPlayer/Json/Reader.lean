import JtagPlayer.Json.Lexical

/-!
# Reading JSON values

The readers of this module take arrays, objects and whole values. They are built from a reader for
one item, or from a function that picks the reader of a member's value by its name, so that typed
readers report a member they cannot use as soon as they see it.

`Json.valueReader levels` takes any value in which at most `levels` arrays and objects are nested.
-/

namespace JtagPlayer

namespace Json

open Lexical

/-! ## Values that hold no others -/

/-- A null, a truth value, a number or a string that starts at the first byte. -/
def readScalar (text : List UInt8) : Reading Json :=
  match text with
  | [] => .error .ended
  | byte :: rest =>
    if byte = Ascii.letterN then
      match readWord (Text.toBytes "ull") rest with
      | .ok rest => .ok (null, rest)
      | .error failure => .error failure
    else if byte = Ascii.letterT then
      match readWord (Text.toBytes "rue") rest with
      | .ok rest => .ok (bool true, rest)
      | .error failure => .error failure
    else if byte = Ascii.letterF then
      match readWord (Text.toBytes "alse") rest with
      | .ok rest => .ok (bool false, rest)
      | .error failure => .error failure
    else if byte = Ascii.quote then
      match readString rest with
      | .ok (value, rest) => .ok (string value, rest)
      | .error failure => .error failure
    else if byte = Ascii.minus ∨ Ascii.isDigit byte then
      match readNumber text with
      | .ok (value, rest) => .ok (number value, rest)
      | .error failure => .error failure
    else .error .malformed

theorem length_lt_of_readScalar {text rest : List UInt8} {value : Json}
    (h : readScalar text = .ok (value, rest)) : rest.length < text.length := by
  unfold readScalar at h
  split at h
  · cases h
  · repeat' split at h
    all_goals cases h
    all_goals first
      | exact Nat.lt_succ_of_le (length_le_of_readWord (by assumption))
      | exact Nat.lt_succ_of_lt (length_lt_of_readString (by assumption))
      | exact length_lt_of_readNumber (by assumption)

/-- The failure to report where a value of another kind was asked for. A value that holds no others
is read in full first; of an array or object the first byte tells. -/
def mismatch (text : List UInt8) : ReadFailure :=
  match skipSpace text with
  | [] => .ended
  | byte :: rest =>
    if byte = Ascii.openBracket ∨ byte = Ascii.openBrace then .mismatched
    else match readScalar (byte :: rest) with
      | .ok _ => .mismatched
      | .error failure => failure

/-- Takes a string. -/
def stringReader : Reader String where
  read text :=
    match skipSpace text with
    | byte :: rest => if byte = Ascii.quote then readString rest else .error (mismatch text)
    | [] => .error .ended
  shorter {text value rest} h := by
    split at h
    · next hspace =>
      split at h
      · have := length_lt_of_skipSpace hspace
        have := length_lt_of_readString h
        omega
      · cases h
    · cases h

/-! ## Arrays -/

/-- The items after a first one, up to the closing bracket. -/
def readMore {α : Type} (item : Reader α) (text : List UInt8) : Reading (List α) :=
  match _hspace : skipSpace text with
  | [] => .error .ended
  | byte :: rest =>
    if byte = Ascii.closeBracket then .ok ([], rest)
    else if byte = Ascii.comma then
      match _hitem : item.read rest with
      | .error failure => .error failure
      | .ok (first, rest) =>
        match readMore item rest with
        | .error failure => .error failure
        | .ok (more, rest) => .ok (first :: more, rest)
    else .error .malformed
termination_by text.length
decreasing_by
  have := length_lt_of_skipSpace _hspace
  have := item.shorter _hitem
  omega

/-- Each item of an array takes at least its comma, so that reading the others comes to an end. -/
theorem length_lt_of_readMore {α : Type} {item : Reader α} {text rest : List UInt8}
    {items : List α} (h : readMore item text = .ok (items, rest)) : rest.length < text.length := by
  fun_induction readMore item text generalizing items rest with
  | case1 => cases h
  | case2 text after hspace =>
    cases h
    exact length_lt_of_skipSpace hspace
  | case3 => cases h
  | case4 => cases h
  | case5 text after first afterFirst hitem more afterMore hmore hspace _ ih =>
    cases h
    have := length_lt_of_skipSpace hspace
    have := item.shorter hitem
    have := ih hmore
    omega
  | case6 => cases h

/-- The items of an array whose opening bracket has been taken, up to the closing one. -/
def readItems {α : Type} (item : Reader α) (text : List UInt8) : Reading (List α) :=
  match skipSpace text with
  | [] => .error .ended
  | byte :: rest =>
    if byte = Ascii.closeBracket then .ok ([], rest)
    else
      match item.read text with
      | .error failure => .error failure
      | .ok (first, rest) =>
        match readMore item rest with
        | .error failure => .error failure
        | .ok (more, rest) => .ok (first :: more, rest)

theorem length_lt_of_readItems {α : Type} {item : Reader α} {text rest : List UInt8}
    {items : List α} (h : readItems item text = .ok (items, rest)) : rest.length < text.length := by
  unfold readItems at h
  split at h
  · cases h
  · next hspace =>
    split at h
    · cases h
      exact length_lt_of_skipSpace hspace
    · split at h
      · cases h
      · next hitem =>
        split at h
        · cases h
        · next hmore =>
          cases h
          have := item.shorter hitem
          have := length_lt_of_readMore hmore
          omega

/-- Takes an array of items. -/
def arrayReader {α : Type} (item : Reader α) : Reader (List α) where
  read text :=
    match skipSpace text with
    | byte :: rest =>
      if byte = Ascii.openBracket then readItems item rest else .error (mismatch text)
    | [] => .error .ended
  shorter {text value rest} h := by
    split at h
    · next hspace =>
      split at h
      · have := length_lt_of_skipSpace hspace
        have := length_lt_of_readItems h
        omega
      · cases h
    · cases h

/-! ## Objects -/

/-- The name of a member. -/
def readName (text : List UInt8) : Reading String :=
  match skipSpace text with
  | [] => .error .ended
  | byte :: rest => if byte = Ascii.quote then readString rest else .error .malformed

theorem length_lt_of_readName {text rest : List UInt8} {name : String}
    (h : readName text = .ok (name, rest)) : rest.length < text.length := by
  unfold readName at h
  split at h
  · cases h
  · next hspace =>
    split at h
    · have := length_lt_of_skipSpace hspace
      have := length_lt_of_readString h
      omega
    · cases h

/-- The text after a colon. -/
def readColon (text : List UInt8) : Except ReadFailure (List UInt8) :=
  match skipSpace text with
  | [] => .error .ended
  | byte :: rest => if byte = Ascii.colon then .ok rest else .error .malformed

theorem length_lt_of_readColon {text rest : List UInt8} (h : readColon text = .ok rest) :
    rest.length < text.length := by
  unfold readColon at h
  split at h
  · cases h
  · next hspace =>
    split at h
    · cases h
      exact length_lt_of_skipSpace hspace
    · cases h

/-- The members from a name on, up to the closing brace. The reader of a value depends on the
member's name and on what was read before, which it extends. -/
def readMembers {σ : Type} (value : σ → String → Except ReadFailure (Reader σ)) (state : σ)
    (text : List UInt8) : Reading σ :=
  match _hname : readName text with
  | .error failure => .error failure
  | .ok (name, afterName) =>
    -- A name that may not stand here is reported before a missing colon.
    match value state name with
    | .error failure => .error failure
    | .ok reader =>
      match _hcolon : readColon afterName with
      | .error failure => .error failure
      | .ok afterColon =>
        match _hvalue : reader.read afterColon with
        | .error failure => .error failure
        | .ok (state, afterValue) =>
          match _hspace : skipSpace afterValue with
          | [] => .error .ended
          | byte :: rest =>
            if byte = Ascii.closeBrace then .ok (state, rest)
            else if byte = Ascii.comma then readMembers value state rest
            else .error .malformed
termination_by text.length
decreasing_by
  have := length_lt_of_readName _hname
  have := length_lt_of_readColon _hcolon
  have := reader.shorter _hvalue
  have := length_lt_of_skipSpace _hspace
  omega

/-- Each member of an object takes at least the quotes of its name. -/
theorem length_lt_of_readMembers {σ : Type} {value : σ → String → Except ReadFailure (Reader σ)}
    {state result : σ} {text rest : List UInt8}
    (h : readMembers value state text = .ok (result, rest)) : rest.length < text.length := by
  fun_induction readMembers value state text with
  | case1 | case2 | case3 | case4 | case5 => cases h
  | case6 state text name afterName hname reader hreader afterColon hcolon state' afterValue hvalue
      after hspace =>
    cases h
    have := length_lt_of_readName hname
    have := length_lt_of_readColon hcolon
    have := reader.shorter hvalue
    have := length_lt_of_skipSpace hspace
    omega
  | case7 state text name afterName hname reader hreader afterColon hcolon state' afterValue hvalue
      after hspace _ ih =>
    have := length_lt_of_readName hname
    have := length_lt_of_readColon hcolon
    have := reader.shorter hvalue
    have := length_lt_of_skipSpace hspace
    have := ih h
    omega
  | case8 => cases h

/-- The members of an object whose opening brace has been taken, up to the closing one. -/
def readObject {σ : Type} (value : σ → String → Except ReadFailure (Reader σ)) (state : σ)
    (text : List UInt8) : Reading σ :=
  match skipSpace text with
  | [] => .error .ended
  | byte :: rest =>
    if byte = Ascii.closeBrace then .ok (state, rest) else readMembers value state text

theorem length_lt_of_readObject {σ : Type} {value : σ → String → Except ReadFailure (Reader σ)}
    {state result : σ} {text rest : List UInt8}
    (h : readObject value state text = .ok (result, rest)) : rest.length < text.length := by
  unfold readObject at h
  split at h
  · cases h
  · next hspace =>
    split at h
    · cases h
      exact length_lt_of_skipSpace hspace
    · exact length_lt_of_readMembers h

/-! ## Values -/

/-- Adds a member to those read before, latest first. -/
def memberReader (item : Reader Json) (members : List (String × Json)) (name : String) :
    Except ReadFailure (Reader (List (String × Json))) :=
  .ok (item.map fun value => (name, value) :: members)

/-- A value that starts at the first byte, given a reader for the values in it, if there may be
any. -/
def readValue (item : Option (Reader Json)) (text : List UInt8) : Reading Json :=
  match text with
  | [] => .error .ended
  | byte :: rest =>
    if byte = Ascii.openBracket then
      match item with
      | none => .error .malformed
      | some item =>
        match readItems item rest with
        | .ok (items, rest) => .ok (array items, rest)
        | .error failure => .error failure
    else if byte = Ascii.openBrace then
      match item with
      | none => .error .malformed
      | some item =>
        match readObject (memberReader item) [] rest with
        | .ok (members, rest) => .ok (object members.reverse, rest)
        | .error failure => .error failure
    else readScalar text

/-- Every value takes at least one byte of a text. -/
theorem length_lt_of_readValue {item : Option (Reader Json)} {text rest : List UInt8}
    {value : Json} (h : readValue item text = .ok (value, rest)) : rest.length < text.length := by
  unfold readValue at h
  split at h
  · cases h
  · split at h
    · split at h
      · cases h
      · split at h
        · next hitems =>
          cases h
          exact Nat.lt_succ_of_lt (length_lt_of_readItems hitems)
        · cases h
    · split at h
      · split at h
        · cases h
        · split at h
          · next hmembers =>
            cases h
            exact Nat.lt_succ_of_lt (length_lt_of_readObject hmembers)
          · cases h
      · exact length_lt_of_readScalar h

/-- Takes a value after space, given a reader for the values in it. -/
def nestedReader (item : Option (Reader Json)) : Reader Json where
  read text := readValue item (skipSpace text)
  shorter {text _ _} h :=
    Nat.lt_of_lt_of_le (length_lt_of_readValue h) (length_skipSpace_le text)

/-- Takes a value in which at most `levels` arrays and objects are nested. -/
def valueReader : Nat → Reader Json
  | 0 => nestedReader none
  | levels + 1 => nestedReader (some (valueReader levels))

/-- The number of arrays and objects that may be nested in a document. -/
def maxLevels : Nat := 127

/-- A whole document: one value, and nothing but space after it. -/
def readDocument {α : Type} (reader : Reader α) (text : List UInt8) : Except ReadFailure α :=
  match reader.read text with
  | .error failure => .error failure
  | .ok (value, rest) => if skipSpace rest = [] then .ok value else .error .malformed

end Json

end JtagPlayer
