import JtagPlayer.Fault.Basic
import JtagPlayer.Json.Skip

/-!
# Reading fault reports

`FaultReport.read` reads a document that is a fault report: an object with the member `faults`, or
an array with the list of faults as its only item. A fault is an object with five strings by name,
or an array of five strings. Values of other members are skipped, a member must not be given twice,
and none may be missing. Each value is judged where it stands.
-/

namespace JtagPlayer

open Json Lexical

/-! ## Values by position -/

namespace Json

/-- The text in front of the next item of an array that must have one, or behind the comma in front
of it. -/
def readSeparator (first : Bool) (text : List UInt8) : Except ReadFailure (List UInt8) :=
  match skipSpace text with
  | [] => .error .ended
  | byte :: rest =>
    if byte = Ascii.closeBracket then .error .mismatched
    else if first then .ok text
    else if byte = Ascii.comma then
      -- A bracket behind a comma is malformed, whatever was to come.
      match skipSpace rest with
      | [] => .error .ended
      | byte :: _ => if byte = Ascii.closeBracket then .error .malformed else .ok rest
    else .error .malformed

theorem length_le_of_readSeparator {first : Bool} {text rest : List UInt8}
    (h : readSeparator first text = .ok rest) : rest.length ≤ text.length := by
  unfold readSeparator at h
  split at h
  · cases h
  · next hspace =>
    have := length_lt_of_skipSpace hspace
    repeat' split at h
    all_goals cases h
    all_goals omega

/-- As many items as asked for, from the opening bracket or the item before them on. -/
def readExactly {α : Type} (item : Reader α) : Nat → Bool → List UInt8 → Reading (List α)
  | 0, _, text => .ok ([], text)
  | count + 1, first, text =>
    match readSeparator first text with
    | .error failure => .error failure
    | .ok text =>
      match item.read text with
      | .error failure => .error failure
      | .ok (value, rest) =>
        match readExactly item count false rest with
        | .error failure => .error failure
        | .ok (values, rest) => .ok (value :: values, rest)

theorem length_le_of_readExactly {α : Type} {item : Reader α} {count : Nat} {first : Bool}
    {text rest : List UInt8} {values : List α}
    (h : readExactly item count first text = .ok (values, rest)) : rest.length ≤ text.length := by
  induction count generalizing first text rest values with
  | zero => cases h; exact Nat.le_refl _
  | succ count ih =>
    unfold readExactly at h
    repeat' split at h
    all_goals cases h
    have := length_le_of_readSeparator ‹_›
    have := item.shorter ‹_›
    have := ih ‹_›
    omega

/-- The text after the closing bracket, which must come next. -/
def readEnd (text : List UInt8) : Except ReadFailure (List UInt8) :=
  match skipSpace text with
  | [] => .error .ended
  | byte :: rest => if byte = Ascii.closeBracket then .ok rest else .error .malformed

theorem length_lt_of_readEnd {text rest : List UInt8} (h : readEnd text = .ok rest) :
    rest.length < text.length := by
  unfold readEnd at h
  split at h
  · cases h
  · next hspace =>
    split at h
    · cases h
      exact length_lt_of_skipSpace hspace
    · cases h

/-- The items of an array that has exactly as many as asked for, from the opening bracket on. -/
def readTuple {α : Type} (item : Reader α) (count : Nat) (text : List UInt8) : Reading (List α) :=
  match readExactly item count true text with
  | .error failure => .error failure
  | .ok (values, rest) =>
    match readEnd rest with
    | .error failure => .error failure
    | .ok rest => .ok (values, rest)

/-- A tuple takes at least its closing bracket. -/
theorem length_lt_of_readTuple {α : Type} {item : Reader α} {count : Nat}
    {text rest : List UInt8} {values : List α}
    (h : readTuple item count text = .ok (values, rest)) : rest.length < text.length := by
  unfold readTuple at h
  repeat' split at h
  all_goals cases h
  have := length_le_of_readExactly ‹_›
  have := length_lt_of_readEnd ‹_›
  omega

/-- Takes a value that is written as an array with a fixed number of items, or as an object. -/
def recordReader {α ι σ : Type} (item : Reader ι) (count : Nat) (ofItems : List ι → Option α)
    (member : σ → String → Except ReadFailure (Reader σ)) (start : σ) (ofMembers : σ → Option α) :
    Reader α where
  read text :=
    match skipSpace text with
    | [] => .error .ended
    | byte :: rest =>
      if byte = Ascii.openBracket then
        match readTuple item count rest with
        | .error failure => .error failure
        | .ok (items, rest) =>
          match ofItems items with
          | some value => .ok (value, rest)
          | none => .error .mismatched
      else if byte = Ascii.openBrace then
        match readObject member start rest with
        | .error failure => .error failure
        | .ok (members, rest) =>
          match ofMembers members with
          | some value => .ok (value, rest)
          | none => .error .mismatched
      else .error (mismatch text)
  shorter {text value rest} h := by
    split at h
    · cases h
    · next hspace =>
      have := length_lt_of_skipSpace hspace
      repeat' split at h
      all_goals cases h
      · have := length_lt_of_readTuple ‹_›
        omega
      · have := length_lt_of_readObject ‹_›
        omega

end Json

/-! ## Faults -/

namespace Fault

/-- The strings of a fault that have been read. -/
structure Draft where
  label : Option String := none
  tdi : Option String := none
  tdo : Option String := none
  mask : Option String := none
  data : Option String := none

namespace Draft

/-- Reads a string into a place that must be empty. -/
def fill (place : Option String) (put : String → Draft) : Except ReadFailure (Reader Draft) :=
  match place with
  | some _ => .error .mismatched
  | none => .ok (stringReader.map fun value => put value)

/-- Reads the value of a member. -/
def memberReader (draft : Draft) (name : String) : Except ReadFailure (Reader Draft) :=
  match name with
  | "label" => fill draft.label fun value => { draft with label := some value }
  | "tdi" => fill draft.tdi fun value => { draft with tdi := some value }
  | "tdo" => fill draft.tdo fun value => { draft with tdo := some value }
  | "mask" => fill draft.mask fun value => { draft with mask := some value }
  | "data" => fill draft.data fun value => { draft with data := some value }
  | _ => .ok (skipper.map fun _ => draft)

/-- The fault, once all its strings are there. -/
def toFault? (draft : Draft) : Option Fault := do
  return {
    label := ← draft.label
    tdi := ← draft.tdi
    tdo := ← draft.tdo
    mask := ← draft.mask
    data := ← draft.data }

end Draft

/-- The fault with five strings in order. -/
def ofStrings? : List String → Option Fault
  | [label, tdi, tdo, mask, data] => some { label, tdi, tdo, mask, data }
  | _ => none

/-- Takes a fault. -/
def reader : Reader Fault :=
  recordReader stringReader 5 ofStrings? Draft.memberReader {} Draft.toFault?

end Fault

namespace FaultReport

/-- Reads the value of a member, with the faults that were read before, if any. -/
def memberReader (faults : Option (List Fault)) (name : String) :
    Except ReadFailure (Reader (Option (List Fault))) :=
  if name = "faults" then
    match faults with
    | some _ => .error .mismatched
    | none => .ok ((arrayReader Fault.reader).map some)
  else .ok (skipper.map fun _ => faults)

/-- The report with a list of faults as its only item. -/
def ofItems? : List (List Fault) → Option FaultReport
  | [faults] => some { faults }
  | _ => none

/-- Takes a report. -/
def reader : Reader FaultReport :=
  recordReader (arrayReader Fault.reader) 1 ofItems? memberReader none
    fun faults => faults.map FaultReport.mk

/-- Reads a fault report. -/
def read (text : List UInt8) : Except ReadFailure FaultReport :=
  readDocument reader text

end FaultReport

end JtagPlayer
