import JtagPlayer.Instruction.Basic
import JtagPlayer.Json.Reader

/-!
# Reading instruction streams

`Program.read` reads a document that is an array of instructions. An instruction is an object with a
member `kind`, which may stand anywhere, or an array whose first item is the kind and whose other
items are its fields in order. Kinds and fields are named as in a written stream.

An object may have other members, which are ignored; a field must not be given twice. An instruction
of any other kind is unknown, whatever its fields. Each instruction is read as a whole before its
fields are looked at, but for its kind, which is judged where it stands.
-/

namespace JtagPlayer

/-! ## Values of fields -/

namespace Json

/-- The value of a field that holds one of a set of names. A name may be given as an object with one
empty member of that name. -/
def asChoice {α : Type} (ofName? : String → Option α) (value : Json) : Except ReadFailure α :=
  let name? := match value with
    | .string name => some name
    | .object [(name, .null)] => some name
    | .object [(name, .object [])] => some name
    | _ => none
  match name?.bind ofName? with
  | some choice => .ok choice
  | none => .error .mismatched

/-- The value of a field that holds a number. -/
def asFloat : Json → Except ReadFailure Float
  | .number value => .ok value.toFloat
  | _ => .error .mismatched

/-- The value of a field that holds an integer of 32 bits. -/
def asWord : Json → Except ReadFailure UInt32
  | .number (.integer value) =>
    if 0 ≤ value ∧ value < UInt32.size then .ok (UInt32.ofNat value.toNat) else .error .mismatched
  | _ => .error .mismatched

/-- The value of a field that holds a string. -/
def asString : Json → Except ReadFailure String
  | .string value => .ok value
  | _ => .error .mismatched

/-- The value of a field that holds a string of hexadecimal digits. -/
def asBytes (value : Json) : Except ReadFailure (List UInt8) :=
  match value.asString with
  | .error failure => .error failure
  | .ok text =>
    match Hex.decode text with
    | .ok bytes => .ok bytes
    | .error invalid => .error (.badPattern invalid)

/-- The value of a field that may be null. -/
def asOption {α : Type} (decode : Json → Except ReadFailure α) :
    Json → Except ReadFailure (Option α)
  | .null => .ok none
  | value => (decode value).map some

/-- The value of a field that holds a list. -/
def asList {α : Type} (decode : Json → Except ReadFailure α) : Json → Except ReadFailure (List α)
  | .array items => items.mapM decode
  | _ => .error .mismatched

/-! ## Fields -/

/-- The fields of a value, by name or by position. -/
inductive Content where
  | members (given : List (String × Json))
  | items (given : List Json)

/-- Takes the value of a field that must not have been given before. -/
def once {α : Type} (before : Option α) (decode : Json → Except ReadFailure α) (value : Json) :
    Except ReadFailure (Option α) :=
  match before with
  | some _ => .error .mismatched
  | none => (decode value).map some

/-- The value of a field that must be given. -/
def required {α : Type} : Option α → Except ReadFailure α
  | some value => .ok value
  | none => .error .mismatched

/-- Takes the fields with the given names in the order in which they stand. Members with other names
are ignored; there must be no more items than names. -/
def Content.fold {σ : Type} (names : List String)
    (field : σ → String → Json → Except ReadFailure σ) (state : σ) :
    Content → Except ReadFailure σ
  | .members given =>
    (given.filter fun (name, _) => names.contains name).foldlM
      (fun state (name, value) => field state name value) state
  | .items given => do
    let state ← (names.zip given).foldlM (fun state (name, value) => field state name value) state
    if names.length < given.length then throw .mismatched
    return state

/-- The fields of an object or array. -/
def content? : Json → Option Content
  | .object members => some (.members members)
  | .array items => some (.items items)
  | _ => none

end Json

open Json

/-! ## Patterns -/

/-- The fields of a pattern that have been read. -/
structure PatternFields where
  length : Option UInt32 := none
  tdi : Option (Option (List UInt8)) := none
  tdo : Option (Option (List UInt8)) := none
  mask : Option (Option (List UInt8)) := none
  smask : Option (Option (List UInt8)) := none

namespace PatternFields

/-- The names of the fields in order. -/
def names : List String :=
  ["length", "tdi", "tdo", "mask", "smask"]

/-- Takes one field. -/
def take (fields : PatternFields) (name : String) (value : Json) :
    Except ReadFailure PatternFields :=
  match name with
  | "length" => return { fields with length := ← once fields.length asWord value }
  | "tdi" => return { fields with tdi := ← once fields.tdi (asOption asBytes) value }
  | "tdo" => return { fields with tdo := ← once fields.tdo (asOption asBytes) value }
  | "mask" => return { fields with mask := ← once fields.mask (asOption asBytes) value }
  | "smask" => return { fields with smask := ← once fields.smask (asOption asBytes) value }
  | _ => return fields

/-- The pattern with these fields. -/
def toPattern (fields : PatternFields) : Except ReadFailure Pattern := do
  return {
    length := ← required fields.length
    tdi := fields.tdi.join
    tdo := fields.tdo.join
    mask := fields.mask.join
    smask := fields.smask.join }

end PatternFields

/-- The value of a field that holds a pattern. -/
def Json.asPattern (value : Json) : Except ReadFailure Pattern :=
  match value.content? with
  | none => .error .mismatched
  | some content => do
    let fields ← content.fold PatternFields.names PatternFields.take {}
    fields.toPattern

/-! ## Instructions -/

/-- The kinds of instructions that have fields. -/
inductive InstructionKind where
  | setEndState
  | setFrequency
  | setHeader
  | setTrailer
  | shift
  | runTest
  | goToState
  | unsupported
  deriving DecidableEq

namespace InstructionKind

/-- All kinds. -/
def all : List InstructionKind :=
  [setEndState, setFrequency, setHeader, setTrailer, shift, runTest, goToState, unsupported]

/-- The name of a kind in a stream. -/
def name : InstructionKind → String
  | setEndState => "set_end_state"
  | setFrequency => "set_frequency"
  | setHeader => "set_header"
  | setTrailer => "set_trailer"
  | shift => "shift"
  | runTest => "run_test"
  | goToState => "go_to_state"
  | unsupported => "unsupported"

/-- The kind with a given name. -/
def ofName? (name : String) : Option InstructionKind :=
  all.find? fun kind => kind.name == name

/-- The names of the fields of a kind in order. -/
def fieldNames : InstructionKind → List String
  | setEndState => ["register", "state"]
  | setFrequency => ["hz"]
  | setHeader | setTrailer => ["register", "pattern"]
  | shift => ["register", "pattern", "label"]
  | runTest => ["run_state", "run_count", "min_time", "max_time", "end_state"]
  | goToState => ["target", "path"]
  | unsupported => ["command"]

end InstructionKind

/-- The fields of an instruction that have been read. -/
structure InstructionFields where
  register : Option Register := none
  state : Option TapState := none
  hz : Option Float := none
  pattern : Option Pattern := none
  label : Option (Option String) := none
  runState : Option (Option TapState) := none
  runCount : Option UInt32 := none
  minTime : Option Float := none
  maxTime : Option (Option Float) := none
  endState : Option (Option TapState) := none
  target : Option TapState := none
  path : Option (Option (List TapState)) := none
  command : Option UnsupportedCommand := none

namespace InstructionFields

/-- Takes one field. -/
def take (fields : InstructionFields) (name : String) (value : Json) :
    Except ReadFailure InstructionFields :=
  let asState := asChoice TapState.ofName?
  match name with
  | "register" =>
    return { fields with register := ← once fields.register (asChoice Register.ofName?) value }
  | "state" => return { fields with state := ← once fields.state asState value }
  | "hz" => return { fields with hz := ← once fields.hz asFloat value }
  | "pattern" => return { fields with pattern := ← once fields.pattern asPattern value }
  | "label" => return { fields with label := ← once fields.label (asOption asString) value }
  | "run_state" =>
    return { fields with runState := ← once fields.runState (asOption asState) value }
  | "run_count" => return { fields with runCount := ← once fields.runCount asWord value }
  | "min_time" => return { fields with minTime := ← once fields.minTime asFloat value }
  | "max_time" => return { fields with maxTime := ← once fields.maxTime (asOption asFloat) value }
  | "end_state" =>
    return { fields with endState := ← once fields.endState (asOption asState) value }
  | "target" => return { fields with target := ← once fields.target asState value }
  | "path" => return { fields with path := ← once fields.path (asOption (asList asState)) value }
  | "command" =>
    return { fields with
      command := ← once fields.command (asChoice UnsupportedCommand.ofName?) value }
  | _ => return fields

/-- The instruction of a kind with these fields. -/
def toInstruction (fields : InstructionFields) : InstructionKind → Except ReadFailure Instruction
  | .setEndState => return .setEndState (← required fields.register) (← required fields.state)
  | .setFrequency => return .setFrequency (← required fields.hz)
  | .setHeader => return .setHeader (← required fields.register) (← required fields.pattern)
  | .setTrailer => return .setTrailer (← required fields.register) (← required fields.pattern)
  | .shift =>
    return .shift (← required fields.register) (← required fields.pattern) fields.label.join
  | .runTest =>
    return .runTest {
      runState := fields.runState.join
      runCount := fields.runCount.getD 0
      minTime := fields.minTime.getD 0
      maxTime := fields.maxTime.join
      endState := fields.endState.join }
  | .goToState => return .goToState (← required fields.target) fields.path.join
  | .unsupported => return .unsupported (← required fields.command)

end InstructionFields

namespace Instruction

/-- The instruction with a kind and fields. One of an unknown kind may have any members, but as an
array it must have no items besides the kind. -/
def ofContent (kind : String) (content : Content) : Except ReadFailure Instruction :=
  match InstructionKind.ofName? kind with
  | some kind => do
    let fields ← content.fold kind.fieldNames InstructionFields.take {}
    fields.toInstruction kind
  | none =>
    match content with
    | .items (_ :: _) => .error .mismatched
    | _ => .ok unknown

/-- What has been read of an object: its kind, and its other members, latest first. -/
structure Draft where
  kind : Option String := none
  members : List (String × Json) := []

/-- Reads the value of a member. The kind must be a string and must not be given twice. -/
def draftReader (item : Reader Json) (draft : Draft) (name : String) :
    Except ReadFailure (Reader Draft) :=
  if name = "kind" then
    match draft.kind with
    | some _ => .error .mismatched
    | none => .ok (stringReader.map fun kind => { draft with kind := some kind })
  else
    .ok (item.map fun value => { draft with members := (name, value) :: draft.members })

/-- The kind and the other items of an instruction that is written as an array, from the opening
bracket on. -/
def readItemForm (item : Reader Json) (text : List UInt8) : Reading Instruction :=
  match Lexical.skipSpace text with
  | [] => .error .ended
  | byte :: _ =>
    if byte = Ascii.closeBracket then .error .mismatched
    else
      -- The kind is judged at once, the fields when the array is complete.
      match stringReader.read text with
      | .error failure => .error failure
      | .ok (kind, rest) =>
        match readMore item rest with
        | .error failure => .error failure
        | .ok (items, rest) =>
          match ofContent kind (.items items) with
          | .error failure => .error failure
          | .ok instruction => .ok (instruction, rest)

theorem length_lt_of_readItemForm {item : Reader Json} {text rest : List UInt8}
    {instruction : Instruction} (h : readItemForm item text = .ok (instruction, rest)) :
    rest.length < text.length := by
  unfold readItemForm at h
  repeat' split at h
  all_goals cases h
  have := stringReader.shorter ‹_›
  have := length_lt_of_readMore ‹_›
  omega

/-- The members of an instruction that is written as an object, from the opening brace on. -/
def readMemberForm (item : Reader Json) (text : List UInt8) : Reading Instruction :=
  match readObject (draftReader item) {} text with
  | .error failure => .error failure
  | .ok (draft, rest) =>
    match draft.kind with
    | none => .error .mismatched
    | some kind =>
      match ofContent kind (.members draft.members.reverse) with
      | .error failure => .error failure
      | .ok instruction => .ok (instruction, rest)

theorem length_lt_of_readMemberForm {item : Reader Json} {text rest : List UInt8}
    {instruction : Instruction} (h : readMemberForm item text = .ok (instruction, rest)) :
    rest.length < text.length := by
  unfold readMemberForm at h
  repeat' split at h
  all_goals cases h
  exact length_lt_of_readObject ‹_›

/-- Takes an instruction, given a reader for the values in it. -/
def reader (item : Reader Json) : Reader Instruction where
  read text :=
    match Lexical.skipSpace text with
    | [] => .error .ended
    | byte :: rest =>
      if byte = Ascii.openBracket then readItemForm item rest
      else if byte = Ascii.openBrace then readMemberForm item rest
      else .error (mismatch text)
  shorter {text value rest} h := by
    split at h
    · cases h
    · next hspace =>
      have := Lexical.length_lt_of_skipSpace hspace
      split at h
      · have := length_lt_of_readItemForm h
        omega
      · split at h
        · have := length_lt_of_readMemberForm h
          omega
        · cases h

end Instruction

/-- Reads an instruction stream. The array and each of its items take one level of nesting. -/
def Program.read (text : List UInt8) : Except ReadFailure (List Instruction) :=
  readDocument (arrayReader (Instruction.reader (valueReader (maxLevels - 2)))) text

end JtagPlayer
