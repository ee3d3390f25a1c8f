import JtagPlayer.Instruction.Basic
import JtagPlayer.Json.Writer

/-!
# Writing instruction streams

`Program.write` writes a list of instructions as a document: an array of objects whose first member
names the kind. Members that are optional and absent are left out.
-/

namespace JtagPlayer

namespace Json

/-- An integer. -/
def ofNat (value : Nat) : Json :=
  number (.integer value)

/-- A number in double precision. -/
def ofFloat (value : Float) : Json :=
  number (.decimal value)

/-- A member that is left out if its value is absent. -/
def optional {α : Type} (name : String) (json : α → Json) (value : Option α) :
    List (String × Json) :=
  match value with
  | some value => [(name, json value)]
  | none => []

end Json

/-- The value that stands for a state. -/
def TapState.toJson (state : TapState) : Json :=
  .string state.name

/-- The value that stands for a register. -/
def Register.toJson (register : Register) : Json :=
  .string register.name

/-- The value that stands for a pattern. -/
def Pattern.toJson (pattern : Pattern) : Json :=
  let bytes (name : String) := Json.optional name fun bytes => .string (Hex.encode bytes)
  .object <| [("length", Json.ofNat pattern.length.toNat)] ++ bytes "tdi" pattern.tdi ++
    bytes "tdo" pattern.tdo ++ bytes "mask" pattern.mask ++ bytes "smask" pattern.smask

namespace Instruction

/-- The name of the kind of an instruction in a stream. -/
def kindName : Instruction → String
  | setEndState _ _ => "set_end_state"
  | setFrequency _ => "set_frequency"
  | setHeader _ _ => "set_header"
  | setTrailer _ _ => "set_trailer"
  | shift _ _ _ => "shift"
  | runTest _ => "run_test"
  | goToState _ _ => "go_to_state"
  | unsupported _ => "unsupported"
  | unknown => "unknown"

/-- The members of an instruction besides its kind. -/
def members : Instruction → List (String × Json)
  | setEndState register state => [("register", register.toJson), ("state", state.toJson)]
  | setFrequency hz => [("hz", Json.ofFloat hz)]
  | setHeader register pattern =>
    [("register", register.toJson), ("pattern", pattern.toJson)]
  | setTrailer register pattern =>
    [("register", register.toJson), ("pattern", pattern.toJson)]
  | shift register pattern label =>
    [("register", register.toJson), ("pattern", pattern.toJson)] ++
      Json.optional "label" Json.string label
  | runTest test =>
    Json.optional "run_state" TapState.toJson test.runState ++
      [("run_count", Json.ofNat test.runCount.toNat), ("min_time", Json.ofFloat test.minTime)] ++
      Json.optional "max_time" Json.ofFloat test.maxTime ++
      Json.optional "end_state" TapState.toJson test.endState
  | goToState target path =>
    ("target", target.toJson) ::
      Json.optional "path" (fun path => .array (path.map TapState.toJson)) path
  | unsupported command => [("command", .string command.name)]
  | unknown => []

/-- The value that stands for an instruction. -/
def toJson (instruction : Instruction) : Json :=
  .object (("kind", .string instruction.kindName) :: instruction.members)

end Instruction

/-- The document of an instruction stream. -/
def Program.write (program : List Instruction) : List UInt8 :=
  Json.writeDocument (.array (program.map Instruction.toJson))

end JtagPlayer
