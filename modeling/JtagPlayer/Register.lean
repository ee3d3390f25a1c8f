import JtagPlayer.Tap.State

/-!
# Registers

A test access port gives access to a data register and an instruction register. For each of them a
player keeps three patterns: a header and a trailer that surround every scan, and the payload that
is scanned. `RegisterName` names these six; the name is the role's letter followed by the register.
-/

namespace JtagPlayer

/-- The two register families behind a test access port. -/
inductive Register where
  | data
  | instruction
  deriving DecidableEq, Inhabited

namespace Register

/-- Both registers. -/
def all : List Register :=
  [data, instruction]

/-- The name a register has in an instruction stream and in messages. -/
def name : Register → String
  | data => "DR"
  | instruction => "IR"

/-- The register with a given name. -/
def ofName? (name : String) : Option Register :=
  all.find? fun register => register.name == name

/-- The state in which a register is shifted. -/
def shiftState : Register → TapState
  | data => TapState.drShift
  | instruction => TapState.irShift

/-- Names are read back. -/
@[simp] theorem ofName?_name (register : Register) : ofName? register.name = some register := by
  cases register <;> decide

end Register

/-- What a persistent pattern contributes to a scan. -/
inductive Role where
  | header
  | payload
  | trailer
  deriving DecidableEq, Inhabited

/-- The first letter of the names of the patterns with this role. -/
def Role.letter : Role → String
  | .header => "H"
  | .payload => "S"
  | .trailer => "T"

/-- One of the six persistent patterns. -/
structure RegisterName where
  role : Role
  register : Register
  deriving DecidableEq, Inhabited

namespace RegisterName

/-- The six names. -/
def all : List RegisterName :=
  [Role.header, Role.payload, Role.trailer].flatMap fun role =>
    Register.all.map fun register => { role, register }

/-- The command that sets the pattern, such as `HDR`. -/
def name (register : RegisterName) : String :=
  register.role.letter ++ register.register.name

/-- The pattern with a given name. -/
def ofName? (name : String) : Option RegisterName :=
  all.find? fun register => register.name == name

/-- Payload patterns are scanned on their own account and must not be empty. -/
def isPayload (register : RegisterName) : Bool :=
  register.role == Role.payload

end RegisterName

end JtagPlayer
