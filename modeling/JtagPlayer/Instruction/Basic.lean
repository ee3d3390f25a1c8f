import JtagPlayer.Pattern

/-!
# Instructions

An instruction stream is a list of `Instruction`s: settings for later scans, scans, periods of
idling and movements between states. A stream may also hold instructions that a player knows by name
only, and instructions that it does not know at all.
-/

namespace JtagPlayer

/-- The commands that are recognized but cannot be carried out. -/
inductive UnsupportedCommand where
  /-- Control of the optional reset line. -/
  | trst
  /-- Parallel input and output vectors. -/
  | pio
  /-- The columns of those vectors. -/
  | pioMap
  deriving DecidableEq, Inhabited

namespace UnsupportedCommand

/-- All of these commands. -/
def all : List UnsupportedCommand :=
  [trst, pio, pioMap]

/-- The name of a command in a stream and in messages. -/
def name : UnsupportedCommand → String
  | trst => "TRST"
  | pio => "PIO"
  | pioMap => "PIOMAP"

/-- The command with a given name. -/
def ofName? (name : String) : Option UnsupportedCommand :=
  all.find? fun command => command.name == name

/-- Names are read back. -/
@[simp] theorem ofName?_name (command : UnsupportedCommand) :
    ofName? command.name = some command := by
  cases command <;> decide

end UnsupportedCommand

/-- A period of idling: for a number of clocks, and for at least a number of seconds. -/
structure RunTest where
  /-- Where to idle, if not in the present state. -/
  runState : Option TapState := none
  /-- The number of clocks. -/
  runCount : UInt32 := 0
  /-- The least number of seconds. -/
  minTime : Float := 0
  /-- The number of seconds after which no more clocks are given. -/
  maxTime : Option Float := none
  /-- Where to go afterwards. -/
  endState : Option TapState := none
  deriving DecidableEq

/-- One instruction of a stream. -/
inductive Instruction where
  /-- Sets the stable state that is entered after each scan of a register. -/
  | setEndState (register : Register) (state : TapState)
  /-- Sets the greatest clock rate in cycles per second, zero for none. -/
  | setFrequency (hz : Float)
  /-- Sets the pattern in front of each scan of a register. -/
  | setHeader (register : Register) (pattern : Pattern)
  /-- Sets the pattern behind each scan of a register. -/
  | setTrailer (register : Register) (pattern : Pattern)
  /-- Scans a pattern through a register, between the header and the trailer. -/
  | shift (register : Register) (pattern : Pattern) (label : Option String)
  /-- Idles. -/
  | runTest (test : RunTest)
  /-- Moves to a state, by the canonical route or through the given states. -/
  | goToState (target : TapState) (path : Option (List TapState))
  /-- A command that cannot be carried out. -/
  | unsupported (command : UnsupportedCommand)
  /-- An instruction of an unknown kind. -/
  | unknown
  deriving DecidableEq

/-- The command an instruction stands for, as it appears in a log. -/
def Instruction.name : Instruction → String
  | setEndState register _ => "END" ++ register.name
  | setFrequency _ => "FREQUENCY"
  | setHeader register _ => RegisterName.name ⟨.header, register⟩
  | setTrailer register _ => RegisterName.name ⟨.trailer, register⟩
  | shift register _ _ => RegisterName.name ⟨.payload, register⟩
  | runTest _ => "RUNTEST"
  | goToState _ _ => "STATE"
  | unsupported _ => "UNSUPPORTED"
  | unknown => "UNKNOWN"

end JtagPlayer
