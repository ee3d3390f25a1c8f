import JtagPlayer.Bus.Line
import JtagPlayer.Decimal.Layout
import JtagPlayer.Pattern

/-!
# Why a run stops

A run stops at the first instruction it cannot carry out. A `PlayError` tells whether the
instruction's parameters were at fault, the movement it asked for, the instruction itself, the
hardware, or the answer to a scan. Each has a text.
-/

namespace JtagPlayer

/-- Parameters that no bus is needed to refuse. -/
inductive ParameterError where
  | pattern (error : PatternError)
  | invalidFrequency (hz : Float)
  | invalidDuration (seconds : Float)
  deriving DecidableEq

namespace ParameterError

/-- The text that reports refused parameters. -/
def message : ParameterError → String
  | pattern error => error.message
  | invalidFrequency hz =>
    "Invalid frequency " ++ String.ofList (NumberFormat.message.write hz) ++ " Hz"
  | invalidDuration seconds =>
    "Invalid duration " ++ String.ofList (NumberFormat.message.write seconds) ++ " s"

end ParameterError

/-- A movement that the test access port cannot make. -/
inductive MoveError where
  /-- A step to a state that is more than one clock away. -/
  | notNeighbour (start target : TapState)
  /-- A route from or to a state that is not stable. -/
  | noRoute (start target : TapState)
  /-- An end state that is not stable. -/
  | notStable (state : TapState)
  deriving DecidableEq

namespace MoveError

/-- The text that reports an impossible movement. -/
def message : MoveError → String
  | notNeighbour start target =>
    s!"{target.name} is not a neighbour of the current state {start.name}"
  | noRoute start target => s!"No route from {start.name} to {target.name}"
  | notStable state => s!"{state.name} is not a stable state"

end MoveError

/-- Why a run stops before its last instruction. -/
inductive PlayError where
  | parameter (error : ParameterError)
  | move (error : MoveError)
  | unsupported (what : String)
  | hardware (error : IoError)
  | verification (label : String)
  deriving DecidableEq

namespace PlayError

/-- The text that reports why a run stopped. -/
def message : PlayError → String
  | parameter error => error.message
  | move error => error.message
  | unsupported what => s!"{what} is currently not implemented"
  | hardware error => s!"GPIO error: {error.message}"
  | verification label => s!"Verification of {label} failed"

end PlayError

end JtagPlayer
