import JtagPlayer.Fault.Basic
import JtagPlayer.Scan.Segments
import JtagPlayer.Tap.Driver

/-!
# What a run remembers

A `Session` is what carries over from one instruction of a run to the next: what is known of the
device, the stored patterns, the states that scans end in, and the faults so far. A run begins with
`Session.initial` and nothing carries over to the next run.
-/

namespace JtagPlayer

/-- The stored patterns: header, payload and trailer of both registers. -/
structure Registers where
  data : Segments := {}
  instruction : Segments := {}
  deriving DecidableEq, Inhabited

namespace Registers

/-- The patterns that a scan of a register sends. -/
def segments (registers : Registers) : Register → Segments
  | .data => registers.data
  | .instruction => registers.instruction

/-- Replaces the patterns of a register. -/
def setSegments (registers : Registers) (segments : Segments) : Register → Registers
  | .data => { registers with data := segments }
  | .instruction => { registers with instruction := segments }

/-- The pattern with a given name. -/
def get (registers : Registers) (name : RegisterName) : Pattern :=
  (registers.segments name.register).get name.role

/-- Replaces the pattern with a given name. -/
def set (registers : Registers) (name : RegisterName) (pattern : Pattern) : Registers :=
  registers.setSegments ((registers.segments name.register).set pattern name.role) name.register

/-- Merges a change into the pattern with a given name. -/
def update (registers : Registers) (name : RegisterName) (delta : Pattern) :
    Except PatternError Registers :=
  ((registers.get name).merge name delta).map (registers.set name)

@[simp] theorem segments_setSegments (registers : Registers) (segments : Segments)
    (register : Register) : (registers.setSegments segments register).segments register =
      segments := by
  cases register <;> rfl

/-- A pattern that was set is found again. -/
@[simp] theorem get_set (registers : Registers) (name : RegisterName) (pattern : Pattern) :
    (registers.set name pattern).get name = pattern := by
  simp [get, set]

/-- Setting a pattern leaves the others alone. -/
theorem get_set_of_ne (registers : Registers) (pattern : Pattern) {name other : RegisterName}
    (hother : other ≠ name) : (registers.set name pattern).get other = registers.get other := by
  obtain ⟨role, register⟩ := name
  obtain ⟨otherRole, otherRegister⟩ := other
  by_cases hregister : otherRegister = register
  · subst hregister
    have hrole : otherRole ≠ role := fun h => hother (by rw [h])
    simp [get, set, Segments.get_set_of_ne _ _ hrole]
  · cases register <;> cases otherRegister <;> simp_all [get, set, setSegments, segments]

end Registers

/-- The two choices a player leaves open. -/
structure PlayerConfig where
  /-- Whether a run goes on after a scan that returned something else than expected. -/
  continueOnFault : Bool := false
  /-- The part of a wait that is not slept. -/
  spinThreshold : Nat := 2000 * Duration.microsecond
  deriving DecidableEq

/-- What carries over from one instruction of a run to the next. -/
structure Session where
  tap : TapDriver
  registers : Registers := {}
  /-- The state that scans of the data register end in. -/
  endData : TapState := .idle
  /-- The state that scans of the instruction register end in. -/
  endInstruction : TapState := .idle
  continueOnFault : Bool
  report : FaultReport := {}
  deriving DecidableEq

namespace Session

/-- A session before the first clock. -/
def initial (config : PlayerConfig) : Session where
  tap := { spinThreshold := config.spinThreshold }
  continueOnFault := config.continueOnFault

/-- The state that scans of a register end in. -/
def endState (session : Session) : Register → TapState
  | .data => session.endData
  | .instruction => session.endInstruction

/-- Chooses the state that scans of a register end in, if it is stable. -/
def setEndState (session : Session) (register : Register) (state : TapState) :
    Except MoveError Session :=
  if state.isStable then
    .ok <| match register with
      | .data => { session with endData := state }
      | .instruction => { session with endInstruction := state }
  else .error (.notStable state)

/-- Merges a change into a stored pattern. -/
def update (session : Session) (name : RegisterName) (delta : Pattern) :
    Except PatternError Session :=
  (session.registers.update name delta).map fun registers => { session with registers }

/-- Adds a fault to the report. -/
def addFault (fault : Fault) (session : Session) : Session :=
  { session with report := session.report.push fault }

end Session

end JtagPlayer
