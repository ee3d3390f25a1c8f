import JtagPlayer.Instruction.Basic
import JtagPlayer.Scan.Shift
import JtagPlayer.Session

/-!
# Playing instructions

`Player.run` plays a list of instructions on a bus: it acquires the bus, moves the device to the
reset state, carries out one instruction after the other, and releases the bus whatever happens.
What it leaves behind is a `RunReport`, together with the error that stopped it, if there was one.

`Player.execute` carries out a single instruction. Parameters are checked before the bus is used.
-/

namespace JtagPlayer

/-- What a run leaves behind. -/
structure RunReport where
  faults : FaultReport
  /-- The state in which the last clock left the device. -/
  finalState : TapState
  /-- The number of rising edges. -/
  clockPulses : Nat
  /-- How long the run took. -/
  elapsed : Nat
  deriving DecidableEq

namespace RunReport

/-- Whether there is any fault. -/
def isFailed (report : RunReport) : Bool :=
  report.faults.isFailed

/-- The report of a run that could not begin. -/
def unstarted (elapsed : Nat) : RunReport where
  faults := {}
  finalState := .reset
  clockPulses := 0
  elapsed := elapsed

/-- The report of a run that ended in a session. -/
def ofSession (session : Session) (elapsed : Nat) : RunReport where
  faults := session.report
  finalState := session.tap.state
  clockPulses := session.tap.pulses
  elapsed := elapsed

end RunReport

/-- How a run ends. -/
inductive RunOutcome where
  /-- All instructions were carried out. -/
  | completed (report : RunReport)
  /-- An error stopped it. -/
  | stopped (error : PlayError) (report : RunReport)
  /-- It would have had to wait for a time that no clock reaches. -/
  | abandoned
  deriving DecidableEq

namespace RunOutcome

/-- The report of a run, unless it was abandoned. -/
def report? : RunOutcome → Option RunReport
  | completed report => some report
  | stopped _ report => some report
  | abandoned => none

/-- The error that stopped a run. -/
def error? : RunOutcome → Option PlayError
  | stopped error _ => some error
  | _ => none

end RunOutcome

namespace Player

/-- An action on the driver of a session. -/
def onTap {α : Type} (action : Action TapDriver α) : Action Session α :=
  Action.on Session.tap (fun session tap => { session with tap }) action

/-- Stops at an impossible movement, and otherwise goes on with the new session. -/
def setEndState (register : Register) (state : TapState) : Action Session Unit := do
  let session ← Action.get
  let session ← Action.ofMove (session.setEndState register state)
  Action.modify fun _ => session

/-- Merges a change into a stored pattern and returns the pattern that is stored then. -/
def update (name : RegisterName) (delta : Pattern) : Action Session Pattern := do
  let session ← Action.get
  let session ← Action.ofParameter ((session.update name delta).mapError .pattern)
  Action.modify fun _ => session
  let pattern := session.registers.get name
  Action.note (.updated name pattern)
  pure pattern

/-- Limits the clock rate. -/
def setFrequency (hz : Float) : Action Session Unit := do
  onTap (TapDriver.setFrequency hz)
  let session ← Action.get
  Action.note (.clockDelay session.tap.delay)

/-- Moves to a stable state along the canonical route. -/
def routeTo (target : TapState) : Action Session Unit :=
  onTap (TapDriver.routeTo target)

/-- The route to a state, if one is given. -/
def routeToGiven : Option TapState → Action Session Unit
  | none => pure ()
  | some target => routeTo target

/-- Whether the bytes received are the expected ones. If not, the scan is recorded as a fault. -/
def compare (name : RegisterName) (label : Option String) (pattern : Pattern)
    (observed : List UInt8) : Action Session Bool :=
  if pattern.accepts observed then pure true
  else do
    Action.note (.mismatch name label (pattern.tdo.getD []) observed)
    Action.modify (Session.addFault (.ofScan label pattern observed))
    pure false

/-- Stops after a scan that did not pass, unless faults are only recorded. -/
def conclude (passed : Bool) (label : Option String) : Action Session Unit := do
  let session ← Action.get
  if passed || session.continueOnFault then pure ()
  else Action.fail (.verification (label.getD Fault.unlabeled))

/-- Leaves a scan: one clock to the pause state, and the route to the end state of the register. -/
def leaveScan (register : Register) : Action Session Unit := do
  let _ ← onTap (TapDriver.clock false false)
  let session ← Action.get
  routeTo (session.endState register)

/-- Scans a pattern through a register, between its header and its trailer, and moves to the end
state of that register. A scan that does not pass stops the run only after that. -/
def scan (register : Register) (delta : Pattern) (label : Option String) :
    Action Session Unit := do
  let name : RegisterName := ⟨.payload, register⟩
  let _ ← update name delta
  routeTo register.shiftState
  let session ← Action.get
  let segments := session.registers.segments register
  let samples ← onTap segments.shift
  -- What is compared is the stored pattern, whose mask may be that of an earlier scan.
  let passed ← compare name label segments.payload samples.payload
  leaveScan register
  conclude passed label

/-- The duration of a number of seconds; a negative or too large number stops the run. -/
def duration (seconds : Float) : Action Session Nat :=
  Action.ofParameter <|
    match Duration.ofSeconds? seconds with
    | some duration => .ok duration
    | none => .error (.invalidDuration seconds)

/-- The duration of an optional number of seconds. -/
def optionalDuration : Option Float → Action Session (Option Nat)
  | none => pure none
  | some seconds => do
    let duration ← duration seconds
    pure (some duration)

/-- Whether more than the permitted time has passed since `start`. -/
def isOver (start : Nat) : Option Nat → Action Session Bool
  | none => pure false
  | some maxTime => do
    let instant ← Action.now
    pure (maxTime < instant - start)

/-- Gives the remaining clocks of `count`, as long as the time permitted since `start` is not
over. -/
def idle (start : Nat) (maxTime : Option Nat) (count : Nat) : Nat → Action Session Unit
  | 0 => pure ()
  | remaining + 1 => do
    let isLate ← isOver start maxTime
    if isLate then
      Action.note (.timeExceeded (maxTime.getD 0) (count - (remaining + 1)) count)
    else do
      let _ ← onTap (TapDriver.clock false false)
      idle start maxTime count remaining

/-- Waits until some time after an instant. -/
def waitFor (start duration : Nat) : Action Session Unit := do
  let session ← Action.get
  Action.waitFor start duration session.tap.spinThreshold

/-- Idles in a state for a number of clocks and at least for a time, both counted from the
beginning. A longest time of zero is no limit. -/
def runTest (test : RunTest) : Action Session Unit := do
  let minTime ← duration test.minTime
  let maxTime ← optionalDuration test.maxTime
  let start ← Action.now
  let session ← Action.get
  routeToGiven (test.runState.filter (· ≠ session.tap.state))
  let count := test.runCount.toNat
  idle start (maxTime.filter (· ≠ 0)) count count
  -- What is left of the least time passes without clocks.
  waitFor start minTime
  routeToGiven test.endState

/-- Carries out one instruction. -/
def execute : Instruction → Action Session Unit
  | .setEndState register state => setEndState register state
  | .setFrequency hz => setFrequency hz
  | .setHeader register pattern => do
    let _ ← update ⟨.header, register⟩ pattern
    pure ()
  | .setTrailer register pattern => do
    let _ ← update ⟨.trailer, register⟩ pattern
    pure ()
  | .shift register pattern label => scan register pattern label
  | .runTest test => runTest test
  | .goToState target none => routeTo target
  | .goToState target (some path) => onTap (TapDriver.walkPath (path ++ [target]))
  | .unsupported command => Action.fail (.unsupported command.name)
  | .unknown => Action.fail (.unsupported "Unknown instruction")

/-- Carries out instructions in order, the first of which is number `index`. -/
def executeFrom (index : Nat) : List Instruction → Action Session Unit
  | [] => pure ()
  | instruction :: program => do
    Action.note (.instruction instruction.name index)
    execute instruction
    executeFrom (index + 1) program

/-- Moves the device to the reset state and carries out a program. -/
def executeAll (program : List Instruction) : Action Session Unit := do
  onTap TapDriver.reset
  executeFrom 0 program

/-- Releases the bus and reports on a session that ended well, or with the reason given. -/
def finish (start : Nat) (session : Session) : Except Halt Unit → Dialogue RunOutcome
  -- Nobody is left to release the bus.
  | .error .deadlineOverflow => pure .abandoned
  | .error (.failed error) => do
    Dialogue.ask .release
    let instant ← Dialogue.ask .now
    Dialogue.ask (.note (.stopped error))
    pure (.stopped error (.ofSession session (instant - start)))
  | .ok () => do
    Dialogue.ask .release
    let instant ← Dialogue.ask .now
    pure (.completed (.ofSession session (instant - start)))

/-- Plays a program. -/
def run (config : PlayerConfig) (program : List Instruction) : Dialogue RunOutcome := do
  let start ← Dialogue.ask .now
  Dialogue.ask (.note (.executing program.length))
  match ← Dialogue.ask .acquire with
  | .error error => do
    Dialogue.ask (.note (.notInitialized error))
    let instant ← Dialogue.ask .now
    pure (.stopped (.hardware error) (.unstarted (instant - start)))
  | .ok () => do
    let (result, session) ← executeAll program (.initial config)
    finish start session result

end Player

end JtagPlayer
