import JtagPlayer.Bus.Basic

/-!
# A simulated bus

A `SimulatedBus` answers as it is told to and keeps a record of what it sees. It stands in for a
device when a program is rehearsed: it can echo what is sent to it, send it back late, recite a list
of levels, and fail at a chosen operation.
-/

namespace JtagPlayer

/-- What a simulated bus answers when it is sampled. -/
inductive AnswerRule where
  /-- The level of the data line. -/
  | echo
  /-- The other level. -/
  | invert
  /-- The next level of a list that is recited over and over. -/
  | recite
  /-- The exclusive or of both. -/
  | disturb
  /-- The level that the data line had some edges ago. -/
  | delayed
  deriving DecidableEq, Inhabited

/-- What a simulated bus keeps a record of. -/
inductive RecordRule where
  /-- The rising edges of the clock, each with the levels of TMS and TDI. -/
  | edges
  /-- Every operation. -/
  | operations
  | nothing
  deriving DecidableEq, Inhabited

/-- The state of a simulated bus. -/
structure SimulatedBus where
  answers : AnswerRule := .echo
  /-- The levels that are recited. -/
  recital : List Bool := [false]
  /-- The levels of the data line that have not come back yet, oldest first. -/
  underway : List Bool := []
  /-- The level that came back at the last edge. -/
  returned : Bool := false
  /-- Whether the bus cannot be acquired. -/
  refuses : Bool := false
  /-- The number of the write that fails. -/
  failingWrite : Option Nat := none
  /-- The number of the read that fails. -/
  failingRead : Option Nat := none
  tck : Bool := false
  tms : Bool := false
  tdi : Bool := false
  /-- The number of writes so far. -/
  writes : Nat := 0
  /-- The number of reads so far. -/
  reads : Nat := 0
  /-- How often the bus was acquired. -/
  acquisitions : Nat := 0
  /-- How often the bus was released. -/
  releases : Nat := 0
  records : RecordRule := .edges
  /-- The record, latest first. -/
  record : List Char := []

namespace SimulatedBus

/-- Adds to the record, if this rule is the one in force. -/
def note (rule : RecordRule) (entry : Char) (bus : SimulatedBus) : SimulatedBus :=
  if bus.records = rule then { bus with record := entry :: bus.record } else bus

/-- The digit for the levels of TMS and TDI at an edge. -/
def edgeDigit (bus : SimulatedBus) : Char :=
  match bus.tms, bus.tdi with
  | false, false => '0'
  | false, true => '1'
  | true, false => '2'
  | true, true => '3'

/-- The letter for a level on a line, upper case if it is high. -/
def lineLetter : Line → Bool → Char
  | .tck, level => if level then 'C' else 'c'
  | .tms, level => if level then 'M' else 'm'
  | .tdi, level => if level then 'D' else 'd'
  | .tdo, level => if level then 'R' else 'r'

/-- What happens at a rising edge: the level of the data line is sent and the oldest one underway
comes back. -/
def rise (bus : SimulatedBus) : SimulatedBus :=
  -- With no level underway the one just sent comes back at once.
  let underway := bus.underway ++ [bus.tdi]
  { bus with underway := underway.tail, returned := underway.headD false }.note .edges bus.edgeDigit

/-- Brings a line to a level. -/
def setLine (line : Line) (level : Bool) (bus : SimulatedBus) : SimulatedBus :=
  match line with
  | .tck => { if level && !bus.tck then bus.rise else bus with tck := level }
  | .tms => { bus with tms := level }
  | .tdi => { bus with tdi := level }
  | .tdo => bus

/-- The recited level of the read with a given number. -/
def recited (bus : SimulatedBus) (number : Nat) : Bool :=
  bus.recital.getD (number % bus.recital.length) false

/-- The answer to the read with a given number. -/
def answer (bus : SimulatedBus) (number : Nat) : Bool :=
  match bus.answers with
  | .echo => bus.tdi
  | .invert => !bus.tdi
  | .recite => bus.recited number
  | .disturb => bus.tdi ^^ bus.recited number
  | .delayed => bus.returned

/-- A failure of the simulated bus. -/
def failure (message : String) : IoError where
  kind := .other
  message := message

/-- Drives a line, unless this write is the one that fails. -/
def write (line : Line) (level : Bool) (bus : SimulatedBus) :
    Except IoError Unit × SimulatedBus :=
  let number := bus.writes
  let bus := { bus with writes := number + 1 }
  if bus.failingWrite = some number then (.error (failure s!"write {number} failed"), bus)
  else (.ok (), (bus.setLine line level).note .operations (lineLetter line level))

/-- Samples a line, unless this read is the one that fails. -/
def read (bus : SimulatedBus) : Except IoError Bool × SimulatedBus :=
  let number := bus.reads
  let bus := { bus with reads := number + 1 }
  if bus.failingRead = some number then (.error (failure s!"read {number} failed"), bus)
  else
    let level := bus.answer number
    (.ok level, bus.note .operations (lineLetter .tdo level))

/-- Acquires the bus, unless it refuses. -/
def acquire (bus : SimulatedBus) : Except IoError Unit × SimulatedBus :=
  let bus := { bus with acquisitions := bus.acquisitions + 1 }.note .operations 'i'
  (if bus.refuses then .error (failure "init failed") else .ok (), bus)

/-- Releases the bus. -/
def release (bus : SimulatedBus) : SimulatedBus :=
  { bus with releases := bus.releases + 1 }.note .operations 's'

/-- The record in order, and the bus with an empty one. -/
def takeRecord (bus : SimulatedBus) : String × SimulatedBus :=
  (String.ofList bus.record.reverse, { bus with record := [] })

instance : Bus SimulatedBus where
  acquire := acquire
  write := write
  read _ := read
  release := release

end SimulatedBus

end JtagPlayer
