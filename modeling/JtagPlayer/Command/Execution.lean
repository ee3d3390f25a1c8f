import JtagPlayer.Bus.Loopback
import JtagPlayer.Bus.PinFiles
import JtagPlayer.Bus.PinRegisters
import JtagPlayer.Command.Basic
import JtagPlayer.Fault.Writer
import JtagPlayer.Instruction.Reader
import JtagPlayer.Player

/-!
# Carrying out the command

`Command.execute` reads a program, plays it on the chosen bus and writes the report. It does so in
any `Surroundings`, which have files, an input, two outputs and buses. A `Desk` has them as values,
and with a clock it is such surroundings.

A program that cannot be read is not played, and nothing is written then. A report is written
whether or not the program was carried out to its end.
-/

namespace JtagPlayer

/-- What the command finds around it, as an effect. -/
class Surroundings (m : Type → Type) extends FileStore m where
  /-- The input of the command, to its end. -/
  input : m (List UInt8)
  /-- Writes to the output. -/
  print : List UInt8 → m Unit
  /-- Writes to the output for errors. -/
  printError : String → m Unit
  /-- Holds a dialogue over a bus, if it can be opened. -/
  hold : {α : Type} → Backend → Dialogue α → m (Except IoError α)

/-- Why the command cannot be carried out. -/
inductive CommandError where
  /-- The file with the program cannot be read. -/
  | input (error : IoError)
  /-- The input is no program. -/
  | program (failure : ReadFailure)
  /-- The bus cannot be opened. -/
  | backend (error : IoError)
  /-- The report cannot be written. -/
  | report (error : IoError)
  deriving DecidableEq

namespace CommandError

/-- The text that reports why the command cannot be carried out. -/
def message : CommandError → String
  | input error => error.message
  | program _ => "Malformed instruction stream"
  | backend error => error.message
  | report error => error.message

end CommandError

/-- How the command ends. -/
inductive ExitStatus where
  | success
  /-- The program was not carried out to its end, and that was reported. -/
  | failure
  | error (error : CommandError)
  /-- The program was abandoned and there is no report. -/
  | abandoned
  deriving DecidableEq

/-- The number that a process returns. -/
def ExitStatus.code : ExitStatus → UInt8
  | success => 0
  | failure => 1
  | error _ => 1
  | abandoned => 101

namespace Command

variable {m : Type → Type} [Monad m] [Surroundings m]

/-- Reported if no bus is chosen and none is found. -/
def noBackendMessage : String :=
  "No GPIO device could be auto detected. Use svf-player <input> gpiomem <path>, " ++
    "svf-player <input> sysfs or svf-player <input> loopback to select a backend.\n"

/-- The bytes of the program. -/
def readInput : Option Path → m (Except IoError (List UInt8))
  | none => do
    let bytes ← Surroundings.input
    pure (.ok bytes)
  | some path => FileStore.read path

/-- The program. -/
def readProgram (input : Option Path) : m (Except CommandError (List Instruction)) := do
  match ← readInput input with
  | .error error => pure (.error (.input error))
  | .ok bytes => pure ((Program.read bytes).mapError .program)

/-- The bus to play on, if there is one: the one that was chosen or one that is found. -/
def findBackend : Option Backend → m (Option Backend)
  | some backend => pure (some backend)
  | none => do
    if ← FileStore.pathExists Backend.registersPath then
      pure (some (.registers Backend.registersPath {}))
    else pure none

/-- Writes a report. -/
def writeReport (report : FaultReport) : Option Path → m (Except IoError Unit)
  | none => do
    Surroundings.print report.write
    pure (.ok ())
  | some path => FileStore.write path report.write

/-- Reports on a run that is over. -/
def conclude (output : Option Path) (outcome : RunOutcome) : m ExitStatus := do
  match outcome.report? with
  | none => pure .abandoned
  | some report =>
    match ← writeReport report.faults output with
    | .error error => pure (.error (.report error))
    | .ok () =>
      match outcome.error? with
      | none => pure .success
      | some error => do
        Surroundings.printError (error.message ++ "\n")
        pure .failure

/-- Plays a program on a bus, if it can be opened. -/
def playOn (command : Command) (program : List Instruction) (backend : Backend) :
    m ExitStatus := do
  match ← Surroundings.hold backend (Player.run command.config program) with
  | .error error => pure (.error (.backend error))
  | .ok outcome => conclude command.output outcome

/-- Reads the program, plays it, and writes the report. -/
def execute (command : Command) : m ExitStatus := do
  match ← readProgram command.input with
  | .error error => pure (.error error)
  | .ok program =>
    match ← findBackend command.backend with
    | none => do
      Surroundings.printError noBackendMessage
      pure .failure
    | some backend => command.playOn program backend

end Command

/-- Opens the registers that a file gives access to. The pins are checked first. -/
def PinRegisters.connect {m : Type → Type} [Monad m] [FileStore m] (path : Path)
    (pins : PinNumbers) : m (Except IoError PinRegisters) :=
  match PinRegisters.ofPins pins with
  | .error error => pure (.error error)
  | .ok registers => do
    let result ← FileStore.connect path
    pure (result.map fun () => registers)

/-- Files, an input and two outputs. -/
structure Desk where
  tree : FileTree := {}
  input : List UInt8 := []
  output : List UInt8 := []
  errors : String := ""
  deriving DecidableEq

namespace Desk

/-- Carries out an operation on the files. -/
def onTree {α : Type} (operation : StateM FileTree α) : StateM Desk α := fun desk =>
  let (result, tree) := operation.run desk.tree
  (result, { desk with tree })

instance : FileStore (StateM Desk) where
  pathExists path := onTree (FileStore.pathExists path)
  read path := onTree (FileStore.read path)
  write path contents := onTree (FileStore.write path contents)
  connect path := onTree (FileStore.connect path)
  overwrite path start := onTree (FileStore.overwrite path start)

variable {τ : Type} [Clock τ]

/-- Plays a dialogue on the registers in a file. -/
def holdRegisters {α : Type} (clock : τ) (registers : PinRegisters) (path : Path)
    (dialogue : Dialogue α) : StateM FileTree (Except IoError α) := do
  match ← FileStore.read path with
  | .error error => pure (.error error)
  | .ok bytes => do
    let bus : PinRegisterBus := { registers, words := Words.ofBytes PinRegisters.blockSize bytes }
    let (result, bench) := dialogue.play { bus, clock }
    -- Words beyond the end of a shorter file are not kept.
    let changed ← FileStore.overwrite path (bench.bus.words.toBytes.take bytes.length)
    pure (changed.map fun () => result)

/-- Plays a dialogue on a bus. -/
def hold {α : Type} (clock : τ) (dialogue : Dialogue α) :
    Backend → StateM FileTree (Except IoError α)
  | .loopback =>
    let bus : LoopbackBus := {}
    pure (.ok (dialogue.play { bus, clock }).1)
  | .files root pins => fun tree =>
    let bus : PinFileBus := { files := { root, pins }, tree }
    let (result, bench) := dialogue.play { bus, clock }
    (.ok result, bench.bus.tree)
  | .registers path pins => do
    match ← PinRegisters.connect path pins with
    | .error error => pure (.error error)
    | .ok registers => holdRegisters clock registers path dialogue

/-- What a command finds at a desk, if a clock stands as given when it opens a bus. -/
@[reducible] def surroundings (clock : τ) : Surroundings (StateM Desk) where
  input := fun desk => (desk.input, { desk with input := [] })
  print bytes := fun desk => ((), { desk with output := desk.output ++ bytes })
  printError text := fun desk => ((), { desk with errors := desk.errors ++ text })
  hold backend dialogue := onTree (hold clock dialogue backend)

/-- Unless another clock is given, it moves in waits only. -/
instance : Surroundings (StateM Desk) :=
  surroundings ({} : IdealClock)

end Desk

end JtagPlayer
