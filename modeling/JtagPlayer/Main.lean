import JtagPlayer.Command.Execution

/-!
# The program

The command on a real system: the files, the clock and the standard streams of the process stand in
for its surroundings. Registers are reached through the file that holds them, word by word.
-/

namespace JtagPlayer

namespace Terminal

/-- The failure of a system call. -/
def failureOf (error : IO.Error) : IoError where
  kind :=
    match error with
    | .noFileOrDirectory .. => .notFound
    | .inappropriateType .. => .isADirectory
    | _ => .other
  message := toString error

/-- Makes a system call and returns its failure as a value. -/
def attempt {α : Type} (call : IO α) : IO (Except IoError α) := do
  match ← call.toBaseIO with
  | .ok result => pure (.ok result)
  | .error error => pure (.error (failureOf error))

/-- The bytes of a file. -/
def readBytes (path : Path) : IO (List UInt8) := do
  let bytes ← IO.FS.readBinFile path.text
  pure bytes.toList

/-- Puts bytes into a file, in place of all that it held. -/
def writeBytes (path : Path) (bytes : List UInt8) : IO Unit :=
  IO.FS.writeBinFile path.text ⟨bytes.toArray⟩

/-- Waits until the clock of the system has reached a deadline. -/
partial def waitUntil (deadline spinThreshold : Nat) : IO Unit := do
  let instant ← IO.monoNanosNow
  if instant < deadline then
    let milliseconds := (deadline - instant - spinThreshold) / 1000000
    if 0 < milliseconds then
      IO.sleep (UInt32.ofNat (min milliseconds 1000000))
    waitUntil deadline spinThreshold

end Terminal

instance : FileStore IO where
  pathExists path := do
    let result ← Terminal.attempt (IO.FS.Handle.mk path.text .read)
    pure result.isOk
  read path := Terminal.attempt (Terminal.readBytes path)
  write path contents := Terminal.attempt (Terminal.writeBytes path contents)
  connect path := do
    let result ← Terminal.attempt (IO.FS.Handle.mk path.text .readWrite)
    pure (result.map fun _ => ())
  overwrite path start := Terminal.attempt do
    let file ← IO.FS.Handle.mk path.text .readWrite
    file.write ⟨start.toArray⟩

/-- Access to the words in a file. -/
abbrev WordFile := ReaderT Path IO

instance : WordMemory WordFile where
  load index := fun path => do
    let bytes ← Terminal.readBytes path
    pure (Words.ofLittleEndian ((bytes.drop (4 * index)).take 4))
  store index word := fun path => do
    let bytes ← Terminal.readBytes path
    let before := bytes.take (4 * index)
    Terminal.writeBytes path (before ++ Words.littleEndian word ++ bytes.drop (4 * index + 4))

/-- A bus outside the program. -/
structure LiveBus where
  acquire : IO (Except IoError Unit)
  write : Line → Bool → IO (Except IoError Unit)
  read : Line → IO (Except IoError Bool)
  release : IO Unit

namespace LiveBus

/-- A bus inside the program. -/
def ofBus {β : Type} [Bus β] (state : IO.Ref β) : LiveBus where
  acquire := state.modifyGet Bus.acquire
  write line level := state.modifyGet (Bus.write line level)
  read line := state.modifyGet (Bus.read line)
  release := state.modify Bus.release

/-- A bus over pins behind the files of the system. -/
def ofFiles (state : IO.Ref PinFiles) : LiveBus where
  acquire := do
    let (result, files) ← (← state.get).acquire
    state.set files
    pure result
  write line level := do (← state.get).write line level
  read line := do (← state.get).read line
  release := do state.set (← (← state.get).release)

/-- A bus over pins behind the words in a file. -/
def ofRegisters (path : Path) (registers : PinRegisters) : LiveBus where
  acquire := registers.acquire (m := WordFile) path
  write line level := registers.write (m := WordFile) line level path
  read line := registers.read (m := WordFile) line path
  release := registers.release (m := WordFile) path

/-- Opens a bus. -/
def connect : Backend → IO (Except IoError LiveBus)
  | .loopback => do
    let state ← IO.mkRef ({} : LoopbackBus)
    pure (.ok (ofBus state))
  | .files root pins => do
    let state ← IO.mkRef ({ root, pins } : PinFiles)
    pure (.ok (ofFiles state))
  | .registers path pins => do
    let result ← PinRegisters.connect path pins
    pure (result.map (ofRegisters path))

/-- Makes a call. -/
def answer (bus : LiveBus) (threshold : LogLevel) : (call : Call) → IO call.Answer
  | .acquire => bus.acquire
  | .write line level => bus.write line level
  | .read line => bus.read line
  | .release => bus.release
  | .now => IO.monoNanosNow
  | .wait deadline spinThreshold => Terminal.waitUntil deadline spinThreshold
  | .note entry => do
    if threshold.rank ≤ entry.level.rank then IO.eprintln entry.line

/-- Holds a dialogue. -/
def hold {α : Type} (bus : LiveBus) (threshold : LogLevel) : Dialogue α → IO α
  | .done result => pure result
  | .call call next => do
    let answer ← bus.answer threshold call
    bus.hold threshold (next answer)

end LiveBus

/-- The surroundings of a process, in which notes from a given level on are shown. -/
abbrev Console := ReaderT LogLevel IO

instance : Surroundings Console where
  pathExists path := fun _ => FileStore.pathExists path
  read path := fun _ => FileStore.read path
  write path contents := fun _ => FileStore.write path contents
  connect path := fun _ => FileStore.connect path
  overwrite path start := fun _ => FileStore.overwrite path start
  input := fun _ => do
    let bytes ← (← IO.getStdin).readBinToEnd
    pure bytes.toList
  print bytes := fun _ => do (← IO.getStdout).write ⟨bytes.toArray⟩
  printError text := fun _ => IO.eprint text
  hold backend dialogue := fun threshold => do
    match ← LiveBus.connect backend with
    | .error error => pure (.error error)
    | .ok bus => do
      let result ← bus.hold threshold dialogue
      pure (.ok result)

namespace Command

/-- Carries out the command and reports why it could not be, if that is so. -/
def perform (command : Command) : IO UInt8 := do
  let threshold := if command.isVerbose then LogLevel.debug else LogLevel.info
  let status ← command.execute (m := Console) threshold
  match status with
  | .error error => IO.eprintln ("Error: " ++ error.message)
  | .abandoned => IO.eprintln Halt.overflowMessage
  | .success | .failure => pure ()
  pure status.code

end Command

/-- Does what the words of a command line ask for. -/
def Request.perform : Request → IO UInt8
  | .play command => command.perform
  | .help => do
    IO.print Command.usage
    pure 0
  | .refused => do
    IO.eprint Command.usage
    pure 2

end JtagPlayer

/-- The program. -/
def main (words : List String) : IO UInt32 := do
  let code ← (JtagPlayer.Command.ofArguments words).perform
  pure code.toUInt32
