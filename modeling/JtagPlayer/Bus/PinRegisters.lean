import JtagPlayer.Bus.Basic
import JtagPlayer.Bus.PinNumbers

/-!
# Pins behind registers

Some boards control their general-purpose pins by a block of 32-bit registers: three bits for the
function of each pin, ten pins to a word, and one bit for each pin in the registers that set a
level, clear it and show it, 32 pins to a word. `PinRegisters` drives a bus through them. Acquiring
it makes the outputs low before it makes them outputs, and releasing it turns every pin into an
input.

All operations work on any memory of words. On plain words they make a bus, a `PinRegisterBus`.
-/

namespace JtagPlayer

/-- A memory of 32-bit words, as an effect. -/
class WordMemory (m : Type → Type) where
  /-- The word with a given index. -/
  load : Nat → m UInt32
  /-- Stores a word at an index. -/
  store : Nat → UInt32 → m Unit

/-- The words of a plain memory. -/
abbrev Words := List UInt32

namespace Words

/-- The word that begins with the first of some bytes, least significant byte first. -/
def ofLittleEndian (bytes : List UInt8) : UInt32 :=
  bytes.foldr (fun byte word => (word <<< 8) ||| byte.toUInt32) 0

/-- A number of words from their bytes. Bytes that are missing are zero. -/
def ofBytes : Nat → List UInt8 → Words
  | 0, _ => []
  | count + 1, bytes => ofLittleEndian (bytes.take 4) :: ofBytes count (bytes.drop 4)

/-- The bytes of a word, least significant first. -/
def littleEndian (word : UInt32) : List UInt8 :=
  [word.toUInt8, (word >>> 8).toUInt8, (word >>> 16).toUInt8, (word >>> 24).toUInt8]

/-- The bytes of words. -/
def toBytes (words : Words) : List UInt8 :=
  words.flatMap littleEndian

end Words

instance : WordMemory (StateM Words) where
  load index := fun words => (words.getD index 0, words)
  store index word := fun words => ((), words.set index word)

/-- The function of a pin. -/
inductive PinFunction where
  | input
  | output
  deriving DecidableEq

/-- The bits that select a function. -/
def PinFunction.bits : PinFunction → UInt32
  | .input => 0
  | .output => 1

/-- Four pins that are driven through registers. -/
structure PinRegisters where
  pins : PinNumbers
  deriving DecidableEq

namespace PinRegisters

/-- The greatest number of a pin. -/
def lastPin : Nat := 53

/-- The number of words in the block. -/
def blockSize : Nat := 1024

/-- The first word that selects functions. -/
def functionBase : Nat := 0
/-- The first word that sets levels. -/
def setBase : Nat := 7
/-- The first word that clears levels. -/
def clearBase : Nat := 10
/-- The first word that shows levels. -/
def levelBase : Nat := 13

/-- There is no such pin. -/
def outOfRange (pin : Nat) : IoError where
  kind := .invalidInput
  message := s!"GPIO {pin} is out of range (0-{lastPin})"

/-- The registers for four pins, all of which must exist. -/
def ofPins (pins : PinNumbers) : Except IoError PinRegisters :=
  match pins.all.find? (lastPin < ·) with
  | some pin => .error (outOfRange pin)
  | none => .ok { pins }

/-- The word that selects the function of a pin. -/
def functionIndex (pin : Nat) : Nat :=
  functionBase + pin / 10

/-- The position of a pin's function in its word. -/
def functionShift (pin : Nat) : UInt32 :=
  UInt32.ofNat (3 * (pin % 10))

/-- The word of a pin among those that begin with a given one. -/
def bankIndex (base pin : Nat) : Nat :=
  base + pin / 32

/-- The bit of a pin in its word. -/
def bankBit (pin : Nat) : UInt32 :=
  1 <<< UInt32.ofNat (pin % 32)

/-- A word with the function of one pin replaced. -/
def withFunction (word : UInt32) (pin : Nat) (function : PinFunction) : UInt32 :=
  (word &&& ~~~(7 <<< functionShift pin)) ||| (function.bits <<< functionShift pin)

variable {m : Type → Type} [Monad m] [WordMemory m]

/-- Selects the function of a pin. -/
def selectFunction (pin : Nat) (function : PinFunction) : m Unit := do
  let word ← WordMemory.load (functionIndex pin)
  WordMemory.store (functionIndex pin) (withFunction word pin function)

/-- Drives a pin. -/
def drivePin (pin : Nat) (level : Bool) : m Unit :=
  WordMemory.store (bankIndex (if level then setBase else clearBase) pin) (bankBit pin)

/-- Makes pins low outputs. -/
def makeOutputs : List Nat → m Unit
  | [] => pure ()
  | pin :: pins => do
    -- The pin must not drive a level left over from before.
    drivePin pin false
    selectFunction pin .output
    makeOutputs pins

/-- Makes pins inputs. -/
def makeInputs : List Nat → m Unit
  | [] => pure ()
  | pin :: pins => do
    selectFunction pin .input
    makeInputs pins

/-- Brings all pins into use. -/
def acquire (registers : PinRegisters) : m (Except IoError Unit) := do
  makeOutputs registers.pins.outputs
  selectFunction registers.pins.tdo .input
  pure (.ok ())

/-- Drives an output. -/
def write (line : Line) (level : Bool) (registers : PinRegisters) : m (Except IoError Unit) :=
  if line = .tdo then pure (.error .notDriven)
  else do
    drivePin (registers.pins.ofLine line) level
    pure (.ok ())

/-- Samples a line. -/
def read (line : Line) (registers : PinRegisters) : m (Except IoError Bool) := do
  let pin := registers.pins.ofLine line
  let word ← WordMemory.load (bankIndex levelBase pin)
  pure (.ok (word &&& bankBit pin != 0))

/-- Takes all pins out of use. -/
def release (registers : PinRegisters) : m Unit :=
  makeInputs registers.pins.all

end PinRegisters

/-- A bus over pins behind plain words. -/
structure PinRegisterBus where
  registers : PinRegisters
  words : Words
  deriving DecidableEq

namespace PinRegisterBus

/-- Carries out an operation on the words. -/
def perform {α : Type} (bus : PinRegisterBus) (operation : StateM Words α) :
    α × PinRegisterBus :=
  let (result, words) := operation.run bus.words
  (result, { bus with words })

instance : Bus PinRegisterBus where
  acquire bus := bus.perform bus.registers.acquire
  write line level bus := bus.perform (bus.registers.write line level)
  read line bus := bus.perform (bus.registers.read line)
  release bus := (bus.perform bus.registers.release).2

end PinRegisterBus

end JtagPlayer
