import JtagPlayer.Bus.Basic
import JtagPlayer.Bus.PinNumbers
import JtagPlayer.Files.Store
import JtagPlayer.Text.Ascii

/-!
# Pins behind files

Linux shows each general-purpose pin as a directory with a file for its direction and one for its
level. `PinFiles` drives a bus through such directories. Acquiring it makes sure that each pin has
its directory, by writing its number to a file named `export`, chooses the directions and connects
to the level files; nothing can be driven or sampled before. Releasing it turns every pin into an
input.

All operations work on any file store. On a tree of plain files they make a bus, a `PinFileBus`.
-/

namespace JtagPlayer

/-- Pins that are driven through files below a directory. -/
structure PinFiles where
  root : Path
  pins : PinNumbers
  /-- Whether the level files are connected. -/
  isConnected : Bool := false
  deriving DecidableEq

namespace IoError

/-- The pins are not in use. -/
def notInitialized : IoError where
  kind := .notConnected
  message := "GPIOs not initialized"

/-- A file that should hold a level is empty. -/
def noLevel : IoError where
  kind := .unexpectedEof
  message := "failed to fill whole buffer"

end IoError

namespace PinFiles

/-- The directory of a pin. -/
def directory (files : PinFiles) (pin : Nat) : Path :=
  files.root.child ("gpio" ++ toString pin)

/-- The file for the direction of a pin. -/
def directionFile (files : PinFiles) (pin : Nat) : Path :=
  (files.directory pin).child "direction"

/-- The file for the level of a pin. -/
def levelFile (files : PinFiles) (pin : Nat) : Path :=
  (files.directory pin).child "value"

/-- The text for a level. -/
def levelText (level : Bool) : List UInt8 :=
  [if level then 0x31 else 0x30]

/-- The level that a file holds, by its first byte. -/
def levelOf : List UInt8 → Except IoError Bool
  | [] => .error .noLevel
  | byte :: _ => .ok (byte == 0x31)

variable {m : Type → Type} [Monad m] [FileStore m]

/-- Makes sure that a pin has a directory. -/
def exportPin (files : PinFiles) (pin : Nat) : m (Except IoError Unit) := do
  if ← FileStore.pathExists (files.directory pin) then
    pure (.ok ())
  else
    FileStore.write (files.root.child "export") (Text.toBytes (toString pin))

/-- Chooses the direction of a pin. -/
def setDirection (files : PinFiles) (pin : Nat) (direction : String) :
    m (Except IoError Unit) :=
  FileStore.write (files.directionFile pin) (Text.toBytes direction)

/-- Brings a pin into use, with a direction. -/
def configure (files : PinFiles) (pin : Nat) (direction : String) :
    ExceptT IoError m Unit := do
  ExceptT.mk (files.exportPin pin)
  ExceptT.mk (files.setDirection pin direction)
  ExceptT.mk (FileStore.connect (files.levelFile pin))

/-- The directions of the pins, in the order in which they are chosen. -/
def directions (files : PinFiles) : List (Nat × String) :=
  files.pins.outputs.map (·, "low") ++ [(files.pins.tdo, "in")]

/-- Brings pins into use, one after the other, up to the first that fails. -/
def configureAll (files : PinFiles) : List (Nat × String) → ExceptT IoError m Unit
  | [] => pure ()
  | (pin, direction) :: rest => do
    files.configure pin direction
    files.configureAll rest

/-- Brings all pins into use. If that fails the pins stay connected if they were before. -/
def acquire (files : PinFiles) : m (Except IoError Unit × PinFiles) := do
  match ← (files.configureAll files.directions).run with
  | .ok () => pure (.ok (), { files with isConnected := true })
  | .error error => pure (.error error, files)

/-- Drives an output. -/
def write (line : Line) (level : Bool) (files : PinFiles) : m (Except IoError Unit) :=
  if !files.isConnected then pure (.error .notInitialized)
  else if line = .tdo then pure (.error .notDriven)
  else FileStore.overwrite (files.levelFile (files.pins.ofLine line)) (levelText level)

/-- Samples the input. -/
def read (line : Line) (files : PinFiles) : m (Except IoError Bool) :=
  if line ≠ .tdo then pure (.error (.notSampled line))
  else if !files.isConnected then pure (.error .notInitialized)
  else do
    let contents ← FileStore.read (files.levelFile files.pins.tdo)
    pure (contents.bind levelOf)

/-- Turns pins into inputs, as far as possible. -/
def releaseAll (files : PinFiles) : List Nat → m Unit
  | [] => pure ()
  | pin :: pins => do
    let _ ← files.setDirection pin "in"
    files.releaseAll pins

/-- Takes all pins out of use. -/
def release (files : PinFiles) : m PinFiles := do
  files.releaseAll files.pins.all
  pure { files with isConnected := false }

end PinFiles

/-- A bus over pins behind plain files. -/
structure PinFileBus where
  files : PinFiles
  tree : FileTree
  deriving DecidableEq

namespace PinFileBus

/-- Carries out an operation that leaves the pins in the state they are in. -/
def perform {α : Type} (bus : PinFileBus) (operation : StateM FileTree α) : α × PinFileBus :=
  let (result, tree) := operation.run bus.tree
  (result, { bus with tree })

instance : Bus PinFileBus where
  acquire bus :=
    let ((result, files), tree) := (bus.files.acquire (m := StateM FileTree)).run bus.tree
    (result, { files, tree })
  write line level bus := bus.perform (bus.files.write line level)
  read line bus := bus.perform (bus.files.read line)
  release bus :=
    let (files, tree) := (bus.files.release (m := StateM FileTree)).run bus.tree
    { files, tree }

end PinFileBus

end JtagPlayer
