import JtagPlayer.Bus.PinNumbers
import JtagPlayer.Command.Arguments
import JtagPlayer.Files.Path
import JtagPlayer.Session

/-!
# The command

The command plays one program on one bus and writes its report. A `Command` holds what its arguments
say: where the program comes from, where the report goes, which bus is used, and how the program is
played. `Command.ofArguments` reads it off the words of a command line.
-/

namespace JtagPlayer

/-- The buses that can be chosen. -/
inductive Backend where
  /-- Pins behind the registers that a file gives access to. -/
  | registers (path : Path) (pins : PinNumbers)
  /-- Pins behind the files below a directory. -/
  | files (root : Path) (pins : PinNumbers)
  /-- No device. -/
  | loopback
  deriving DecidableEq

namespace Backend

/-- Where the registers are found if no other place is given. -/
def registersPath : Path := Path.ofText "/dev/gpiomem"

/-- Where the pin files are found if no other place is given. -/
def filesRoot : Path := Path.ofText "/sys/class/gpio"

end Backend

/-- What the arguments of the command say. -/
structure Command where
  /-- The file with the program, if it is not the input of the command. -/
  input : Option Path := none
  /-- The file for the report, if it is not the output of the command. -/
  output : Option Path := none
  config : PlayerConfig := {}
  /-- Whether every instruction is traced. -/
  isVerbose : Bool := false
  /-- The bus, if it is not to be detected. -/
  backend : Option Backend := none
  deriving DecidableEq

/-- What the arguments of the command ask for. -/
inductive Request where
  | play (command : Command)
  | help
  /-- They cannot be understood. -/
  | refused
  deriving DecidableEq

namespace Command

/-- The options for the pins of a bus. -/
def pinOptions : List SettingName :=
  [{ long := "tck" }, { long := "tms" }, { long := "tdi" }, { long := "tdo" }]

/-- What may be said before a bus is chosen. -/
def grammar : Grammar where
  switches := [⟨"continue-on-fault", some 'c'⟩, ⟨"verbose", some 'v'⟩]
  options := [⟨"output", some 'o'⟩, ⟨"spin-threshold-us", none⟩]
  commands := ["gpiomem", "sysfs", "loopback"]

/-- What may be said of pins behind registers. -/
def registersGrammar : Grammar where
  options := pinOptions

/-- What may be said of pins behind files. -/
def filesGrammar : Grammar where
  options := { long := "root" } :: pinOptions

/-- The greatest pin number that can be chosen. -/
def greatestPin : Nat := 1023

/-- The longest part of a wait that can be kept from being slept, in microseconds. -/
def greatestSpinThreshold : Nat := 1000000

/-- A value that must not be empty if it is given. -/
def path? (text : Option String) : Option (Option Path) :=
  match text with
  | none => some none
  | some "" => none
  | some text => some (some (Path.ofText text))

/-- The value of a numeric option, or its default. -/
def number? (settings : Settings) (name : String) (greatest default : Nat) : Option Nat :=
  match settings.option? name with
  | none => some default
  | some text => boundedNumber? greatest text

/-- The pins that settings choose. -/
def pins? (settings : Settings) : Option PinNumbers := do
  let usual : PinNumbers := {}
  let tck ← number? settings "tck" greatestPin usual.tck
  let tms ← number? settings "tms" greatestPin usual.tms
  let tdi ← number? settings "tdi" greatestPin usual.tdi
  let tdo ← number? settings "tdo" greatestPin usual.tdo
  return { tck, tms, tdi, tdo }

/-- The pins behind registers that settings choose. -/
def registers? (settings : Settings) : Option Backend := do
  let path ← path? settings.operand?
  let pins ← pins? settings
  return .registers (path.getD Backend.registersPath) pins

/-- The pins behind files that settings choose. -/
def files? (settings : Settings) : Option Backend := do
  if settings.operand?.isSome then none
  let root ← path? (settings.option? "root")
  let pins ← pins? settings
  return .files (root.getD Backend.filesRoot) pins

/-- The bus without a device, of which nothing can be said. -/
def loopback? (settings : Settings) : Option Backend :=
  if settings.settings.isEmpty then some .loopback else none

/-- All but the bus, as settings choose it. -/
def general? (settings : Settings) : Option Command := do
  let input ← path? settings.operand?
  let output ← path? (settings.option? "output")
  let threshold ← number? settings "spin-threshold-us" greatestSpinThreshold 2000
  return {
    input
    output
    config := {
      continueOnFault := settings.switch "continue-on-fault"
      spinThreshold := threshold * Duration.microsecond }
    isVerbose := settings.switch "verbose" }

/-- What settings say, if none is given twice. -/
def meaning? {α : Type} (settings : Settings) (read : Settings → Option α) : Option α :=
  if settings.areDistinct then read settings else none

/-- The bus that the words after its name choose. -/
def ofBackendWords (command : Command) (grammar : Grammar) (read : Settings → Option Backend)
    (words : List String) : Request :=
  let settings := grammar.settings words
  match meaning? settings read, settings.ending with
  | none, _ => .refused
  | some backend, .complete => .play { command with backend := some backend }
  | some _, .help => .help
  | some _, _ => .refused

/-- What the words of a command line ask for. -/
def ofArguments (words : List String) : Request :=
  let settings := grammar.settings words
  match meaning? settings general?, settings.ending with
  | none, _ => .refused
  | some command, .complete => .play command
  | some _, .help => .help
  | some _, .refused => .refused
  | some command, .command name words =>
    match name with
    | "gpiomem" => command.ofBackendWords registersGrammar registers? words
    | "sysfs" => command.ofBackendWords filesGrammar files? words
    | _ => command.ofBackendWords {} loopback? words

/-- How the command is used. -/
def usage : String :=
  "Usage: svf-player [OPTIONS] [INPUT] [gpiomem [PATH] | sysfs | loopback]\n\n" ++
  "Options:\n" ++
  "  -o, --output <OUTPUT>          Write the fault report to this file instead of stdout\n" ++
  "  -c, --continue-on-fault        Record mismatches and keep going\n" ++
  "  -v, --verbose                  Trace every instruction\n" ++
  "      --spin-threshold-us <N>    Spin waits shorter than this many microseconds\n" ++
  "  -h, --help                     Print help\n\n" ++
  "Options of gpiomem and sysfs:\n" ++
  "      --tck, --tms, --tdi, --tdo <PIN>   Pins of the four lines\n" ++
  "      --root <ROOT>                      Directory of the pins (sysfs only)\n"

end Command

end JtagPlayer
