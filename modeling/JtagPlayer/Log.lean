import JtagPlayer.Duration
import JtagPlayer.Error

/-!
# What a run notes down

While a run goes on it notes what it does. A `LogEntry` is one such note; it has a level and a text,
which is only made when somebody asks for it.
-/

namespace JtagPlayer

/-- The importance of a note, least first. -/
inductive LogLevel where
  | trace
  | debug
  | info
  | warn
  | error
  deriving DecidableEq, Inhabited

namespace LogLevel

/-- All levels, least first. -/
def all : List LogLevel :=
  [trace, debug, info, warn, error]

/-- The name of a level in front of a note. -/
def name : LogLevel → String
  | trace => "TRACE"
  | debug => "DEBUG"
  | info => "INFO"
  | warn => "WARN"
  | error => "ERROR"

/-- The position of a level among all. -/
def rank : LogLevel → Nat
  | trace => 0
  | debug => 1
  | info => 2
  | warn => 3
  | error => 4

end LogLevel

/-- A note of a run. -/
inductive LogEntry where
  /-- A run begins. -/
  | executing (count : Nat)
  /-- The bus could not be acquired. -/
  | notInitialized (error : IoError)
  /-- An instruction begins. -/
  | instruction (name : String) (index : Nat)
  /-- A run stops early. -/
  | stopped (error : PlayError)
  /-- The least time between two clocks was set. -/
  | clockDelay (delay : Option Nat)
  /-- A stored pattern changed. -/
  | updated (register : RegisterName) (pattern : Pattern)
  /-- A scan returned something else than expected. -/
  | mismatch (register : RegisterName) (label : Option String) (expected observed : List UInt8)
  /-- The time for idling was over before the last clock. -/
  | timeExceeded (maxTime cycle count : Nat)
  /-- A route is taken. -/
  | route (start target : TapState) (word : List Bool)
  /-- A scan is over. -/
  | scanned (bits : Nat) (buffer : List UInt8)
  /-- The outputs could not be left low. -/
  | notParked (error : IoError)
  /-- A bus without a device was acquired. -/
  | loopbackInitialized
  /-- A bus without a device was released. -/
  | loopbackReleased (pulses : Nat)

namespace LogEntry

/-- The importance of a note. -/
def level : LogEntry → LogLevel
  | executing _ => .info
  | notInitialized _ | stopped _ => .error
  | instruction _ _ | clockDelay _ | updated _ _ => .debug
  | mismatch _ _ _ _ | timeExceeded _ _ _ | notParked _ => .warn
  | route _ _ _ | scanned _ _ => .trace
  | loopbackInitialized | loopbackReleased _ => .debug

/-- Items in brackets, separated by commas. -/
def listText (items : List String) : String :=
  "[" ++ String.intercalate ", " items ++ "]"

/-- Bytes in brackets, each with two lower-case digits. -/
def bytesText (bytes : List UInt8) : String :=
  let digit (value : Nat) : Char := Char.ofNat (if value < 10 then 48 + value else 87 + value)
  listText <| bytes.map fun byte =>
    String.ofList [digit (byte.toNat / 16), digit (byte.toNat % 16)]

/-- The text of a note. -/
def text : LogEntry → String
  | executing count => s!"Executing {count} instructions"
  | notInitialized error => s!"Could not initialize GPIOs: {error.message}"
  | instruction name index => s!"Executing {name} (#{index})"
  | stopped error => s!"Execution stopped: {error.message}"
  | clockDelay none => "TCK delay: None"
  | clockDelay (some delay) => s!"TCK delay: Some({Duration.text delay})"
  | updated register pattern => s!"{register.name} {pattern.text}"
  | mismatch register label expected observed =>
    let place := match label with
      | some label => s!" at {label}"
      | none => ""
    s!"{register.name} mismatch{place}: expected {bytesText expected}, got {bytesText observed}"
  | timeExceeded maxTime cycle count =>
    s!"RUNTEST maximum time {Duration.text maxTime} exceeded after {cycle} of {count} cycles"
  | route start target word =>
    let levels := word.map fun level => if level then "true" else "false"
    s!"Route {start.name} -> {target.name}: {listText levels}"
  | scanned bits buffer => s!"Scan of {bits} bits, TDO: {bytesText buffer}"
  | notParked error => s!"Could not park JTAG outputs: {error.message}"
  | loopbackInitialized => "Loopback bus initialized"
  | loopbackReleased pulses => s!"Loopback bus released after {pulses} pulses"

/-- The level and the text of a note. -/
def line (entry : LogEntry) : String :=
  s!"{entry.level.name} {entry.text}"

end LogEntry

end JtagPlayer
