/-!
# The lines of a bus

A test access port is driven over four lines: the clock TCK, the mode TMS, the data TDI to the
device and the data TDO from it. An operation on a line, or on a file behind it, may fail with an
`IoError`.
-/

namespace JtagPlayer

/-- A line between player and device. -/
inductive Line where
  /-- The clock. -/
  | tck
  /-- The mode, which selects the next state. -/
  | tms
  /-- The data sent to the device. -/
  | tdi
  /-- The data received from it. -/
  | tdo
  deriving DecidableEq, Inhabited

namespace Line

/-- All lines. -/
def all : List Line :=
  [tck, tms, tdi, tdo]

/-- The name of a line. -/
def name : Line → String
  | tck => "TCK"
  | tms => "TMS"
  | tdi => "TDI"
  | tdo => "TDO"

/-- The line with a given name. -/
def ofName? (name : String) : Option Line :=
  all.find? fun line => line.name == name

/-- The name of a line in the text of an error, with one capital. -/
def capitalized : Line → String
  | tck => "Tck"
  | tms => "Tms"
  | tdi => "Tdi"
  | tdo => "Tdo"

end Line

/-- The kind of a failed operation on a line or a file. -/
inductive IoErrorKind where
  | notFound
  | isADirectory
  | notADirectory
  | unexpectedEof
  | invalidInput
  | notConnected
  | other
  deriving DecidableEq

/-- A failed operation on a line or a file. -/
structure IoError where
  kind : IoErrorKind
  message : String
  deriving DecidableEq

namespace IoError

/-- The data from the device is sampled only. -/
def notDriven : IoError where
  kind := .invalidInput
  message := "TDO cannot be driven"

/-- The other lines are driven only. -/
def notSampled (line : Line) : IoError where
  kind := .invalidInput
  message := s!"{line.capitalized} cannot be sampled"

end IoError

end JtagPlayer
