import JtagPlayer.Pattern

/-!
# Faults

A `Fault` records a scan whose answer was not the expected one, as text: its label and four bit
patterns in hexadecimal. A run collects its faults in a list, in the order in which they occur.
-/

namespace JtagPlayer

/-- A scan that returned something else than expected. -/
structure Fault where
  label : String
  tdi : String
  tdo : String
  mask : String
  data : String
  deriving DecidableEq, Inhabited

namespace Fault

/-- The label of a scan that has none. -/
def unlabeled : String := "unlabeled"

/-- The fault of a scan that returned the bytes `observed`. An absent byte string of the pattern is
written as zeros. -/
def ofScan (label : Option String) (pattern : Pattern) (observed : List UInt8) : Fault where
  label := label.getD unlabeled
  tdi := Hex.encodeOrZeros pattern.tdi pattern.numBytes
  tdo := Hex.encodeOrZeros pattern.tdo pattern.numBytes
  mask := Hex.encodeOrZeros pattern.mask pattern.numBytes
  data := Hex.encode observed

end Fault

/-- The faults of a run, in order. -/
structure FaultReport where
  faults : List Fault := []
  deriving DecidableEq, Inhabited

namespace FaultReport

/-- Adds a fault at the end. -/
def push (report : FaultReport) (fault : Fault) : FaultReport where
  faults := report.faults ++ [fault]

/-- Whether there is any fault. -/
def isFailed (report : FaultReport) : Bool :=
  !report.faults.isEmpty

/-- The number of faults. -/
def size (report : FaultReport) : Nat :=
  report.faults.length

@[simp] theorem faults_push (report : FaultReport) (fault : Fault) :
    (report.push fault).faults = report.faults ++ [fault] := rfl

end FaultReport

end JtagPlayer
