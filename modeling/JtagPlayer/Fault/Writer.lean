import JtagPlayer.Fault.Basic
import JtagPlayer.Json.Writer

/-!
# Writing fault reports

`FaultReport.write` writes a report as a document: an object with one member, the array of faults,
each of them an object with five strings.
-/

namespace JtagPlayer

/-- The value that stands for a fault. -/
def Fault.toJson (fault : Fault) : Json :=
  .object [("label", .string fault.label), ("tdi", .string fault.tdi), ("tdo", .string fault.tdo),
    ("mask", .string fault.mask), ("data", .string fault.data)]

namespace FaultReport

/-- The value that stands for a report. -/
def toJson (report : FaultReport) : Json :=
  .object [("faults", .array (report.faults.map Fault.toJson))]

/-- The document of a report. -/
def write (report : FaultReport) : List UInt8 :=
  Json.writeDocument report.toJson

end FaultReport

end JtagPlayer
