import JtagPlayer.Fault.Reader
import JtagPlayer.Fault.Writer
import JtagPlayer.Proofs.Documents

/-!
# Written fault reports are read back

`FaultReport.read_of_write` says that a report is recovered from the document that is written for
it, whatever strings its faults hold: the members of each fault are recovered one by one, and a
report is an object with the array of its faults as its only member. `FaultReport.survives_writing`
says it of the reports that scans make and of those that were read themselves.
-/

namespace JtagPlayer

open Json Lexical

namespace Json

/-- A value that may be written as an object is recovered from its members. -/
theorem recordReader_recovers {α ι σ : Type} (item : Reader ι) (count : Nat)
    (ofItems : List ι → Option α) {member : σ → String → Except ReadFailure (Reader σ)}
    {start result : σ} {ofMembers : σ → Option α} {members : List (String × List UInt8)}
    {value : α} (h : Members member start members result) (hvalue : ofMembers result = some value)
    (depth : Nat) :
    (recordReader item count ofItems member start ofMembers).Recovers
      (Ascii.openBrace :: closed Ascii.closeBrace depth (members.map memberText)) value := by
  intro space rest hspace _
  dsimp only [recordReader]
  rw [List.cons_append, skipSpace_append_cons hspace rfl]
  dsimp only
  rw [if_neg (by decide), if_pos rfl, readObject_closed h depth rest]
  dsimp only
  rw [hvalue]

/-- An array of values that are recovered is recovered. -/
theorem arrayReader_recovers {α : Type} {item : Reader α} {write : α → List UInt8} {items : List α}
    (h : ∀ x ∈ items, item.Recovers (write x) x) (hbegins : ∀ x ∈ items, Begins (write x))
    (depth : Nat) :
    (arrayReader item).Recovers
      (Ascii.openBracket :: closed Ascii.closeBracket depth (items.map write)) items := by
  intro space rest hspace _
  dsimp only [arrayReader]
  rw [List.cons_append, skipSpace_append_cons hspace rfl]
  exact (if_pos rfl).trans (readItems_closed h hbegins depth rest)

end Json

namespace Fault

/-- The members of a fault as they are written. -/
def texts (fault : Fault) : List (String × List UInt8) :=
  [("label", writeString fault.label), ("tdi", writeString fault.tdi),
    ("tdo", writeString fault.tdo), ("mask", writeString fault.mask),
    ("data", writeString fault.data)]

theorem write_toJson (depth : Nat) (fault : Fault) :
    Json.write depth fault.toJson =
      Ascii.openBrace :: closed Ascii.closeBrace depth (fault.texts.map memberText) :=
  write_object depth _

/-- A string that has not been given is taken from its member. -/
theorem Draft.members_fill {draft result : Draft} {name value : String} {put : String → Draft}
    {members : List (String × List UInt8)}
    (h : memberReader draft name = .ok (stringReader.map put))
    (hrest : Members memberReader (put value) members result) :
    Members memberReader draft ((name, writeString value) :: members) result :=
  .cons h ((stringReader_recovers value).map put) hrest

/-- The members of a fault lead to its five strings. -/
theorem members_texts (fault : Fault) :
    Members Draft.memberReader {} fault.texts {
      label := some fault.label
      tdi := some fault.tdi
      tdo := some fault.tdo
      mask := some fault.mask
      data := some fault.data } :=
  Draft.members_fill rfl <| Draft.members_fill rfl <| Draft.members_fill rfl <|
    Draft.members_fill rfl <| Draft.members_fill rfl (.nil _)

/-- A fault is recovered. -/
theorem reader_recovers (depth : Nat) (fault : Fault) :
    reader.Recovers (Json.write depth fault.toJson) fault := by
  rw [write_toJson]
  exact recordReader_recovers stringReader 5 ofStrings? fault.members_texts rfl depth

end Fault

namespace FaultReport

/-- The faults of a report as they are written. -/
def texts (depth : Nat) (report : FaultReport) : List (String × List UInt8) :=
  [("faults", Ascii.openBracket :: closed Ascii.closeBracket depth
    (report.faults.map fun fault => Json.write (depth + 1) fault.toJson))]

theorem write_toJson (depth : Nat) (report : FaultReport) :
    Json.write depth report.toJson = Ascii.openBrace ::
      closed Ascii.closeBrace depth ((report.texts (depth + 1)).map memberText) := by
  have hfaults := write_array (depth + 1) (report.faults.map Fault.toJson)
  rw [List.map_map] at hfaults
  calc Json.write depth report.toJson
    _ = Ascii.openBrace :: closed Ascii.closeBrace depth [memberText
          ("faults", Json.write (depth + 1) (.array (report.faults.map Fault.toJson)))] :=
        write_object depth _
    _ = Ascii.openBrace :: closed Ascii.closeBrace depth
          ((report.texts (depth + 1)).map memberText) := by
        rw [hfaults]
        rfl

/-- A report is recovered. -/
theorem reader_recovers (depth : Nat) (report : FaultReport) :
    reader.Recovers (Json.write depth report.toJson) report := by
  have hbegins : ∀ fault ∈ report.faults, Begins (Json.write (depth + 2) fault.toJson) := by
    intro fault _
    rw [Fault.write_toJson]
    exact ⟨_, _, rfl, rfl, by decide⟩
  have hfaults := arrayReader_recovers (fun fault _ => Fault.reader_recovers (depth + 2) fault)
    hbegins (depth + 1)
  have hmembers : Members memberReader none (report.texts (depth + 1)) (some report.faults) :=
    .cons rfl (hfaults.map some) (.nil _)
  rw [write_toJson]
  exact recordReader_recovers _ 1 ofItems? hmembers rfl depth

/-- A report is read back as it was written. -/
theorem read_of_write (report : FaultReport) : read report.write = .ok report := by
  have hspace : ∀ byte ∈ ([] : List UInt8), isSpace byte = true := nofun
  have hends : EndsNumeral [Ascii.lineFeed] := by decide +kernel
  have hread := reader_recovers 0 report hspace hends
  rw [List.nil_append] at hread
  rw [read, readDocument, write, writeDocument, hread]
  exact if_pos rfl

/-- The report of scans that have failed, one after the other: of each its label, its pattern and
the bytes it returned. -/
def ofScans (scans : List (Option String × Pattern × List UInt8)) : FaultReport :=
  scans.foldl (fun report (label, pattern, observed) =>
    report.push (.ofScan label pattern observed)) {}

/-- The faults are in the order of the scans. -/
theorem faults_ofScans (scans : List (Option String × Pattern × List UInt8)) :
    (ofScans scans).faults =
      scans.map fun (label, pattern, observed) => .ofScan label pattern observed := by
  have hpush : ∀ report : FaultReport, (scans.foldl (fun report (label, pattern, observed) =>
      report.push (.ofScan label pattern observed)) report).faults = report.faults ++
        scans.map fun (label, pattern, observed) => .ofScan label pattern observed := by
    induction scans with
    | nil => exact fun report => (List.append_nil _).symm
    | cons scan scans ih =>
      intro report
      rw [List.foldl_cons, ih, faults_push, List.append_assoc, List.map_cons,
        List.singleton_append]
  exact hpush {}

/-- Reports survive writing and reading. The report of any scans, whatever their labels, patterns
and data, is read back with its faults in the order of the scans; and writing what was read from
any document and reading it again gives what was read before. -/
theorem survives_writing :
    (∀ scans, (read (ofScans scans).write).map faults =
      .ok (scans.map fun (label, pattern, observed) => .ofScan label pattern observed)) ∧
    (∀ scans, read (ofScans scans).write = .ok (ofScans scans)) ∧
    ∀ text, (read text).bind (fun report => read report.write) = read text := by
  refine ⟨fun scans => ?_, fun scans => read_of_write _, fun text => ?_⟩
  · rw [read_of_write, ← faults_ofScans]
    rfl
  · cases read text with
    | error failure => rfl
    | ok report => exact read_of_write report

end FaultReport

end JtagPlayer
