import JtagPlayer.Command.Execution
import JtagPlayer.Proofs.Abandonment
import JtagPlayer.Proofs.DryRuns
import JtagPlayer.Proofs.Reports
import JtagPlayer.Proofs.Streams
import JtagPlayer.Proofs.Trees

/-!
# The command as a whole

A command reads its program from a file or from its input, plays it, and writes its report to a file
or to its output. At a `Desk` all of this is a value: what the input holds, what has been written to
the output, and what can be read back from it.

`Command.dry_run_faithful` says of a command on the bus without a device how its report and its
status come from the bytes that it reads.
-/

namespace JtagPlayer

namespace Desk

/-- What an input of a command holds. -/
def contents (desk : Desk) : Option Path → Except IoError (List UInt8)
  | none => .ok desk.input
  | some path => desk.tree.read path

/-- The desk once an input has been read to its end. -/
def afterInput (desk : Desk) : Option Path → Desk
  | none => { desk with input := [] }
  | some _ => desk

/-- A report can be written to an output. -/
def CanReceive (desk : Desk) : Option Path → Prop
  | none => True
  | some path => ∃ location, desk.tree.place path = .ok location

/-- An output has been given some bytes since the desk was as given, and the other outputs have been
left alone. -/
def Received (desk desk' : Desk) (output : Option Path) (bytes : List UInt8) : Prop :=
  match output with
  | none => desk'.output = desk.output ++ bytes ∧ desk'.tree = desk.tree
  | some path => desk'.tree.read path = .ok bytes ∧ desk'.output = desk.output

/-- Reading an input changes neither files nor outputs. -/
theorem files_afterInput (desk : Desk) (input : Option Path) :
    (desk.afterInput input).tree = desk.tree ∧ (desk.afterInput input).output = desk.output := by
  cases input <;> exact ⟨rfl, rfl⟩

variable {desk desk' : Desk} {input output : Option Path} {bytes : List UInt8}

theorem CanReceive.afterInput (h : desk.CanReceive output) (input : Option Path) :
    (desk.afterInput input).CanReceive output := by
  cases output with
  | none => trivial
  | some path => rwa [CanReceive, (desk.files_afterInput input).1]

theorem Received.of_afterInput (h : (desk.afterInput input).Received desk' output bytes) :
    desk.Received desk' output bytes := by
  obtain ⟨htree, houtput⟩ := desk.files_afterInput input
  cases output with
  | none => rwa [Received, htree, houtput] at h
  | some path => rwa [Received, houtput] at h

end Desk

namespace Command

variable {τ : Type} [Clock τ] {clock : τ} {desk : Desk}

/-- How a command ends at a desk with a clock, and the desk that it leaves. -/
def executeAt (command : Command) (clock : τ) (desk : Desk) : ExitStatus × Desk :=
  letI := Desk.surroundings clock
  (command.execute : StateM Desk ExitStatus) desk

/-- At a desk, one step after the other. -/
theorem bind_at {α β : Type} (step : StateM Desk α) (next : α → StateM Desk β) (desk : Desk) :
    (step >>= next) desk = next (step desk).1 (step desk).2 := rfl

/-- An input is read to its end. -/
theorem readInput_at (clock : τ) (input : Option Path) (desk : Desk) :
    letI := Desk.surroundings clock
    (readInput input : StateM Desk (Except IoError (List UInt8))) desk =
      (desk.contents input, desk.afterInput input) := by
  cases input <;> rfl

/-- What is read is a program or is refused. -/
theorem readProgram_at (clock : τ) {input : Option Path} {text : List UInt8}
    (hcontents : desk.contents input = .ok text) :
    letI := Desk.surroundings clock
    (readProgram input : StateM Desk (Except CommandError (List Instruction))) desk =
      ((Program.read text).mapError .program, desk.afterInput input) := by
  let _ := Desk.surroundings clock
  rw [readProgram, bind_at, readInput_at clock, hcontents]
  rfl

/-- A bus that was chosen need not be found. -/
theorem findBackend_at (clock : τ) (backend : Backend) (desk : Desk) :
    letI := Desk.surroundings clock
    (findBackend (some backend) : StateM Desk (Option Backend)) desk = (some backend, desk) :=
  rfl

/-- A dialogue without a device leaves the desk as it is. -/
theorem hold_at {α : Type} (clock : τ) (dialogue : Dialogue α) (desk : Desk) :
    letI := Desk.surroundings clock
    (Surroundings.hold .loopback dialogue : StateM Desk (Except IoError α)) desk =
      (.ok (dialogue.play ({ bus := {}, clock } : Bench LoopbackBus τ)).1, desk) :=
  rfl

/-- A text that is no program is not played. -/
theorem executeAt_of_refused {command : Command} {text : List UInt8} {failure : ReadFailure}
    (hcontents : desk.contents command.input = .ok text)
    (hread : Program.read text = .error failure) :
    command.executeAt clock desk = (.error (.program failure), desk.afterInput command.input) := by
  let _ := Desk.surroundings clock
  rw [executeAt, execute, bind_at, readProgram_at clock hcontents, hread]
  rfl

/-- A program is played on a new bus if there is no device. -/
theorem executeAt_of_read {command : Command} {text : List UInt8} {program : List Instruction}
    (hbackend : command.backend = some .loopback)
    (hcontents : desk.contents command.input = .ok text) (hread : Program.read text = .ok program) :
    letI := Desk.surroundings clock
    command.executeAt clock desk =
      (conclude command.output ((Player.run command.config program).play
          ({ bus := {}, clock } : Bench LoopbackBus τ)).1 :
        StateM Desk ExitStatus) (desk.afterInput command.input) := by
  let _ := Desk.surroundings clock
  have hprogram : (readProgram command.input : StateM Desk (Except CommandError _)) desk =
      (.ok program, desk.afterInput command.input) := by
    rw [readProgram_at clock hcontents, hread]
    rfl
  rw [executeAt, execute, bind_at, hprogram]
  dsimp only
  rw [hbackend, bind_at, findBackend_at]
  dsimp only
  rw [playOn, bind_at, hold_at]

/-- A report is written where it can be. What is said of errors afterwards does not touch it. -/
theorem writeReport_at (clock : τ) {output : Option Path} (houtput : desk.CanReceive output)
    (report : FaultReport) :
    letI := Desk.surroundings clock
    ∃ written, (writeReport report output : StateM Desk (Except IoError Unit)) desk =
        (.ok (), written) ∧
      ∀ errors, desk.Received { written with errors } output report.write := by
  cases output with
  | none => exact ⟨_, rfl, fun errors => ⟨rfl, rfl⟩⟩
  | some path =>
    obtain ⟨location, hplace⟩ := houtput
    have hwrite : desk.tree.write path report.write =
        .ok (desk.tree.put location (.file report.write)) := by
      rw [FileTree.write, hplace]
      rfl
    have happlied : (FileStore.write path report.write : StateM FileTree (Except IoError Unit))
        desk.tree = (.ok (), desk.tree.put location (.file report.write)) := by
      show desk.tree.applied (desk.tree.write path report.write) = _
      rw [hwrite]
      rfl
    refine ⟨{ desk with tree := desk.tree.put location (.file report.write) }, ?_,
      fun errors => ⟨FileTree.read_of_write hwrite, rfl⟩⟩
    show Desk.onTree (FileStore.write path report.write) desk = _
    rw [Desk.onTree, StateT.run, happlied]

/-- The report of a run is written, and then the status says whether the run was stopped. -/
theorem conclude_at (clock : τ) {output : Option Path} (houtput : desk.CanReceive output)
    {outcome : RunOutcome} {report : RunReport} (hreport : outcome.report? = some report) :
    letI := Desk.surroundings clock
    ∃ desk', (conclude output outcome : StateM Desk ExitStatus) desk =
        (if outcome.error? = none then .success else .failure, desk') ∧
      desk.Received desk' output report.faults.write := by
  let _ := Desk.surroundings clock
  obtain ⟨written, hwrite, hreceived⟩ := writeReport_at clock houtput report.faults
  rw [conclude, hreport]
  dsimp only
  rw [bind_at, hwrite]
  cases outcome.error? with
  | none => exact ⟨written, rfl, hreceived written.errors⟩
  | some error => exact ⟨_, rfl, hreceived _⟩

/-- The status says whether a run that was not abandoned was completed. -/
theorem code_eq_zero_iff {outcome : RunOutcome} (hends : outcome ≠ .abandoned) :
    (if outcome.error? = none then ExitStatus.success else .failure).code = 0 ↔
      ∃ report, outcome = .completed report := by
  cases outcome with
  | completed report => exact iff_of_true rfl ⟨report, rfl⟩
  | stopped error report => exact iff_of_false (by decide : (1 : UInt8) ≠ 0) (by simp)
  | abandoned => exact absurd rfl hends

/-- What a command has to say of a run of a program in which everything comes back as it is sent,
once it has ended. -/
structure Tells (command : Command) (desk : Desk) (program carriedOut : List Instruction)
    (outcome : RunOutcome) (ended : ExitStatus × Desk) : Prop where
  /-- The report can be read back. It has one fault for each scan that was carried out and expects
  something else than it sends, in order. -/
  report : ∃ bytes, desk.Received ended.2 command.output bytes ∧
    FaultReport.read bytes = .ok { faults := echoFaults {} carriedOut }
  /-- What was carried out are the first instructions of the program. -/
  begins : carriedOut <+: program
  /-- They are all of them if the run was completed. -/
  all : (∃ report, outcome = .completed report) → carriedOut = program
  /-- The status is zero just in that case. -/
  status : ended.1.code = 0 ↔ ∃ report, outcome = .completed report
  /-- If faults are recorded, no mismatch has stopped the run. -/
  recording : command.config.continueOnFault = true →
    ∀ error, outcome.error? = some error → ∀ label, error ≠ .verification label
  /-- Otherwise any fault is the only one, and the command fails. -/
  stopping : command.config.continueOnFault = false → echoFaults {} carriedOut ≠ [] →
    ended.1.code ≠ 0 ∧ (echoFaults {} carriedOut).length = 1

/-- The conclusion of a run in which everything comes back as it is sent. -/
theorem tells_of_course {command : Command} {program : List Instruction}
    {performance : Player.Performance} {exchanges : List Exchange} {outcome : RunOutcome}
    (hcourse : Player.RunCourse command.config program performance exchanges outcome)
    (hflawless : Flawless exchanges) {lines : Lines} (hecho : lines.Echo exchanges)
    (hends : outcome ≠ .abandoned) (houtput : desk.CanReceive command.output) (clock : τ) :
    letI := Desk.surroundings clock
    command.Tells desk program (Player.carriedOut performance.stages) outcome
      ((conclude command.output outcome : StateM Desk ExitStatus)
        (desk.afterInput command.input)) := by
  obtain ⟨report, hreport⟩ := Option.isSome_iff_exists.mp (RunOutcome.isSome_report? hends)
  obtain ⟨desk', hconclude, hreceived⟩ :=
    conclude_at clock (houtput.afterInput command.input) hreport
  have hfaults := hcourse.echoed hreport hflawless hecho
  have hstatus := code_eq_zero_iff hends
  obtain ⟨hbegins, hall⟩ := hcourse.carriedOut_begins
  obtain ⟨hrecords, hstops⟩ := hcourse.ends_by_policy
  rw [hconclude]
  exact {
    report := by
      refine ⟨report.faults.write, hreceived.of_afterInput, ?_⟩
      rw [FaultReport.read_of_write, ← hfaults]
    begins := hbegins
    all := hall
    status := hstatus
    recording := hrecords
    stopping := by
      intro hpolicy hne
      rw [← hfaults] at hne ⊢
      obtain ⟨⟨error, herror⟩, hone⟩ := hstops hpolicy report hreport hne
      refine ⟨fun hcode => ?_, hone⟩
      obtain ⟨completed, rfl⟩ := hstatus.mp hcode
      cases herror }

/-- A command on the bus without a device does what its input asks for, whatever that is, and with
any clock.

If the input is no program, the command fails and leaves all files and its output as they were.
Otherwise a report is written, however the run ends, unless it has to be abandoned. What can be read
back from it is one fault for each scan that was carried out and expects, in some bit that counts,
something else than it sends, in order and with the bits sent as its data. The status is zero just
if the run is completed. A run that records faults is stopped by no mismatch, and one that stops at
faults has exactly one if it has any, and then the command fails. -/
theorem dry_run_faithful (command : Command) (clock : τ) (desk : Desk) {text : List UInt8}
    (hbackend : command.backend = some .loopback)
    (hcontents : desk.contents command.input = .ok text)
    (houtput : desk.CanReceive command.output) :
    let ended := command.executeAt clock desk
    (∀ failure, Program.read text = .error failure →
      ended.1.code ≠ 0 ∧ ended.2.tree = desk.tree ∧ ended.2.output = desk.output) ∧
    ∀ program, Program.read text = .ok program →
      let bench : Bench LoopbackBus τ := { bus := {}, clock }
      let outcome := ((Player.run command.config program).play bench).1
      let stages := (Player.performance command.config program bench).stages
      outcome ≠ .abandoned →
        command.Tells desk program (Player.carriedOut stages) outcome ended := by
  refine ⟨fun failure hread => ?_, fun program hread => ?_⟩
  · rw [executeAt_of_refused hcontents hread]
    exact ⟨(by decide : (1 : UInt8) ≠ 0), desk.files_afterInput _⟩
  · intro bench outcome stages hends
    have htdi : ({} : Lines).tdi = bench.bus.tdi := rfl
    obtain ⟨hflawless, hecho⟩ :=
      LoopbackBus.transcript_echoes (Player.run command.config program) htdi
    have hcourse := Player.run_course command.config program bench
    rw [executeAt_of_read hbackend hcontents hread]
    exact tells_of_course hcourse hflawless hecho hends houtput clock

/-- Faults are recorded, and an older report is replaced. The first scan sends bits above its
length, the second one selects no bit, and the third one does without the mask of the second. The
same words leave the older report alone if the input breaks off. -/
theorem dry_run_faithful_replacing :
    let words := ["--continue-on-fault", "-o", "report.json", "loopback"]
    let program : List Instruction := [
      .setHeader .data { length := 3, tdi := some [6] },
      .shift .data { length := 10, tdi := some [0xFE, 0xA5], tdo := some [1, 0xA5] } (some "first"),
      .shift .data { length := 12, tdi := some [0x0B, 0xC0], tdo := some [0], mask := some [0] }
        (some "second"),
      .shift .data { length := 10, tdi := some [0xFF], tdo := some [0xFE] } none]
    let faults : List Fault := [
      { label := "first", tdi := "FEA5", tdo := "01A5", mask := "0000", data := "02A5" },
      { label := "unlabeled", tdi := "00FF", tdo := "00FE", mask := "0000", data := "00FF" }]
    let path : Path := { names := ["report.json"] }
    let tree : FileTree := { entries := [(["report.json"], .file (Text.toBytes "old"))] }
    ∃ command, ofArguments words = .play command ∧
      (let ended := command.executeAt ({} : IdealClock) { tree, input := Program.write program }
      ended.1.code = 0 ∧ ∃ bytes, ended.2.tree.read path = .ok bytes ∧
        FaultReport.read bytes = .ok { faults }) ∧
      let ended := command.executeAt ({} : IdealClock) { tree, input := Text.toBytes "[" }
      ended.1.code ≠ 0 ∧ ended.2.tree.read path = .ok (Text.toBytes "old") := by
  intro words program faults path tree
  let command : Command :=
    { output := some path, config := { continueOnFault := true }, backend := some .loopback }
  have hplace : tree.place path = .ok ["report.json"] := rfl
  refine ⟨command, by decide +kernel, ?_, ?_⟩
  · let bench : Bench LoopbackBus IdealClock := { bus := {}, clock := {} }
    have hread : Program.read (Program.write program) = .ok program :=
      Program.read_write_of_survives (by decide +kernel)
    have hends : ((Player.run command.config program).play bench).1 ≠ .abandoned := by
      decide +kernel
    have herror : ((Player.run command.config program).play bench).1.error? = none := by
      decide +kernel
    have hfaults : echoFaults {} (Player.carriedOut
        (Player.performance command.config program bench).stages) = faults := by
      decide +kernel
    have htells := (dry_run_faithful command ({} : IdealClock)
      { tree, input := Program.write program } rfl rfl ⟨_, hplace⟩).2 program hread hends
    obtain ⟨bytes, hreceived, hreport⟩ := htells.report
    rw [hfaults] at hreport
    have hcompleted := (code_eq_zero_iff hends).mp (by rw [if_pos herror]; rfl)
    exact ⟨htells.status.mpr hcompleted, bytes, hreceived.1, hreport⟩
  · obtain ⟨hcode, htree, -⟩ := (dry_run_faithful command ({} : IdealClock)
      { tree, input := Text.toBytes "[" } rfl rfl ⟨_, hplace⟩).1 .ended rfl
    refine ⟨hcode, ?_⟩
    rw [htree]
    rfl

end Command

end JtagPlayer
