import JtagPlayer.Proofs.Echoing
import JtagPlayer.Proofs.Keeping
import JtagPlayer.Proofs.Verdicts

/-!
# What a dry run finds

On a bus that returns what it is sent a scan mismatches if and only if it expects something else
than it sends. So the faults of a run can be read off the program, once it is known how far the run
went: `echoFaults` follows the stored patterns through the instructions that were carried out and
compares the bits that each scan expects with those that it sends.

`Player.RunCourse.echoed` says that these are the faults that a run reports, and
`Player.RunCourse.carriedOut_begins` that the instructions carried out are the first ones of the
program, and all of them if nothing stops the run. `Player.RunCourse.ends_by_policy` says what
faults have to do with the end of the run.
-/

namespace JtagPlayer

open JtagPlayer.Action

namespace Pattern

/-- Some selected bit is expected to come back other than it is sent. -/
def Contradicts (pattern : Pattern) : Prop :=
  ∃ tdo ∈ pattern.tdo, ∃ index, index < pattern.length.toNat ∧ pattern.selects index = true ∧
    pattern.number.testBit index ≠ (numberOfBytes tdo).testBit index

instance (pattern : Pattern) : Decidable pattern.Contradicts :=
  inferInstanceAs (Decidable (∃ tdo ∈ pattern.tdo, ∃ index, index < pattern.length.toNat ∧
    pattern.selects index = true ∧
      pattern.number.testBit index ≠ (numberOfBytes tdo).testBit index))

/-- The fault of a scan that gets back what it sends. Its data are the bits sent, without those
above the length. -/
def echoFault? (label : Option String) (pattern : Pattern) : Option Fault :=
  if pattern.Contradicts then
    some {
      label := label.getD Fault.unlabeled
      tdi := Hex.encodeOrZeros pattern.tdi pattern.numBytes
      tdo := Hex.encodeOrZeros pattern.tdo pattern.numBytes
      mask := Hex.encodeOrZeros pattern.mask pattern.numBytes
      data := Hex.ofNumber (2 * ((pattern.length.toNat + 7) / 8))
        (pattern.number % (1 <<< pattern.length.toNat)) }
  else none

/-- The digits that are sent are those of the number to send, as far as the pattern goes. -/
theorem numberOfBits_digits (pattern : Pattern) :
    numberOfBits pattern.digits = pattern.number % (1 <<< pattern.length.toNat) := by
  apply Nat.eq_of_testBit_eq
  intro index
  rw [testBit_numberOfBits, Nat.one_shiftLeft, Nat.testBit_mod_two_pow, digits]
  by_cases hindex : index < pattern.length.toNat <;> simp [hindex]

/-- A pattern that gets back its own bits accepts them unless it contradicts itself. -/
theorem accepts_bits_iff {pattern : Pattern} (hfull : pattern.IsFull) :
    pattern.accepts (bytesOf pattern.bits) = true ↔ ¬ pattern.Contradicts := by
  have hbit : ∀ index < pattern.length.toNat,
      pattern.bits.getD index false = pattern.number.testBit index := by
    intro index hindex
    rw [bits_eq_digits hfull, digits]
    simp [hindex]
  rw [accepts_iff hfull pattern.length_bits]
  constructor
  · rintro haccepts ⟨tdo, htdo, index, hindex, hselects, hne⟩
    exact hne (((haccepts tdo htdo index hindex hselects).trans (hbit index hindex)).symm)
  · intro hconsistent tdo htdo index hindex hselects
    rw [hbit index hindex]
    refine Decidable.byContradiction fun hne => hconsistent ?_
    exact ⟨tdo, htdo, index, hindex, hselects, fun heq => hne heq.symm⟩

/-- The comparison of a scan that gets back what it sends. -/
theorem faults_judge_bits {pattern : Pattern} (hfull : pattern.IsFull) (label : Option String)
    (session : Session) :
    (Player.judge label pattern (bytesOf pattern.bits) session).report.faults =
      session.report.faults ++ (pattern.echoFault? label).toList := by
  have haccepts := accepts_bits_iff hfull
  unfold Player.judge echoFault?
  by_cases hcontradicts : pattern.Contradicts
  · have hdata : Hex.encode (bytesOf pattern.bits) =
        Hex.ofNumber (2 * ((pattern.length.toNat + 7) / 8))
          (pattern.number % (1 <<< pattern.length.toNat)) := by
      rw [Hex.encode_eq_ofNumber, length_bytesOf, numberOfBytes_bytesOf, length_bits,
        bits_eq_digits hfull, numberOfBits_digits]
    rw [if_neg fun h => haccepts.mp h hcontradicts, if_pos hcontradicts, ← hdata]
    rfl
  · rw [if_pos (haccepts.mpr hcontradicts), if_neg hcontradicts]
    exact (List.append_nil _).symm

end Pattern

/-- The fault of an instruction that gets back what it sends, when the stored patterns stand as
given. -/
def Instruction.echoFault? (registers : Registers) : Instruction → Option Fault
  | .shift register delta label =>
    match registers.update ⟨.payload, register⟩ delta with
    | .ok updated => (updated.get ⟨.payload, register⟩).echoFault? label
    | .error _ => none
  | _ => none

/-- The faults of some instructions that get back what they send, in order. -/
def echoFaults : Registers → List Instruction → List Fault
  | _, [] => []
  | registers, instruction :: program =>
    (instruction.echoFault? registers).toList ++ echoFaults (registers.after instruction) program

namespace Player

variable {session session' : Session} {exchanges : List Exchange} {result : Except Halt Unit}

/-- Whether an instruction that ended like this was carried out to its end. It was if it ended well
or a verdict stopped the run. -/
def isCarriedOut : Except Halt Unit → Bool
  | .ok () => true
  | .error (.failed (.verification _)) => true
  | .error _ => false

/-- The instructions that were carried out during some stages. -/
def carriedOut (stages : List Stage) : List Instruction :=
  (stages.filter fun stage => isCarriedOut stage.result).map Stage.instruction

theorem isCarriedOut_error {reason : Halt} (h : ¬ reason.IsVerdict) :
    isCarriedOut (.error reason) = false := by
  match reason, h with
  | .deadlineOverflow, _ => rfl
  | .failed (.verification _), h => exact absurd trivial h
  | .failed (.parameter _), _ | .failed (.move _), _ | .failed (.unsupported _), _
  | .failed (.hardware _), _ => rfl

theorem isCarriedOut_verdict (session : Session) (passed : Bool) (label : Option String) :
    isCarriedOut (verdict session passed label) = true := by
  unfold verdict
  split <;> rfl

theorem carriedOut_cons (stage : Stage) (stages : List Stage) :
    carriedOut (stage :: stages) =
      if isCarriedOut stage.result then stage.instruction :: carriedOut stages
      else carriedOut stages := by
  rw [carriedOut, List.filter_cons]
  split <;> rfl

/-- Wherever an instruction stops, the stored patterns are those after it. -/
theorem execute_registers {instruction : Instruction}
    (h : (execute instruction).Course session exchanges result session') :
    session'.registers = session.registers.after instruction := by
  have hset {name : RegisterName} {delta : Pattern}
      (h : Course (do let _ ← update name delta; Pure.pure ()) session exchanges result session') :
      session'.registers = session.registers.changed name delta := by
    unfold Registers.changed
    rcases setPattern_course h with ⟨error, hupdate, -, -, rfl⟩ | ⟨registers, hupdate, -, -, rfl⟩
    all_goals rw [hupdate]
  cases instruction with
  | setHeader register delta | setTrailer register delta => exact hset h
  | shift register delta label =>
    show _ = session.registers.changed ⟨.payload, register⟩ delta
    unfold Registers.changed
    cases scan_course h with
    | refused hupdate | unrouted hupdate hroute | unshifted hupdate hroute hshift => rw [hupdate]
    | shifted hupdate hroute hshift hleave => rw [hupdate, registers_judge]
  | _ => exact registers_eq h rfl

/-- What a scan that gets back what it sends adds to the report. It adds nothing if it is stopped on
its way, and it is carried out if it is not. -/
theorem faults_of_echoed_scan {register : Register} {delta : Pattern} {label : Option String}
    (h : ScanCourse register delta label session exchanges result session')
    (hresult : result ≠ .error .deadlineOverflow) (hsound : session.IsSound)
    (hflawless : Flawless exchanges) {lines : Lines} (hecho : lines.Echo exchanges) :
    session'.report.faults = session.report.faults ++
      if isCarriedOut result then
        ((Instruction.shift register delta label).echoFault? session.registers).toList
      else [] := by
  have hmoves := Halt.excusesMoves_of_impartial
  have hstopped {reason : Halt} {faults : List Fault} (h : ¬ reason.IsVerdict) :
      session.report.faults = session.report.faults ++
        if isCarriedOut (.error reason) then faults else [] := by
    rw [isCarriedOut_error h]
    exact (List.append_nil _).symm
  cases h with
  | refused hupdate => exact hstopped id
  | unrouted hupdate hroute => exact hstopped (TapDriver.routeTo_stopsFor hmoves _ hroute)
  | unshifted hupdate hroute hshift =>
    exact hstopped (Segments.shift_stopsFor hmoves.toExcuses _ hshift)
  | @shifted registers routing shifting leaving samples left driver driver' driver'' hupdate hroute
      hshift hleave =>
    simp only [flawless_cons, flawless_append] at hflawless
    obtain ⟨-, -, hshifting, -, hleaving⟩ := hflawless
    obtain ⟨word, -, -, hstate⟩ := TapDriver.routeTo_ok hroute
    have hexit := (TapDriver.shift_ok hshift hstate (Registers.bits_ne_nil_of_update hupdate)).2
    have hfull : (registers.segments register).payload.IsFull :=
      Registers.update_isFull hsound.full hupdate ⟨.payload, register⟩
    have hrest := (Lines.echo_append.mp hecho.2).2
    rw [Segments.shift_echoed hshift hshifting (Lines.echo_append.mp hrest).1]
    cases left with
    | error reason =>
      have hsteady := TapDriver.leaveFor_steady hleave hleaving hexit (hsound.ends register)
      exact absurd (congrArg Except.error hsteady) hresult
    | ok u =>
      rw [Pattern.faults_judge_bits hfull, Instruction.echoFault?, hupdate]
      have hcarried := fun passed => isCarriedOut_verdict session passed label
      exact congrArg (session.report.faults ++ ·) (if_pos (hcarried _)).symm

theorem execute_echoed {instruction : Instruction}
    (h : (execute instruction).Course session exchanges result session')
    (hresult : result ≠ .error .deadlineOverflow) (hsound : session.IsSound)
    (hflawless : Flawless exchanges) {lines : Lines} (hecho : lines.Echo exchanges) :
    session'.report.faults = session.report.faults ++
      if isCarriedOut result then (instruction.echoFault? session.registers).toList else [] := by
  cases instruction with
  | shift register delta label =>
    exact faults_of_echoed_scan (scan_course h) hresult hsound hflawless hecho
  | _ =>
    have hnone : (if isCarriedOut result then ([] : List Fault) else []) = [] := ite_self []
    rw [report_eq h (by simp)]
    exact ((congrArg (session.report.faults ++ ·) hnone).trans (List.append_nil _)).symm

/-- The faults of some stages in which everything comes back as it was sent. -/
theorem Unfolds.echoed {program : List Instruction} {stages : List Stage}
    (h : Unfolds program session stages result session')
    (hresult : result ≠ .error .deadlineOverflow) (hsound : session.IsSound) {index : Nat}
    (hflawless : Flawless (said index stages)) {lines : Lines}
    (hecho : lines.Echo (said index stages)) :
    session'.report.faults = session.report.faults ++
      echoFaults session.registers (carriedOut stages) := by
  induction h generalizing index lines with
  | done session => exact (List.append_nil _).symm
  | stops hstage =>
    rw [said, said, List.append_nil] at hflawless hecho
    rw [execute_echoed hstage hresult hsound (flawless_cons.mp hflawless).2 hecho.2,
      carriedOut_cons]
    split
    · exact congrArg (_ ++ ·) (List.append_nil _).symm
    · rfl
  | @goesOn instruction program session exchanges middle stages result session' hstage hrest ih =>
    rw [said] at hflawless hecho
    obtain ⟨hfirst, hlater⟩ := flawless_append.mp (flawless_cons.mp hflawless).2
    obtain ⟨hfirst', hlater'⟩ := Lines.echo_append.mp hecho.2
    rw [ih hresult (execute_keepsSound hstage hsound) hlater hlater', execute_registers hstage,
      execute_echoed hstage (by simp) hsound hfirst hfirst', List.append_assoc]
    rfl

/-- The instructions that are carried out are the first ones of the program, and all of them if
nothing stops. -/
theorem Unfolds.carriedOut_begins {program : List Instruction} {stages : List Stage}
    (h : Unfolds program session stages result session') :
    carriedOut stages <+: program ∧ (result = .ok () → carriedOut stages = program) := by
  induction h with
  | done session => exact ⟨List.prefix_rfl, fun _ => rfl⟩
  | @stops instruction program session exchanges reason session' hstage =>
    refine ⟨?_, nofun⟩
    rw [carriedOut_cons]
    split
    · exact List.prefix_append [instruction] program
    · exact List.nil_prefix
  | goesOn hstage hrest ih =>
    obtain ⟨hbegins, hall⟩ := ih
    exact ⟨(List.prefix_cons_inj _).mpr hbegins, fun hok => congrArg _ (hall hok)⟩

variable {config : PlayerConfig} {program : List Instruction} {performance : Performance}
  {outcome : RunOutcome}

/-- The faults that a run reports in which everything comes back as it was sent. -/
theorem RunCourse.echoed (h : RunCourse config program performance exchanges outcome)
    {report : RunReport} (hreport : outcome.report? = some report) (hflawless : Flawless exchanges)
    {lines : Lines} (hecho : lines.Echo exchanges) :
    report.faults.faults = echoFaults {} (carriedOut performance.stages) := by
  cases h with
  | unstarted start instant error =>
    cases hreport
    rfl
  | unready hreset hfinish =>
    obtain ⟨elapsed, rfl⟩ := hfinish.report_eq hreport
    obtain ⟨driver, -, rfl⟩ := onTap_course.mp hreset
    rfl
  | @ready start resetting session stages result session' closing outcome hreset hstages hfinish =>
    obtain ⟨elapsed, rfl⟩ := hfinish.report_eq hreport
    have hresult : result ≠ .error .deadlineOverflow := by
      rintro rfl
      cases hfinish
      cases hreport
    have hsound : session.IsSound :=
      onTap_upholds (TapDriver.reset_upholds keepsSound_obeys.onTap) hreset
        (Session.isSound_initial config)
    simp only [flawless_append] at hflawless
    simp only [Lines.echo_append] at hecho
    obtain ⟨driver, -, rfl⟩ := onTap_course.mp hreset
    exact hstages.echoed hresult hsound hflawless.2.2.1 hecho.2.2.1

/-- A run carries out the first instructions of its program, and all of them if it is completed. -/
theorem RunCourse.carriedOut_begins
    (h : RunCourse config program performance exchanges outcome) :
    carriedOut performance.stages <+: program ∧
      ((∃ report, outcome = .completed report) → carriedOut performance.stages = program) := by
  cases h with
  | unstarted start instant error => exact ⟨List.nil_prefix, by simp⟩
  | unready hreset hfinish =>
    refine ⟨List.nil_prefix, ?_⟩
    rintro ⟨report, rfl⟩
    cases hfinish
  | ready hreset hstages hfinish =>
    obtain ⟨hbegins, hall⟩ := hstages.carriedOut_begins
    refine ⟨hbegins, ?_⟩
    rintro ⟨report, rfl⟩
    cases hfinish
    exact hall rfl

/-- A run that records faults is stopped by no mismatch. One that stops at faults and has any is
stopped and has only one. -/
theorem RunCourse.ends_by_policy (h : RunCourse config program performance exchanges outcome) :
    (config.continueOnFault = true →
      ∀ error, outcome.error? = some error → ∀ label, error ≠ .verification label) ∧
    (config.continueOnFault = false → ∀ report, outcome.report? = some report →
      report.faults.faults ≠ [] →
        (∃ error, outcome.error? = some error) ∧ report.faults.faults.length = 1) := by
  rcases h.judgement with ⟨error, elapsed, rfl⟩ |
    ⟨start, session, result, closing, hfinish, hrecords, hstops⟩
  · refine ⟨fun _ other hother label => ?_, fun _ report hreport hfaults => ?_⟩
    · cases hother
      nofun
    · cases hreport
      exact absurd rfl hfaults
  refine ⟨fun hpolicy error herror label heq => ?_, fun hpolicy report hreport hfaults => ?_⟩
  · subst heq
    cases hfinish with
    | abandoned | completed => cases herror
    | stopped stop instant =>
      cases herror
      exact hrecords hpolicy _ rfl trivial
  · obtain ⟨elapsed, rfl⟩ := hfinish.report_eq hreport
    rcases (hstops hpolicy).faults with ⟨hnone, -⟩ | ⟨⟨fault, hone⟩, hstopped⟩
    · exact absurd hnone hfaults
    · refine ⟨?_, by rw [RunReport.ofSession, hone]; rfl⟩
      cases hfinish with
      | abandoned => cases hreport
      | stopped stop instant => exact ⟨stop, rfl⟩
      | completed instant => exact absurd rfl hstopped

end Player

end JtagPlayer
