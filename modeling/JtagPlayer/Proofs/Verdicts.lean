import JtagPlayer.Proofs.Halting
import JtagPlayer.Proofs.Stopping

/-!
# Where a verdict stops a run

A run is stopped by a verdict if a scan did not pass, and by nothing else. `Action.IsImpartial` says
of an action that no verdict stops it; everything but the conclusion of a scan is impartial.
`Player.Concluded` says what an instruction does to the report and what that has to do with how it
ends: nothing is recorded and no verdict is passed, or the instruction is a scan with one fault,
which was left and concluded according to the policy or stopped on its way out for another reason.

`Player.verdicts_follow_policy` says what follows for whole runs on any bus: a run that records
faults is stopped by no verdict, and one that stops at faults has at most one, in its last stage.
-/

namespace JtagPlayer

open JtagPlayer.Action

/-- A scan did not pass. -/
def Halt.IsVerdict : Halt → Prop
  | .failed (.verification _) => True
  | _ => False

/-- Neither the bus nor a movement passes a verdict. -/
theorem Halt.excusesMoves_of_impartial : Halt.ExcusesMoves fun reason => ¬ reason.IsVerdict where
  overflow := id
  hardware _ := id
  noRoute _ _ := id
  notNeighbour _ _ := id

/-- No verdict stops the action. -/
def Action.IsImpartial {σ α : Type} (action : Action σ α) : Prop :=
  ∀ ⦃s exchanges reason s'⦄, action.Course s exchanges (.error reason) s' → ¬ reason.IsVerdict

namespace Player

theorem update_impartial (name : RegisterName) (delta : Pattern) :
    (update name delta).IsImpartial := by
  refine stopsFor_get_bind fun session => ?_
  refine stopsFor_bind (stopsFor_ofParameter fun _ _ => id) fun updated => ?_
  refine stopsFor_bind (stopsFor_modify _) fun _ => ?_
  exact stopsFor_bind (stopsFor_ask _) fun _ => stopsFor_pure _

theorem optionalDuration_impartial (seconds : Option Float) :
    (optionalDuration seconds).IsImpartial := by
  cases seconds with
  | none => exact stopsFor_pure none
  | some seconds =>
    exact stopsFor_bind (stopsFor_ofParameter fun _ _ => id) fun _ => stopsFor_pure _

theorem runTest_impartial (test : RunTest) : (runTest test).IsImpartial := by
  have hexcuses := Halt.excusesMoves_of_impartial
  refine stopsFor_bind (stopsFor_ofParameter fun _ _ => id) fun minTime => ?_
  refine stopsFor_bind (optionalDuration_impartial _) fun maxTime => ?_
  refine stopsFor_bind (stopsFor_ask .now) fun start => stopsFor_get_bind fun session => ?_
  refine stopsFor_bind (routeToGiven_stopsFor hexcuses _) fun _ => ?_
  refine stopsFor_bind (idle_stopsFor hexcuses.toExcuses _ _ _ _) fun _ => ?_
  refine stopsFor_bind ?_ fun _ => routeToGiven_stopsFor hexcuses _
  exact stopsFor_get_bind fun _ => stopsFor_waitFor id _ _ _

/-- Only scans pass verdicts. -/
theorem execute_impartial {instruction : Instruction}
    (hscan : ∀ register delta label, instruction ≠ .shift register delta label) :
    (execute instruction).IsImpartial := by
  have hexcuses := Halt.excusesMoves_of_impartial
  cases instruction with
  | setEndState register state =>
    refine stopsFor_get_bind fun session => ?_
    exact stopsFor_bind (stopsFor_ofMove fun _ _ => id) fun _ => stopsFor_modify _
  | setFrequency hz => exact setFrequency_stopsFor fun _ _ => id
  | setHeader register delta | setTrailer register delta =>
    exact stopsFor_bind (update_impartial _ delta) fun _ => stopsFor_pure ()
  | shift register delta label => exact absurd rfl (hscan register delta label)
  | runTest test => exact runTest_impartial test
  | goToState target path =>
    cases path with
    | none => exact routeTo_stopsFor hexcuses target
    | some path =>
      exact onTap_stopsFor
        (TapDriver.walkPath_stopsFor hexcuses.toExcuses hexcuses.notNeighbour _)
  | unsupported command => exact stopsFor_fail id
  | unknown => exact stopsFor_fail id

variable {session session' : Session} {exchanges : List Exchange} {result : Except Halt Unit}

/-- What an instruction records and how that goes with its end. If it records nothing, no verdict
stops it. Otherwise it is a scan with one fault. Either that scan has been left for its end state,
and the policy decides, or something else has stopped it on the way there. -/
inductive Concluded (session : Session) (result : Except Halt Unit) (session' : Session) :
    Instruction → Prop where
  | silent {instruction} (hreport : session'.report = session.report)
      (hreason : ∀ reason, result = .error reason → ¬ reason.IsVerdict) :
      Concluded session result session' instruction
  | faulty {register delta label fault} (hlabel : fault.label = label.getD Fault.unlabeled)
      (hreport : session'.report = session.report.push fault)
      (hresult : (result = verdict session false label ∧
          session'.tap.state = session.endState register) ∨
        ∃ reason, result = .error reason ∧ ¬ reason.IsVerdict) :
      Concluded session result session' (.shift register delta label)

/-- What a scan reports and how it ends is the conclusion from its samples. -/
theorem concluded_of_scan {register : Register} {delta : Pattern} {label : Option String}
    (h : ScanCourse register delta label session exchanges result session') :
    Concluded session result session' (.shift register delta label) := by
  cases h with
  | refused hupdate =>
    refine .silent rfl fun reason hresult => ?_
    cases hresult
    exact id
  | unrouted hupdate hroute =>
    refine .silent rfl fun reason hresult => ?_
    cases hresult
    exact TapDriver.routeTo_stopsFor Halt.excusesMoves_of_impartial _ hroute
  | unshifted hupdate hroute hshift =>
    refine .silent rfl fun reason hresult => ?_
    cases hresult
    exact Segments.shift_stopsFor Halt.excusesMoves_of_impartial.toExcuses _ hshift
  | @shifted registers routing shifting leaving samples left driver driver' driver'' hupdate hroute
      hshift hleave =>
    obtain ⟨word, -, -, hstate⟩ := TapDriver.routeTo_ok hroute
    have hexit := (TapDriver.shift_ok hshift hstate (Registers.bits_ne_nil_of_update hupdate)).2
    cases hpassed : (registers.segments register).payload.accepts samples.payload with
    | true =>
      refine .silent (by rw [judge, if_pos hpassed]) fun reason hresult => ?_
      cases left with
      | error stop =>
        cases hresult
        exact TapDriver.leaveFor_stopsFor Halt.excusesMoves_of_impartial _ hleave
      | ok u => cases hresult
    | false =>
      have hrefused : ¬ (registers.segments register).payload.accepts samples.payload = true := by
        simp [hpassed]
      rw [judge, if_neg hrefused]
      refine .faulty rfl rfl ?_
      cases left with
      | error stop =>
        exact .inr ⟨stop, rfl, TapDriver.leaveFor_stopsFor Halt.excusesMoves_of_impartial _ hleave⟩
      | ok u => exact .inl ⟨rfl, (TapDriver.leaveFor_still hleave hexit).2 rfl⟩

/-- Only scans report anything: any other instruction ends silently. -/
theorem execute_concluded {instruction : Instruction}
    (h : (execute instruction).Course session exchanges result session') :
    Concluded session result session' instruction := by
  cases instruction with
  | shift register delta label => exact concluded_of_scan (scan_course h)
  | _ =>
    refine .silent (report_eq h (by simp)) fun reason hresult => ?_
    subst hresult
    exact execute_impartial (by simp) h

/-- A program that records faults is stopped by no verdict. -/
theorem Unfolds.no_verdict {program : List Instruction} {stages : List Stage}
    (h : Unfolds program session stages result session')
    (hpolicy : session.continueOnFault = true) {reason : Halt} (hresult : result = .error reason) :
    ¬ reason.IsVerdict := by
  induction h with
  | done session => cases hresult
  | stops hstage =>
    cases execute_concluded hstage with
    | silent hreport hreason => exact hreason _ hresult
    | faulty hlabel hreport hends =>
      rcases hends with ⟨hverdict, -⟩ | ⟨stop, hstop, himpartial⟩
      · rw [verdict, hpolicy] at hverdict
        cases hverdict
      · cases hresult.symm.trans hstop
        exact himpartial
  | goesOn hstage hrest ih => exact ih ((policy_and_full hstage).1.trans hpolicy) hresult

/-- What a program that stops at faults has recorded by its end. If it is nothing, no verdict has
stopped it. Otherwise its last stage is a scan with one fault, and what has stopped it is the
verdict on that scan, which has been left for its end state, or something else on the way there. -/
inductive Judgement (session : Session) (stages : List Stage) (result : Except Halt Unit)
    (session' : Session) : Prop where
  | passed (hreport : session'.report = session.report)
      (hreason : ∀ reason, result = .error reason → ¬ reason.IsVerdict)
  | faulty {early : List Stage} {stage : Stage} {register : Register} {delta : Pattern}
      {label : Option String} {fault : Fault} (hstages : stages = early ++ [stage])
      (hscan : stage.instruction = .shift register delta label)
      (hlabel : fault.label = label.getD Fault.unlabeled)
      (hreport : session'.report = session.report.push fault)
      (hresult : (result = .error (.failed (.verification fault.label)) ∧
          session'.tap.state = stage.before.endState register) ∨
        ∃ reason, result = .error reason ∧ ¬ reason.IsVerdict)

/-- A stage that stopped at a fault is the last one, so at most one fault comes of all of them. -/
theorem Unfolds.judgement {program : List Instruction} {stages : List Stage}
    (h : Unfolds program session stages result session')
    (hpolicy : session.continueOnFault = false) : Judgement session stages result session' := by
  induction h with
  | done session => exact .passed rfl nofun
  | @stops instruction program session exchanges reason session' hstage =>
    generalize hend : (Except.error reason : Except Halt Unit) = result at hstage ⊢
    cases execute_concluded hstage with
    | silent hreport hreason => exact .passed hreport hreason
    | @faulty register delta label fault hlabel hreport hends =>
      refine .faulty (List.nil_append _).symm rfl hlabel hreport (hends.imp_left ?_)
      rintro ⟨hverdict, hstate⟩
      rw [verdict, hpolicy] at hverdict
      exact ⟨hlabel ▸ hverdict, hstate⟩
  | @goesOn instruction program session exchanges middle stages result session' hstage hrest ih =>
    -- A stage that ends well has recorded nothing, so what is recorded comes later.
    have hsilent : middle.report = session.report := by
      generalize hend : (Except.ok () : Except Halt Unit) = result at hstage
      cases execute_concluded hstage with
      | silent hreport hreason => exact hreport
      | faulty hlabel hreport hends =>
        rcases hends with ⟨hverdict, -⟩ | ⟨stop, hstop, -⟩
        · rw [verdict, hpolicy] at hverdict
          cases hend.trans hverdict
        · cases hend.trans hstop
    cases ih ((policy_and_full hstage).1.trans hpolicy) with
    | passed hreport hreason => exact .passed (hreport.trans hsilent) hreason
    | @faulty early stage register delta label fault hstages hscan hlabel hreport hends =>
      rw [hsilent] at hreport
      exact .faulty (by rw [hstages, List.cons_append]) hscan hlabel hreport hends

/-- A run cannot acquire the bus, or its end has to do with its faults as its policy asks for. -/
theorem RunCourse.judgement {config : PlayerConfig} {program : List Instruction}
    {performance : Performance} {outcome : RunOutcome}
    (h : RunCourse config program performance exchanges outcome) :
    (∃ error elapsed, outcome = .stopped (.hardware error) (.unstarted elapsed)) ∨
    ∃ start session result closing, Finish start session result closing outcome ∧
      (config.continueOnFault = true → ∀ reason, result = .error reason → ¬ reason.IsVerdict) ∧
      (config.continueOnFault = false →
        Judgement (.initial config) performance.stages result session) := by
  cases h with
  | unstarted start instant error => exact .inl ⟨error, _, rfl⟩
  | unready hreset hfinish =>
    have himpartial := onTap_stopsFor
      (TapDriver.clockWord_stopsFor Halt.excusesMoves_of_impartial.toExcuses _) hreset
    have hreason : ∀ stop, (Except.error _ : Except Halt Unit) = .error stop → ¬ stop.IsVerdict :=
      fun stop hstop => Except.error.inj hstop ▸ himpartial
    obtain ⟨driver, -, rfl⟩ := onTap_course.mp hreset
    exact .inr ⟨_, _, _, _, hfinish, fun _ => hreason, fun _ => .passed rfl hreason⟩
  | ready hreset hstages hfinish =>
    obtain ⟨driver, -, rfl⟩ := onTap_course.mp hreset
    refine .inr ⟨_, _, _, _, hfinish, fun hpolicy reason => hstages.no_verdict hpolicy,
      fun hpolicy => ?_⟩
    -- The reset leaves the report as it was.
    cases hstages.judgement hpolicy with
    | passed hreport hreason => exact .passed hreport hreason
    | faulty hsplit hscan hlabel hreport hends => exact .faulty hsplit hscan hlabel hreport hends

/-- The faults of a run that stops at faults. -/
theorem Judgement.faults {config : PlayerConfig} {stages : List Stage}
    (h : Judgement (.initial config) stages result session) :
    (session.report.faults = [] ∧ ∀ reason, result = .error reason → ¬ reason.IsVerdict) ∨
    (∃ fault, session.report.faults = [fault]) ∧ result ≠ .ok () := by
  cases h with
  | passed hreport hreason => exact .inl ⟨congrArg FaultReport.faults hreport, hreason⟩
  | @faulty early stage register delta label fault hstages hscan hlabel hreport hends =>
    refine .inr ⟨⟨fault, congrArg FaultReport.faults hreport⟩, ?_⟩
    rintro rfl
    rcases hends with ⟨hresult, -⟩ | ⟨stop, hresult, -⟩ <;> cases hresult

/-- On any bus, a run reports the faults of the scans whose bits were all sent and sampled, whatever
has stopped it afterwards. No verdict stops a run that records faults. A run that stops at faults
has at most one fault, none if it carries out its program, and exactly one if a verdict stops it:
that of the scan which is its last stage and which it has left for the end state chosen for it. -/
theorem verdicts_follow_policy {β τ : Type} [Bus β] [Clock τ] (config : PlayerConfig)
    (program : List Instruction) (bench : Bench β τ) (device : Device) :
    let performance := performance config program bench
    let outcome := ((run config program).play bench).1
    (∀ report, outcome.report? = some report →
      (report.isFailed = true ↔ report.faults.faults ≠ []) ∧
      report.faults.faults = (scans (device.watch performance.prelude)
        performance.stages).filterMap Scan.fault?) ∧
    (config.continueOnFault = true →
      ∀ label report, outcome ≠ .stopped (.verification label) report) ∧
    (config.continueOnFault = false →
      (∀ report, outcome.report? = some report → report.faults.faults.length ≤ 1) ∧
      (∀ report, outcome = .completed report → report.faults.faults = []) ∧
      ∀ label report, outcome = .stopped (.verification label) report →
        ∃ fault early stage register delta name, report.faults.faults = [fault] ∧
          fault.label = label ∧ label = name.getD Fault.unlabeled ∧
          performance.stages = early ++ [stage] ∧
          stage.instruction = .shift register delta name ∧
          report.finalState = stage.before.endState register) := by
  intro performance outcome
  have hcourse := run_course config program bench
  refine ⟨fun report hreport => ⟨?_, hcourse.faults_eq hreport device⟩, ?_⟩
  · simp [RunReport.isFailed, FaultReport.isFailed]
  -- A run without the bus has no faults. Any other is judged by its stages.
  rcases hcourse.judgement with ⟨error, elapsed, houtcome⟩ |
    ⟨start, session, result, closing, hfinish, hrecords, hstops⟩
  · rw [show outcome = _ from houtcome]
    refine ⟨fun _ label report => by simp, fun _ => ⟨fun report hreport => ?_, by simp, by simp⟩⟩
    cases hreport
    simp [RunReport.unstarted]
  change Finish start session result closing outcome at hfinish
  refine ⟨fun hpolicy label report houtcome => ?_, fun hpolicy => ⟨?_, ?_, ?_⟩⟩
  · rw [houtcome] at hfinish
    cases hfinish
    exact hrecords hpolicy _ rfl trivial
  · intro report hreport
    obtain ⟨elapsed, rfl⟩ := hfinish.report_eq hreport
    rcases (hstops hpolicy).faults with ⟨hnone, -⟩ | ⟨⟨fault, hone⟩, -⟩
    · simp [RunReport.ofSession, hnone]
    · simp [RunReport.ofSession, hone]
  · intro report houtcome
    rw [houtcome] at hfinish
    cases hfinish
    rcases (hstops hpolicy).faults with ⟨hnone, -⟩ | ⟨-, hstopped⟩
    · exact hnone
    · exact absurd rfl hstopped
  · intro label report houtcome
    rw [houtcome] at hfinish
    cases hfinish
    cases hstops hpolicy with
    | passed hreport hreason => exact absurd trivial (hreason _ rfl)
    | @faulty early stage register delta name fault hstages hscan hlabel hreport hends =>
      rcases hends with ⟨hresult, hstate⟩ | ⟨stop, hresult, himpartial⟩
      · cases hresult
        exact ⟨fault, early, stage, register, delta, name, congrArg FaultReport.faults hreport, rfl,
          hlabel, hstages, hscan, hstate⟩
      · cases hresult
        exact absurd trivial himpartial

/-- The bit comes back inverted, and the bus fails while the scan is left. The fault is on record,
and what is reported as the reason is the failure. -/
example :
    let bus : SimulatedBus := { answers := .invert, failingWrite := some 41 }
    let bench : Bench SimulatedBus IdealClock := { bus, clock := {} }
    let delta : Pattern := { length := 1, tdi := some [1], tdo := some [1] }
    let outcome := ((run {} [.shift .data delta (some "bit")]).play bench).1
    outcome.error? = some (.hardware (SimulatedBus.failure "write 41 failed")) ∧
      outcome.report?.map (fun report => report.faults.faults.map Fault.record) =
        some [("bit", "00")] := by
  decide +kernel

end Player

end JtagPlayer
