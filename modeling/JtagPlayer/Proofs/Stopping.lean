import JtagPlayer.Bus.Simulated
import JtagPlayer.Proofs.Policies

/-!
# What a run stops at

A run that only records faults does not depend on the levels that come back: they end up in the
report and nowhere else. A run that stops at faults goes the same way until the first one, whose
scan it still carries out to its end.

`Player.policy_only_stops` states both. The first part compares runs on two buses, the second one
runs under the two policies on the same bus. In both, the runs may read the same clock or each its
own, as `Player.Comparable` says.
-/

namespace JtagPlayer

open JtagPlayer.Action

variable {β β' τ : Type} [Bus β] [Bus β'] [Clock τ] {terms : Terms}

/-- Nothing but failures parts two runs, as long as one does not depend on the levels that come
back. -/
def Coupling.ofSuccesses (terms : Terms) (β β' τ : Type) [Bus β] [Bus β'] [Clock τ]
    (hlevels : terms.sameLevels = false) : Coupling terms β β' τ τ where
  Holds _ bench bench' := terms.sameClock = true → bench.clock = bench'.clock
  Breaks c bench bench' :=
    ¬ Exchange.Succeeds ⟨c, (bench.answer c).1⟩ ∨ ¬ Exchange.Succeeds ⟨c, (bench'.answer c).1⟩
  both := by
    intro met bench bench' c hclock hshares
    by_cases hquiet : c.IsQuiet
    · have hsame := hclock (Terms.sameClock_of_isQuiet hshares hquiet)
      exact .inr ⟨Bench.matches_of_isQuiet hsame hquiet, fun _ => Bench.clock_answer hsame c⟩
    by_cases hsucceeds : Exchange.Succeeds ⟨c, (bench.answer c).1⟩ ∧
        Exchange.Succeeds ⟨c, (bench'.answer c).1⟩
    · have hnow : c ≠ .now := by
        rintro rfl
        exact hquiet trivial
      exact .inr ⟨Terms.matches_of_succeeds hsucceeds.1 hsucceeds.2 (fun _ _ => hlevels) hnow,
        fun hsame => Bench.clock_answer (hclock hsame) c⟩
    · exact .inl (Classical.not_and_iff_not_or_not.mp hsucceeds)
  first hclock hshares hsame :=
    (Bench.clock_answer_of_not_shares hsame hshares).trans (hclock hsame)
  second hclock hshares hsame :=
    (hclock hsame).trans (Bench.clock_answer_of_not_shares hsame hshares).symm

/-- The same choices, with faults only recorded. -/
def PlayerConfig.recording (config : PlayerConfig) : PlayerConfig :=
  { config with continueOnFault := true }

/-- The same choices, with a stop at the first fault. -/
def PlayerConfig.stopping (config : PlayerConfig) : PlayerConfig :=
  { config with continueOnFault := false }

/-- A scan is left through a pause state, which is stable. -/
theorem Register.pause_mem_stable (register : Register) :
    (register.shiftState.next true).next false ∈ TapState.stable := by
  cases register <;> decide

/-- If no operation on the bus fails, only an overdue edge keeps a scan from being left. -/
theorem TapDriver.leaveFor_steady {driver driver' : TapDriver} {target : TapState} {reason : Halt}
    {exchanges : List Exchange} {register : Register}
    (h : (leaveFor target).Course driver exchanges (.error reason) driver')
    (hflawless : Flawless exchanges) (hstate : driver.state = register.shiftState.next true)
    (htarget : target ∈ TapState.stable) : reason = .deadlineOverflow := by
  have hpause := register.pause_mem_stable
  rw [← hstate] at hpause
  rcases course_bind.mp h with
    ⟨first, rest, level, middle, hclock, hroute, rfl⟩ | ⟨reason, hclock, ⟨⟩⟩
  · have hmiddle : middle.state ∈ TapState.stable := by
      rw [state_of_clock hclock]
      exact hpause
    exact routeTo_steady hroute (flawless_append.mp hflawless).2 hmiddle htarget
  · exact (clock_emits false false).steady hclock hflawless

/-- A choice of an end state concerns that of one register. -/
theorem Session.endState_of_setEndState {session updated : Session} {register : Register}
    {state : TapState} (h : session.setEndState register state = .ok updated)
    (other : Register) :
    updated.endState other = state ∨ updated.endState other = session.endState other := by
  unfold setEndState at h
  split at h
  · cases h
    cases register <;> cases other <;> first | exact .inl rfl | exact .inr rfl
  · cases h

/-- Scans go on to end in stable states. -/
theorem Session.endState_mem_stable {session updated : Session} {register : Register}
    {state : TapState} (h : session.setEndState register state = .ok updated)
    (hends : ∀ register, session.endState register ∈ TapState.stable) (other : Register) :
    updated.endState other ∈ TapState.stable := by
  rcases endState_of_setEndState h other with hchosen | hkept
  · rw [hchosen]
    simpa [TapState.isStable] using (setEndState_eq_ok h).1
  · exact hkept ▸ hends other

namespace Player

variable {config : PlayerConfig} {program : List Instruction} {bench bench' : Bench β τ}

/-- The faults that have been recorded by the end of a performance. -/
def Performance.faults (performance : Performance) : List Fault :=
  performance.stages.getLast?.elim [] fun stage => stage.after.report.faults

/-- The last of some stages leaves the report. -/
theorem Unfolds.report_eq {session session' : Session} {stages : List Stage}
    {result : Except Halt Unit} (h : Unfolds program session stages result session') :
    session'.report.faults =
      stages.getLast?.elim session.report.faults fun stage => stage.after.report.faults := by
  induction h with
  | done session => rfl
  | stops hstage => rfl
  | @goesOn instruction program session exchanges middle stages result session' hstage hrest ih =>
    cases stages with
    | nil => exact ih
    | cons stage stages => rw [List.getLast?_cons_cons, ih]; rfl

/-- How a run that records faults compares with one that stops at them: either no fault is recorded
and they end alike, or there is a stage that records the first one. If that stage ends well, the
second run has released the bus after it, and reports the fault. -/
inductive RunParting (terms : Terms) (performance : Performance)
    (exchanges exchanges' : List Exchange) (outcome outcome' : RunOutcome) : Prop where
  | agree (hfaults : performance.faults = []) (hcalls : onBus exchanges' = onBus exchanges)
      (houtcome : outcome.Alike terms outcome')
  | differ {early later : List Stage} {stage : Stage} {fault : Fault}
      (hstages : performance.stages = early ++ stage :: later)
      (hbefore : stage.before.report = {}) (hafter : stage.after.report = FaultReport.push {} fault)
      (hfaults : stage.after.report.faults <+: performance.faults)
      (hstops : stage.result = .ok () →
        onBus exchanges' =
            onBus (performance.prelude ++ said 0 (early ++ [stage])) ++ [⟨.release, ()⟩] ∧
          ∃ report, outcome' = .stopped (.verification fault.label) report ∧
            report.faults = stage.after.report)

/-- The stages that follow a reset, which may have stopped. -/
def stagesAfter (program : List Instruction)
    (ready : (Except Halt Unit × Session) × Bench β τ) : List Stage :=
  match ready.1.1 with
  | .error _ => []
  | .ok () => stagesFrom 0 program ready.1.2 ready.2

/-- What is said and recorded once the bus is acquired. -/
theorem executeAll_stages (config : PlayerConfig) (program : List Instruction)
    (bench : Bench β τ) :
    let reset := onTap TapDriver.reset (.initial config)
    let stages := stagesAfter program (reset.play bench)
    (executeAll program (.initial config)).transcript bench =
        reset.transcript bench ++ said 0 stages ∧
      ((executeAll program (.initial config)).play bench).1.2.report.faults =
        stages.getLast?.elim [] fun stage => stage.after.report.faults := by
  intro reset stages
  have hcourse := Dialogue.course_transcript reset bench
  rcases hready : (reset.play bench).1 with ⟨_ | _, session⟩
  · have hstages : stages = [] := by
      show stagesAfter program (reset.play bench) = []
      rw [stagesAfter, hready]
    rw [hready] at hcourse
    obtain ⟨driver, -, rfl⟩ := onTap_course.mp hcourse
    rw [hstages, executeAll, play_bind_of_error hready, transcript_bind_of_error hready]
    exact ⟨(List.append_nil _).symm, rfl⟩
  · have hstages : stages = stagesFrom 0 program session (reset.play bench).2 := by
      show stagesAfter program (reset.play bench) = _
      rw [stagesAfter, hready]
    rw [hready] at hcourse
    obtain ⟨driver, -, rfl⟩ := onTap_course.mp hcourse
    rw [hstages, executeAll, play_bind_of_ok hready, transcript_bind_of_ok hready]
    obtain ⟨hunfolds, htranscript⟩ := stagesFrom_unfolds 0 program
      { Session.initial config with tap := driver } (reset.play bench).2
    exact ⟨congrArg _ htranscript, hunfolds.report_eq⟩

/-- Once the bus is acquired the two policies part as they do in a program. -/
theorem executeAll_parting (hlevels : terms.sameLevels = true) (config : PlayerConfig)
    (program : List Instruction)
    (hlimit : terms.sameClock = true ∨ ∀ instruction ∈ program, instruction.IsUnlimited)
    (htwin : bench.Twin terms bench') :
    let reset := onTap TapDriver.reset (.initial config.recording)
    (Overflows terms ((executeAll program (.initial config.recording)).play bench).1 ∨
      Overflows terms ((executeAll program (.initial config.stopping)).play bench').1) ∨
      ∃ resetting' rest',
        (executeAll program (.initial config.stopping)).transcript bench' = resetting' ++ rest' ∧
        onBus resetting' = onBus (reset.transcript bench) ∧
        Parting terms 0 {} (stagesAfter program (reset.play bench)) rest'
          ((executeAll program (.initial config.recording)).play bench)
          ((executeAll program (.initial config.stopping)).play bench') := by
  intro reset
  let reset' := onTap TapDriver.reset (.initial config.stopping)
  have hreset : Lockstep terms (Ends (Session.Alike terms true false) fun _ _ => True)
      (Overflows terms) reset reset' :=
    onTap_paired alike_drivesAlike TapDriver.reset_paired (initial_alike config true false)
  have hreport := Dialogue.course_transcript reset bench
  rcases hreset.play_twins hlevels htwin with ⟨hends, hcalls, htwin'⟩ | hlost
  · refine .inr ⟨reset'.transcript bench', ?_⟩
    rw [executeAll]
    generalize hready : (reset.play bench).1 = ready at hends hreport
    generalize hready' : (reset'.play bench').1 = ready' at hends
    cases hends with
    | @ok _ _ session session' halike _ =>
      rw [play_bind_of_ok hready, play_bind_of_ok hready', transcript_bind_of_ok hready',
        stagesAfter, hready]
      obtain ⟨driver, -, rfl⟩ := onTap_course.mp hreport
      exact ⟨_, rfl, hcalls.symm, executeFrom_parting hlevels program hlimit 0 halike htwin'⟩
    | error reason halike =>
      rw [play_bind_of_error hready, play_bind_of_error hready', transcript_bind_of_error hready',
        stagesAfter, hready]
      obtain ⟨driver, -, rfl⟩ := onTap_course.mp hreport
      exact ⟨[], (List.append_nil _).symm, hcalls.symm,
        .agree (.error reason halike) rfl rfl htwin'⟩
  · exact .inl (hlost.imp overflows_bind overflows_bind)

/-- The bench on which the answer to the acquisition was given. -/
def acquired (program : List Instruction) (bench : Bench β τ) : Except IoError Unit × Bench β τ :=
  ((bench.answer .now).2.answer (.note (.executing program.length))).2.answer .acquire

/-- A run goes on with that answer. -/
theorem run_acquired (config : PlayerConfig) (program : List Instruction) (bench : Bench β τ) :
    let start := (bench.answer .now).1
    let (answer, ready) := acquired program bench
    (run config program).play bench = (runAcquired config program start answer).play ready ∧
      (run config program).transcript bench =
        opening program start answer ++
          (runAcquired config program start answer).transcript ready :=
  ⟨rfl, rfl⟩

/-- So does its performance. -/
theorem performance_acquired (config : PlayerConfig) (program : List Instruction)
    (bench : Bench β τ) :
    let start := (bench.answer .now).1
    performance config program bench =
      match acquired program bench with
      | (.error error, _) => ⟨opening program start (.error error), []⟩
      | (.ok (), ready) =>
        let reset := onTap TapDriver.reset (.initial config)
        ⟨opening program start (.ok ()) ++ reset.transcript ready,
          stagesAfter program (reset.play ready)⟩ := by
  rw [performance, acquired]
  generalize ((bench.answer .now).2.answer _).2.answer .acquire = answered
  obtain ⟨_ | _, ready⟩ := answered <;> rfl

/-- With the bus a program is carried out and finished. -/
theorem runAcquired_ok (config : PlayerConfig) (program : List Instruction) (start : Nat)
    (bench : Bench β τ) :
    let all := executeAll program (.initial config)
    let played := all.play bench
    let finishing := finish start played.1.2 played.1.1
    (runAcquired config program start (.ok ())).play bench = finishing.play played.2 ∧
      (runAcquired config program start (.ok ())).transcript bench =
        all.transcript bench ++ finishing.transcript played.2 := by
  rw [runAcquired, Dialogue.play_bind, Dialogue.transcript_bind]
  exact ⟨rfl, rfl⟩

/-- What overflows is abandoned on every bench. -/
theorem overflows_finish {start : Nat} {ending : Except Halt Unit × Session}
    (h : Overflows terms ending) :
    ((finish start ending.2 ending.1).play bench).1.Overflows terms := by
  obtain ⟨outcome, heq, houtcome⟩ := finish_of_overflows h
  rw [heq]
  exact houtcome

/-- Only the acquisition of an opening concerns the bus. -/
theorem onBus_opening (program : List Instruction) (start : Nat)
    (answer : Except IoError Unit) :
    onBus (opening program start answer) = [⟨.acquire, answer⟩] := rfl

/-- What is said when a session that was stopped by an error is finished. -/
theorem finish_failed (start : Nat) (session : Session) (error : PlayError) (bench : Bench β τ) :
    let finishing := finish start session (.error (.failed error))
    onBus (finishing.transcript bench) = [⟨.release, ()⟩] ∧
      ∃ report, (finishing.play bench).1 = .stopped error report ∧
        report.faults = session.report :=
  ⟨rfl, _, rfl, rfl⟩

/-- Runs under the two policies that are refused the bus. -/
theorem refused_parting (hlevels : terms.sameLevels = true) (config config' : PlayerConfig)
    (program : List Instruction) (error : IoError) (htwin : bench.Twin terms bench')
    {start start' : Nat} (hstart : terms.sameClock = true → start = start') :
    let refused := runAcquired config program start (.error error)
    let refused' := runAcquired config' program start' (.error error)
    ((refused.play bench).1.Overflows terms ∨ (refused'.play bench').1.Overflows terms) ∨
      RunParting terms ⟨opening program start (.error error), []⟩
        (opening program start (.error error) ++ refused.transcript bench)
        (opening program start' (.error error) ++ refused'.transcript bench')
        (refused.play bench).1 (refused'.play bench').1 := by
  intro refused refused'
  have hreports : ReportsAlike terms (Session.Alike terms true false) (RunOutcome.Alike terms) :=
    alike_reportsAlike
  rcases (refused_lockstep hreports hstart config config' program program error).play_twins hlevels
    htwin with ⟨hagrees, hcalls, -⟩ | hlost
  · refine .inr (.agree rfl ?_ hagrees)
    rw [onBus_append, onBus_append, onBus_opening, onBus_opening, hcalls]
  · exact .inl hlost

/-- Runs under the two policies that are granted the bus. -/
theorem granted_parting (hlevels : terms.sameLevels = true) (config : PlayerConfig)
    (program : List Instruction)
    (hlimit : terms.sameClock = true ∨ ∀ instruction ∈ program, instruction.IsUnlimited)
    (htwin : bench.Twin terms bench') {start start' : Nat}
    (hstart : terms.sameClock = true → start = start') :
    let reset := onTap TapDriver.reset (.initial config.recording)
    let granted := runAcquired config.recording program start (.ok ())
    let granted' := runAcquired config.stopping program start' (.ok ())
    ((granted.play bench).1.Overflows terms ∨ (granted'.play bench').1.Overflows terms) ∨
      RunParting terms
        ⟨opening program start (.ok ()) ++ reset.transcript bench,
          stagesAfter program (reset.play bench)⟩
        (opening program start (.ok ()) ++ granted.transcript bench)
        (opening program start' (.ok ()) ++ granted'.transcript bench')
        (granted.play bench).1 (granted'.play bench').1 := by
  intro reset granted granted'
  obtain ⟨hplay, htranscript⟩ := runAcquired_ok config.recording program start bench
  obtain ⟨hplay', htranscript'⟩ := runAcquired_ok config.stopping program start' bench'
  obtain ⟨hstages, hfaults⟩ := executeAll_stages config.recording program bench
  have hparting := executeAll_parting hlevels config program hlimit htwin
  simp only [granted, granted', hplay, htranscript, hplay', htranscript', hstages]
  generalize (executeAll program (.initial config.recording)).play bench = played at *
  generalize (executeAll program (.initial config.stopping)).play bench' = played' at *
  rcases hparting with hlost | ⟨resetting', rest', hall', hresetting, hparting⟩
  · exact .inl (hlost.imp overflows_finish overflows_finish)
  rw [hall']
  cases hparting with
  | agree hends hreport hcalls htwin' =>
    have hnone := hfaults.symm.trans (congrArg FaultReport.faults hreport)
    rcases (finish_ends alike_reportsAlike hstart hends).play_twins hlevels htwin' with
      ⟨hagrees, hclosing, -⟩ | hlost
    · refine .inr (.agree hnone ?_ hagrees)
      simp only [onBus_opening, onBus_append, hresetting, hcalls, hclosing]
    · exact .inl hlost
  | @differ early later stage fault hsplit hbefore hafter hmore halike hcalls hresult =>
    rw [hfaults] at hmore
    refine .inr (.differ hsplit hbefore hafter hmore fun hok => ?_)
    obtain ⟨⟨result', session'⟩, ready'⟩ := played'
    obtain rfl : result' = _ := hresult hok
    obtain ⟨hclosing, report, houtcome, hreport⟩ :=
      finish_failed start' session' (.verification fault.label) ready'
    refine ⟨?_, report, houtcome, hreport.trans (halike.report hlevels).symm⟩
    simp only [onBus_opening, onBus_append, List.append_assoc, hresetting, hcalls, hclosing, reset]
  | lost h => exact .inl (h.imp overflows_finish overflows_finish)

/-- Runs under the two policies on twin benches. -/
theorem run_parting (hlevels : terms.sameLevels = true) (config : PlayerConfig)
    (program : List Instruction)
    (hlimit : terms.sameClock = true ∨ ∀ instruction ∈ program, instruction.IsUnlimited)
    (htwin : bench.Twin terms bench') :
    (((run config.recording program).play bench).1.Overflows terms ∨
      ((run config.stopping program).play bench').1.Overflows terms) ∨
    RunParting terms (performance config.recording program bench)
      ((run config.recording program).transcript bench)
      ((run config.stopping program).transcript bench')
      ((run config.recording program).play bench).1
      ((run config.stopping program).play bench').1 := by
  have hstart : terms.sameClock = true → (bench.answer .now).1 = (bench'.answer .now).1 :=
    fun hsame => congrArg Clock.now (htwin.clock hsame)
  have hnoted := (htwin.after .now).after (.note (.executing program.length))
  have hanswers : (acquired program bench).1 = (acquired program bench').1 :=
    hnoted.answer_eq (c := .acquire) id
  have hready : (acquired program bench).2.Twin terms (acquired program bench').2 :=
    hnoted.after .acquire
  have hrun := run_acquired config.recording program bench
  have hrun' := run_acquired config.stopping program bench'
  rw [performance_acquired]
  generalize acquired program bench = answered at *
  generalize acquired program bench' = answered' at *
  obtain ⟨answer, ready⟩ := answered
  obtain ⟨answer', ready'⟩ := answered'
  obtain rfl : answer = answer' := hanswers
  rw [hrun.1, hrun.2, hrun'.1, hrun'.2]
  cases answer with
  | error error =>
    exact refused_parting hlevels config.recording config.stopping program error hready hstart
  | ok u => exact granted_parting hlevels config program hlimit hready hstart

/-- Faults are only recorded, and scans end in stable states. -/
structure Records (session : Session) : Prop where
  policy : session.continueOnFault = true
  ends : ∀ register, session.endState register ∈ TapState.stable

theorem records_initial (config : PlayerConfig) : Records (.initial config.recording) where
  policy := rfl
  ends register := by
    have hidle : TapState.idle ∈ TapState.stable := by decide
    cases register <;> exact hidle

/-- So it remains. -/
def keepsRecording : Law Session := fun session _ _ session' => Records session → Records session'

theorem keepsRecording_obeys : Obeys keepsRecording where
  refl _ := id
  fail _ _ := id
  quiet _ _ _ _ := id
  trans hfirst hsecond hrecords := hsecond (hfirst hrecords)
  clock _ _ _ _ _ _ _ hrecords := ⟨hrecords.policy, hrecords.ends⟩
  setEndState := by
    intro session updated register state hupdated hrecords
    have hends := Session.endState_mem_stable hupdated hrecords.ends
    obtain ⟨-, endData, endInstruction, rfl⟩ := Session.setEndState_eq_ok hupdated
    exact ⟨hrecords.policy, hends⟩
  update := by
    intro session updated name delta hupdated hrecords
    obtain ⟨registers, -, rfl⟩ := Session.update_eq_ok hupdated
    exact ⟨hrecords.policy, hrecords.ends⟩
  delay _ _ hrecords := ⟨hrecords.policy, hrecords.ends⟩
  addFault _ _ hrecords := ⟨hrecords.policy, hrecords.ends⟩

/-- A scan that records a fault is carried out to its end, if no operation on the bus fails. -/
theorem ScanCourse.recorded {register : Register} {delta : Pattern} {label : Option String}
    {session session' : Session} {exchanges : List Exchange} {result : Except Halt Unit}
    (h : ScanCourse register delta label session exchanges result session')
    (hrecords : Records session) (hflawless : Flawless exchanges)
    (hresult : result ≠ .error .deadlineOverflow) {fault : Fault}
    (hreport : session'.report = session.report.push fault) :
    result = .ok () ∧ session'.tap.state = session.endState register ∧
      fault.label = label.getD Fault.unlabeled := by
  have hpush : session.report ≠ session.report.push fault := fun heq => by
    simpa using congrArg FaultReport.faults heq
  cases h with
  | refused | unrouted | unshifted => exact absurd hreport hpush
  | @shifted registers routing shifting leaving samples left driver driver' driver'' hupdate hroute
      hshift hleave =>
    obtain ⟨word, -, -, hstate⟩ := TapDriver.routeTo_ok hroute
    have hexit := (TapDriver.shift_ok hshift hstate (Registers.bits_ne_nil_of_update hupdate)).2
    have hleaving : Flawless leaving := by
      simp only [flawless_cons, flawless_append] at hflawless
      exact hflawless.2.2.2.2
    obtain ⟨u, rfl⟩ : ∃ u, left = .ok u := by
      cases left with
      | ok u => exact ⟨u, rfl⟩
      | error reason =>
        have hsteady := TapDriver.leaveFor_steady hleave hleaving hexit (hrecords.ends register)
        exact absurd (congrArg Except.error hsteady) hresult
    refine ⟨?_, ?_, ?_⟩
    · show verdict _ _ _ = _
      rw [verdict, hrecords.policy, Bool.or_true]
      rfl
    · rw [tap_judge]
      exact (TapDriver.leaveFor_still hleave hexit).2 rfl
    · rw [judge] at hreport
      split at hreport
      · exact absurd hreport hpush
      · have hfaults := congrArg FaultReport.faults hreport
        rw [Session.addFault, FaultReport.faults_push, FaultReport.faults_push] at hfaults
        obtain rfl := List.singleton_inj.mp (List.append_cancel_left hfaults)
        rfl

/-- What is said during a stage is part of what is said. -/
theorem flawless_of_said {stage : Stage} {stages : List Stage} (hmem : stage ∈ stages) {index : Nat}
    (h : Flawless (said index stages)) : Flawless stage.exchanges := by
  induction stages generalizing index with
  | nil => cases hmem
  | cons first stages ih =>
    obtain ⟨hfirst, hrest⟩ := flawless_append.mp (flawless_cons.mp h).2
    rcases List.mem_cons.mp hmem with rfl | hlater
    · exact hfirst
    · exact ih hlater hrest

theorem Finish.abandoned_iff {start : Nat} {session : Session} {result : Except Halt Unit}
    {exchanges : List Exchange} {outcome : RunOutcome}
    (h : Finish start session result exchanges outcome) :
    outcome = .abandoned ↔ result = .error .deadlineOverflow := by
  cases h <;> simp

/-- The stage that records a fault is a scan that is carried out to its end, if no operation on the
bus fails and the run is not abandoned. -/
theorem RunCourse.recorded {performance : Performance} {exchanges : List Exchange}
    {outcome : RunOutcome}
    (h : RunCourse config.recording program performance exchanges outcome)
    (hflawless : Flawless exchanges) (hends : outcome ≠ .abandoned) {stage : Stage}
    (hmem : stage ∈ performance.stages) {fault : Fault}
    (hreport : stage.after.report = stage.before.report.push fault) :
    ∃ register delta label, stage.instruction = .shift register delta label ∧
      fault.label = label.getD Fault.unlabeled ∧ stage.result = .ok () ∧
      stage.after.tap.state = stage.before.endState register := by
  cases h with
  | unstarted | unready => cases hmem
  | @ready start resetting session stages result session' closing outcome hreset hstages hfinish =>
    have hrecords : Records session :=
      onTap_upholds (TapDriver.reset_upholds keepsRecording_obeys.onTap) hreset
        (records_initial config)
    obtain ⟨hbefore, hcourse, hresult⟩ := hstages.of_mem
      (fun hstage => execute_upholds keepsRecording_obeys (fun _ => id) _ hstage) hrecords hmem
    have hflawless' : Flawless stage.exchanges := by
      simp only [flawless_append] at hflawless
      exact flawless_of_said hmem hflawless.2.2.1
    have hsteady : stage.result ≠ .error .deadlineOverflow := by
      rcases hresult with hok | hlast
      · rw [hok]
        intro hstop
        cases hstop
      · rw [hlast]
        exact fun hoverflow => hends (hfinish.abandoned_iff.mpr hoverflow)
    obtain ⟨instruction, before, exchanges, result, after⟩ := stage
    cases instruction with
    | shift register delta label =>
      obtain ⟨hok, hstate, hlabel⟩ :=
        (scan_course hcourse).recorded hbefore hflawless' hsteady hreport
      exact ⟨register, delta, label, rfl, hlabel, hok, hstate⟩
    | _ =>
      have hsame : after.report = before.report := Player.report_eq hcourse (by simp)
      simpa using congrArg FaultReport.faults (hsame.symm.trans hreport)

/-- What is reported is what was recorded. -/
theorem RunCourse.reports {performance : Performance} {exchanges : List Exchange}
    {outcome : RunOutcome} {report : RunReport}
    (h : RunCourse config program performance exchanges outcome)
    (hreport : outcome.report? = some report) : report.faults.faults = performance.faults := by
  cases h with
  | unstarted =>
    cases hreport
    rfl
  | unready hreset hfinish =>
    obtain ⟨elapsed, rfl⟩ := hfinish.report_eq hreport
    obtain ⟨driver, -, rfl⟩ := onTap_course.mp hreset
    rfl
  | ready hreset hstages hfinish =>
    obtain ⟨elapsed, rfl⟩ := hfinish.report_eq hreport
    obtain ⟨driver, -, rfl⟩ := onTap_course.mp hreset
    exact hstages.report_eq

theorem said_append (index : Nat) (first second : List Stage) :
    said index (first ++ second) = said index first ++ said (index + first.length) second := by
  induction first generalizing index with
  | nil => rfl
  | cons stage first ih =>
    rw [List.cons_append, said, said, ih, List.length_cons, List.cons_append, List.append_assoc,
      Nat.add_right_comm, Nat.add_assoc]

/-- What is said up to some stage is the beginning of what is said. -/
theorem RunCourse.begins {performance : Performance} {exchanges : List Exchange}
    {outcome : RunOutcome} (h : RunCourse config program performance exchanges outcome)
    {early later : List Stage} {stage : Stage}
    (hstages : performance.stages = early ++ stage :: later) :
    performance.prelude ++ said 0 (early ++ [stage]) <+: exchanges := by
  cases h with
  | unstarted | unready => simp at hstages
  | ready hreset hunfolds hfinish =>
    obtain rfl := hstages
    rw [← List.append_assoc, List.prefix_append_right_inj, List.append_cons early stage later,
      said_append 0 (early ++ [stage]), List.append_assoc]
    exact List.prefix_append _ _

/-- Runs that record faults on two buses that never fail make the same calls and end alike. -/
theorem recording_alike (bench : Bench β τ) (other : Bench β' τ) (config : PlayerConfig)
    (program : List Instruction)
    (hflawless : Flawless ((run config.recording program).transcript bench))
    (hflawless' : Flawless ((run config.recording program).transcript other))
    (hcomparable : Comparable program bench.clock other.clock
      ((run config.recording program).play bench).1
      ((run config.recording program).play other).1) :
    (onBus ((run config.recording program).transcript other)).map Exchange.call =
        (onBus ((run config.recording program).transcript bench)).map Exchange.call ∧
      ((run config.recording program).play bench).1.Alike ⟨false, false⟩
        ((run config.recording program).play other).1 := by
  obtain ⟨terms, hlevels, hsame, hlimit, hkept, hkept'⟩ := hcomparable.exists_terms false
  let coupling := Coupling.ofSuccesses terms β β' τ hlevels
  have hclock : coupling.Holds [] bench other := fun h => (hsame.mp h).symm
  have hlockstep : Lockstep terms (RunOutcome.Alike terms) (RunOutcome.Overflows terms)
      (run config.recording program) (run config.recording program) :=
    run_lockstep (.inr ⟨rfl, rfl⟩) config program hlimit
  rcases (hlockstep.play hclock).together_or_parted hkept hkept' with
    ⟨hagrees, halike, -⟩ |
    ⟨before, before', rest, rest', c, met, met', hsplit, hsplit', -, -, hbreaks⟩
  · exact ⟨halike.calls_onBus.symm, hagrees.mono nofun nofun⟩
  · rw [hsplit] at hflawless
    rw [hsplit'] at hflawless'
    simp only [flawless_append, flawless_cons] at hflawless hflawless'
    exact absurd hbreaks (not_or.mpr ⟨not_not_intro hflawless.2.1, not_not_intro hflawless'.2.1⟩)

/-- The policy only decides where a run stops, and the levels that come back decide nothing else.
Runs that record faults on two buses that never fail make the same calls and end alike. On one such
bus, a run that stops at faults is the same as one that records them if there are none. Otherwise it
goes the same way up to the end of the first scan with a fault, releases the bus and reports that
fault. -/
theorem policy_only_stops (bench : Bench β τ) (other : Bench β' τ) (clock : τ)
    (config : PlayerConfig) (program : List Instruction)
    (hflawless : Flawless ((run config.recording program).transcript bench))
    (hflawless' : Flawless ((run config.recording program).transcript other)) :
    let performance := performance config.recording program bench
    let exchanges := onBus ((run config.recording program).transcript bench)
    let outcome := ((run config.recording program).play bench).1
    let exchanges' := onBus ((run config.stopping program).transcript { bench with clock })
    let outcome' := ((run config.stopping program).play { bench with clock }).1
    (Comparable program bench.clock other.clock outcome
        ((run config.recording program).play other).1 →
      (onBus ((run config.recording program).transcript other)).map Exchange.call =
          exchanges.map Exchange.call ∧
        outcome.Alike ⟨false, false⟩ ((run config.recording program).play other).1) ∧
    (Comparable program bench.clock clock outcome outcome' →
      (∀ report, outcome.report? = some report →
        report.faults.faults = performance.faults) ∧
      (performance.faults = [] → exchanges' = exchanges ∧ outcome.Alike ⟨false, true⟩ outcome' ∧
        (clock = bench.clock → outcome' = outcome)) ∧
      ∀ fault faults, performance.faults = fault :: faults → outcome ≠ .abandoned →
        ∃ early stage later register delta label report,
          performance.stages = early ++ stage :: later ∧
          stage.instruction = .shift register delta label ∧
          fault.label = label.getD Fault.unlabeled ∧
          stage.before.report.faults = [] ∧ stage.after.report.faults = [fault] ∧
          stage.after.tap.state = stage.before.endState register ∧
          onBus (performance.prelude ++ said 0 (early ++ [stage])) <+: exchanges ∧
          exchanges' = onBus (performance.prelude ++ said 0 (early ++ [stage])) ++
            [⟨.release, ()⟩] ∧
          outcome' = .stopped (.verification fault.label) report ∧
          report.faults.faults = [fault]) := by
  intro performance exchanges outcome exchanges' outcome'
  have hcourse := run_course config.recording program bench
  refine ⟨recording_alike bench other config program hflawless hflawless', fun hcomparable =>
    ⟨fun report => hcourse.reports, ?_⟩⟩
  obtain ⟨terms, hlevels, hsame, hlimit, hkept, hkept'⟩ := hcomparable.exists_terms true
  have htwin : bench.Twin terms { bench with clock } := ⟨rfl, fun h => (hsame.mp h).symm⟩
  -- Both runs end alike, or the stopping one ends behind the first scan that records a fault.
  rcases (run_parting hlevels config program hlimit htwin).resolve_left
      (not_or.mpr ⟨hkept, hkept'⟩) with
    ⟨hnone, hcalls, halike⟩ | @⟨early, later, stage, recorded, hstages, hbefore, hafter, hprefix,
      hstops⟩
  · refine ⟨fun _ => ⟨hcalls, halike.mono nofun fun _ => hlevels, fun heq =>
      (halike.eq (hsame.mpr heq) hlevels).symm⟩, fun fault faults hsome => ?_⟩
    cases hnone.symm.trans hsome
  · have hafter' : stage.after.report.faults = [recorded] := congrArg FaultReport.faults hafter
    rw [hafter'] at hprefix
    refine ⟨fun hnone => ?_, fun fault faults hsome hends => ?_⟩
    · rw [hnone] at hprefix
      exact absurd hprefix.length_le (by simp)
    · rw [hsome, List.cons_prefix_cons] at hprefix
      obtain rfl := hprefix.1
      have hmem : stage ∈ performance.stages := by
        rw [hstages]
        exact List.mem_append_right _ List.mem_cons_self
      obtain ⟨register, delta, label, hscan, hlabel, hok, hstate⟩ :=
        hcourse.recorded hflawless hends hmem (hbefore ▸ hafter)
      obtain ⟨hcalls, report, houtcome, hreport⟩ := hstops hok
      exact ⟨early, stage, later, register, delta, label, report, hstages, hscan, hlabel,
        congrArg FaultReport.faults hbefore, hafter', hstate, (hcourse.begins hstages).filter _,
        hcalls, houtcome, (congrArg FaultReport.faults hreport).trans hafter'⟩

/-- Two scans come back inverted. The run that stops at faults reports the first of them, and the
run that records both moves the device as it would if nothing were inverted. -/
theorem policy_only_stops_inverting_bus :
    let bench : Bench SimulatedBus IdealClock := { bus := { answers := .invert }, clock := {} }
    let other : Bench SimulatedBus IdealClock := { bus := {}, clock := {} }
    let program := [
      Instruction.shift .data { length := 2, tdi := some [1], tdo := some [1] } (some "first"),
      .shift .data { length := 8, tdi := some [5], tdo := some [5] } (some "second")]
    let config : PlayerConfig := {}
    ((run config.recording program).play bench).1.Alike ⟨false, false⟩
        ((run config.recording program).play other).1 ∧
      ∃ report, ((run config.stopping program).play bench).1 =
          .stopped (.verification "first") report ∧
        report.faults.faults.map Fault.record = [("first", "02")] := by
  intro bench other program config
  obtain ⟨hlevels, hpolicy⟩ := policy_only_stops bench other {} config program
    (by decide +kernel) (by decide +kernel)
  obtain ⟨-, -, hstops⟩ := hpolicy (.inl rfl)
  have hrecords : (performance config.recording program bench).faults.map Fault.record =
      [("first", "02"), ("second", "FA")] := by
    decide +kernel
  obtain ⟨fault, faults, hfaults, hrecord, -⟩ := List.map_eq_cons_iff.mp hrecords
  have hends : ((run config.recording program).play bench).1 ≠ .abandoned := by decide +kernel
  obtain ⟨-, -, -, -, -, -, report, -, -, -, -, -, -, -, -, houtcome, hreport⟩ :=
    hstops fault faults hfaults hends
  have hlabel : fault.label = "first" := congrArg Prod.fst hrecord
  refine ⟨(hlevels (.inl rfl)).2, report, hlabel ▸ houtcome, ?_⟩
  rw [hreport, List.map_singleton, hrecord]

end Player

end JtagPlayer
