import JtagPlayer.Bus.Simulated
import JtagPlayer.Proofs.Emission
import JtagPlayer.Proofs.Scanning
import JtagPlayer.Proofs.Stages

/-!
# Runs that are abandoned

Every duration is accepted as the delay between two clocks and as the least time of an idle period,
but there are durations that end beyond the last instant, whenever they begin. A run that would have
to wait for one is abandoned, and nobody releases the bus. `Player.Stage.IsOverdue` says of a stage
what it has come to then: it has lowered the clock line for an edge that is overdue, or all that is
left before the end of an idle period is the wait.

`Player.abandoned_iff_overdue` says that these are the only runs that are abandoned, and that every
other run releases the bus as often as it has acquired it.
-/

namespace JtagPlayer

open JtagPlayer.Action

/-- Whether an exchange acquired the bus. -/
def Exchange.isAcquisition : Exchange → Bool
  | ⟨.acquire, .ok _⟩ => true
  | _ => false

/-- Whether an exchange released the bus. -/
def Exchange.isRelease : Exchange → Bool
  | ⟨.release, _⟩ => true
  | _ => false

/-- How often the bus was acquired. -/
def acquisitions (exchanges : List Exchange) : Nat :=
  exchanges.countP Exchange.isAcquisition

/-- How often the bus was released. -/
def releases (exchanges : List Exchange) : Nat :=
  exchanges.countP Exchange.isRelease

@[simp] theorem acquisitions_append (first second : List Exchange) :
    acquisitions (first ++ second) = acquisitions first + acquisitions second :=
  List.countP_append

@[simp] theorem releases_append (first second : List Exchange) :
    releases (first ++ second) = releases first + releases second :=
  List.countP_append

namespace TapDriver

variable {driver driver' : TapDriver} {exchanges : List Exchange}

/-- The clock line is lowered. -/
def lowering : Exchange :=
  ⟨.write .tck false, .ok ()⟩

/-- What an action leaves behind shows why it stopped. If the last that was done is that the clock
line was lowered, the edge is overdue, and otherwise only the bus or a refusal can have been the
reason. -/
structure Accounts (_ : TapDriver) (exchanges : List Exchange) (reason : Option Halt)
    (driver' : TapDriver) : Prop where
  lowered : exchanges.getLast? = some lowering ↔ reason = some .deadlineOverflow
  overdue : reason = some .deadlineOverflow → driver'.EdgeOverdue
  flawless : (∀ error, reason ≠ some (.failed error)) → Flawless exchanges

theorem clock_accounts (tms tdi : Bool) : (clock tms tdi).Upholds Accounts := by
  intro driver exchanges result driver' hcourse
  cases clock_course hcourse with
  | tmsFails | tdiFails | lowFails | riseFails | sampleFails =>
    refine ⟨?_, ?_, ?_⟩ <;> simp [lowering, hardware]
  | overdue hdue =>
    refine ⟨?_, fun _ => hdue, fun _ => ?_⟩
    · simp [setUp, lowering]
    · simp [setUp, Exchange.Succeeds]
  | sampled instant level hdue =>
    refine ⟨?_, ?_, fun _ => ?_⟩
    · simp [lowering]
    · simp
    · simp [setUp, flawless_pause, Exchange.Succeeds]

/-- What does nothing, or has not begun, accounts for its end. -/
theorem accounts_nil {reason : Option Halt} (h : reason ≠ some .deadlineOverflow)
    (driver driver' : TapDriver) : Accounts driver [] reason driver' where
  lowered := by simp [h]
  overdue hreason := absurd hreason h
  flawless _ := flawless_nil

theorem accounts_obeys : Obeys Accounts where
  refl driver := accounts_nil (by simp) driver driver
  fail driver error := accounts_nil (by simp) driver driver
  quiet := by
    intro driver c answer hquiet
    refine ⟨?_, by simp, fun _ => ?_⟩
    · have hne : (⟨c, answer⟩ : Exchange) ≠ lowering := by
        rintro ⟨⟩
        exact hquiet
      simp [hne]
    · cases c <;> simp_all [Call.IsQuiet, Exchange.Succeeds]
  trans := by
    intro driver middle driver' first second reason hfirst hsecond
    refine ⟨?_, hsecond.overdue, fun hreason => ?_⟩
    · -- Nothing ends with a lowered clock line and goes on, so the end of the second part decides.
      have hearly : first.getLast? ≠ some lowering := by
        intro hlast
        cases hfirst.lowered.mp hlast
      rw [← hsecond.lowered, List.getLast?_append]
      cases second.getLast? with
      | none => simp [hearly]
      | some last => simp
    · exact flawless_append.mpr ⟨hfirst.flawless (by simp), hsecond.flawless hreason⟩
  clock := clock_accounts

/-- Clocks leave the clock rate as it is. -/
theorem delay_obeys : Obeys fun driver _ _ driver' => driver'.delay = driver.delay where
  refl _ := rfl
  fail _ _ := rfl
  quiet _ _ _ _ := rfl
  trans hfirst hsecond := hsecond.trans hfirst
  clock tms tdi driver exchanges result driver' hcourse := by
    cases clock_course hcourse <;> rfl

/-- An edge has to be waited for only if the clock rate is limited. -/
theorem EdgeOverdue.limited (h : driver.EdgeOverdue) : driver.delay ≠ none := by
  intro hnone
  obtain ⟨deadline, hdeadline, -⟩ := h
  rw [dueAt, hnone] at hdeadline
  cases hdeadline

/-- The one exception to what clocks do if no operation on the bus fails. The clock rate is limited,
and they are stopped before a rising edge that is due later than any instant. -/
structure EdgeLost {α : Type} (driver : TapDriver) (result : Except Halt α) (driver' : TapDriver) :
    Prop where
  stopped : result = .error .deadlineOverflow
  limited : driver.delay ≠ none
  overdue : driver'.EdgeOverdue

/-- Clocks are stopped by a wait only if an edge is lost. -/
theorem edgeLost_of_upholds {α : Type} {action : Action TapDriver α}
    (haction : ∀ {law : Law TapDriver}, Obeys law → action.Upholds law)
    (h : action.Course driver exchanges (.error .deadlineOverflow) driver') :
    EdgeLost driver (.error .deadlineOverflow : Except Halt α) driver' := by
  have hoverdue : driver'.EdgeOverdue := (haction accounts_obeys h).overdue rfl
  have hdelay : driver'.delay = driver.delay := haction delay_obeys h
  exact ⟨rfl, hdelay ▸ hoverdue.limited, hoverdue⟩

/-- Without a delay no edge of a reset has to be waited for. -/
theorem reset_ne_overflow {result : Except Halt Unit} (hdelay : driver.delay = none)
    (h : reset.Course driver exchanges result driver') : result ≠ .error .deadlineOverflow := by
  rintro rfl
  exact (edgeLost_of_upholds reset_upholds h).limited hdelay

/-- The bus is neither acquired nor released. -/
def keepsBus : Law TapDriver := fun _ exchanges _ _ =>
  acquisitions exchanges = 0 ∧ releases exchanges = 0

theorem keepsBus_obeys : Obeys keepsBus where
  refl _ := ⟨rfl, rfl⟩
  fail _ _ := ⟨rfl, rfl⟩
  quiet := by
    intro driver c answer hquiet
    cases c <;> first | exact ⟨rfl, rfl⟩ | exact absurd hquiet id
  trans := by
    intro driver middle driver' first second reason hfirst hsecond
    rw [keepsBus, acquisitions_append, releases_append, hfirst.1, hfirst.2, hsecond.1, hsecond.2]
    exact ⟨rfl, rfl⟩
  clock tms tdi driver exchanges result driver' hcourse := by
    have hpause : acquisitions driver.pause = 0 ∧ releases driver.pause = 0 := by
      unfold pause
      split <;> exact ⟨rfl, rfl⟩
    cases clock_course hcourse with
    | tmsFails | tdiFails | lowFails | overdue => exact ⟨rfl, rfl⟩
    | riseFails | sampleFails | sampled =>
      rw [keepsBus, acquisitions_append, releases_append, acquisitions_append, releases_append,
        hpause.1, hpause.2]
      exact ⟨rfl, rfl⟩

end TapDriver

/-- A run that is not abandoned returns with a report. -/
theorem RunOutcome.isSome_report? {outcome : RunOutcome} (h : outcome ≠ .abandoned) :
    outcome.report?.isSome := by
  cases outcome with
  | completed report => rfl
  | stopped error report => rfl
  | abandoned => exact absurd rfl h

/-- There is a route to the state of an idle period, if it has one. -/
def RunTest.HasRoute (test : RunTest) (state : TapState) : Prop :=
  ∀ target, test.runState = some target → target ≠ state → (state.route? target).isSome

namespace Player

variable {session session' : Session} {exchanges : List Exchange}

/-- The first route of an idle period can be taken exactly if there is one. If no operation on the
bus fails only an overdue edge can stop it then. -/
theorem firstRoute_course {test : RunTest} {result : Except Halt Unit}
    (h : (routeToGiven (test.runState.filter (· ≠ session.tap.state))).Course session exchanges
      result session') :
    (¬ test.HasRoute session.tap.state ∧ ∃ error, result = .error (.failed error)) ∨
    (test.HasRoute session.tap.state ∧
      (Flawless exchanges → ∀ reason, result = .error reason → reason = .deadlineOverflow)) := by
  cases hgiven : test.runState.filter (· ≠ session.tap.state) with
  | none =>
    rw [hgiven] at h
    obtain ⟨-, rfl, -⟩ := course_pure.mp h
    refine .inr ⟨fun target htarget hne => ?_, fun _ reason hreason => nomatch hreason⟩
    rw [htarget] at hgiven
    simp [hne] at hgiven
  | some target =>
    rw [hgiven] at h
    obtain ⟨driver, hroute, -⟩ := routeTo_course.mp h
    obtain ⟨htarget, hne⟩ := Option.filter_eq_some_iff.mp hgiven
    rcases TapDriver.routeTo_course hroute with
      ⟨hnone, -, rfl, -⟩ | ⟨word, rest, hword, rfl, hwalk⟩
    · refine .inl ⟨fun hhas => ?_, _, rfl⟩
      have hsome := hhas target htarget (of_decide_eq_true hne)
      rw [hnone] at hsome
      cases hsome
    · refine .inr ⟨fun other hother _ => ?_, fun hflawless reason hreason => ?_⟩
      · rw [htarget] at hother
        cases hother
        rw [hword]
        rfl
      · rw [hreason] at hwalk
        exact (TapDriver.clockWord_emits word).steady hwalk (flawless_cons.mp hflawless).2

/-- If no operation on the bus fails, only an overdue edge stops idle clocks. -/
theorem idle_steady {start count remaining : Nat} {maxTime : Option Nat} {reason : Halt}
    (h : (idle start maxTime count remaining).Course session exchanges (.error reason) session')
    (hflawless : Flawless exchanges) : reason = .deadlineOverflow := by
  induction remaining generalizing session exchanges with
  | zero =>
    obtain ⟨-, hresult, -⟩ := course_pure.mp h
    cases hresult
  | succ remaining ih =>
    rcases course_bind.mp h with
      ⟨looking, rest, isLate, middle, hlook, hrest, rfl⟩ | ⟨other, hlook, hresult⟩
    · cases isLate with
      | true =>
        obtain ⟨answer, -, hresult, -⟩ := course_ask.mp hrest
        cases hresult
      | false =>
        have hflawless' := (flawless_append.mp hflawless).2
        rcases course_bind.mp hrest with
          ⟨first, later, level, clocked, hclock, hidle, rfl⟩ | ⟨other, hclock, hresult⟩
        · exact ih hidle (flawless_append.mp hflawless').2
        · obtain ⟨driver, hdriver, -⟩ := onTap_course.mp hclock
          cases hresult
          exact (TapDriver.clock_emits false false).steady hdriver hflawless'
    · obtain ⟨-, ⟨-, -, hlooked⟩ | ⟨limit, instant, -, -, hlooked⟩⟩ := isOver_course hlook
      · cases hlooked
      · cases hlooked

/-- So it is with all of an idle period before its wait, if there is a route to its state. -/
theorem approach_course {test : RunTest} {maxTime : Option Nat} {start : Nat}
    {result : Except Halt Unit}
    (h : (approach test maxTime start).Course session exchanges result session') :
    (¬ test.HasRoute session.tap.state ∧ ∃ error, result = .error (.failed error)) ∨
    (test.HasRoute session.tap.state ∧
      (Flawless exchanges → ∀ reason, result = .error reason → reason = .deadlineOverflow)) := by
  rcases course_bind.mp (course_get_bind.mp h) with
    ⟨routing, idling, ⟨⟩, routed, hroute, hidle, rfl⟩ | ⟨reason, hroute, rfl⟩
  · rcases firstRoute_course hroute with ⟨-, error, hresult⟩ | ⟨hhas, -⟩
    · cases hresult
    · refine .inr ⟨hhas, fun hflawless reason hreason => ?_⟩
      rw [hreason] at hidle
      exact idle_steady hidle (flawless_append.mp hflawless).2
  · rcases firstRoute_course hroute with ⟨hnot, error, hresult⟩ | ⟨hhas, hsteady⟩
    · exact .inl ⟨hnot, error, congrArg _ (Except.error.inj hresult)⟩
    · refine .inr ⟨hhas, fun hflawless other hother => ?_⟩
      cases hother
      exact hsteady hflawless reason rfl

/-- An idle period with a route to its state can only be stopped by an overdue edge or by its
wait, if no operation on the bus fails. -/
theorem TestCourse.eq_overflow {test : RunTest} {result : Except Halt Unit}
    (h : TestCourse test session exchanges result session')
    (hroute : test.HasRoute session.tap.state) (hflawless : Flawless exchanges)
    (hoverdue : test.IsOverdue exchanges) : result = .error .deadlineOverflow := by
  obtain ⟨start, minTime, hstart, hminTime, hlimit⟩ := hoverdue
  cases h with
  | refused hnone hgiven => cases hstart
  | stopped hminTime' happroach =>
    rcases approach_course happroach with ⟨hnot, -⟩ | ⟨-, hsteady⟩
    · exact absurd hroute hnot
    · rw [hsteady (flawless_cons.mp hflawless).2 _ rfl]
  | overdue hminTime' happroach hlimit' => rfl
  | waited hminTime' happroach hlimit' hleave =>
    cases hstart
    cases hminTime.symm.trans hminTime'
    omega

/-- Up to its wait an idle period stops for want of a route, or it has one. -/
theorem hasRoute_of_approach {test : RunTest} {maxTime : Option Nat} {start : Nat}
    {result : Except Halt Unit}
    (h : (approach test maxTime start).Course session exchanges result session')
    (hresult : ∀ error, result ≠ .error (.failed error)) : test.HasRoute session.tap.state := by
  rcases approach_course h with ⟨-, error, hfailed⟩ | ⟨hhas, -⟩
  · exact absurd hfailed (hresult error)
  · exact hhas

/-- An idle period that does not fail has a route to its state. -/
theorem TestCourse.hasRoute {test : RunTest} {result : Except Halt Unit}
    (h : TestCourse test session exchanges result session')
    (hresult : ∀ error, result ≠ .error (.failed error)) : test.HasRoute session.tap.state := by
  cases h with
  | refused hnone hgiven => exact absurd rfl (hresult _)
  | stopped hminTime happroach => exact hasRoute_of_approach happroach hresult
  | overdue hminTime happroach hlimit => exact hasRoute_of_approach happroach nofun
  | waited hminTime happroach hlimit hleave => exact hasRoute_of_approach happroach nofun

/-- The law for the driver of a session. -/
theorem accounts_obeys : ObeysPlain (lawOfTap TapDriver.Accounts) :=
  ObeysPlain.ofTap TapDriver.accounts_obeys

/-- An instruction accounts for its end, unless it is an idle period that is stopped by its wait. -/
theorem execute_accounts {instruction : Instruction} {result : Except Halt Unit}
    (h : (execute instruction).Course session exchanges result session') :
    TapDriver.Accounts session.tap exchanges (reason? result) session'.tap ∨
    (result = .error .deadlineOverflow ∧ Flawless exchanges ∧ ∃ test, instruction = .runTest test ∧
      test.HasRoute session.tap.state ∧ test.IsOverdue exchanges) := by
  by_cases htest : ∃ test, instruction = .runTest test
  · obtain ⟨test, rfl⟩ := htest
    have hcourse := runTest_course h
    have hroute := fun target => routeTo_upholds accounts_obeys target
    rcases hcourse.law_or_overdue accounts_obeys.toComposes
        (onTap_upholds (accounts_obeys.onTap.clock false false)) (fun target _ => hroute target)
        (fun target _ => hroute target) with hlaw | ⟨hlaw, rfl, hoverdue⟩
    · exact .inl hlaw
    · have hhas : test.HasRoute session.tap.state := hcourse.hasRoute (by simp)
      exact .inr ⟨rfl, hlaw.flawless (by simp), test, rfl, hhas, hoverdue⟩
  · refine .inl (execute_upholds_of accounts_obeys instruction ?_ ?_ ?_ h)
    · intro hz hfrequency
      exact setFrequency_upholds accounts_obeys.toComposes
        (fun session delay => TapDriver.accounts_nil (by simp) _ _) hz
    · intro register delta label hshift
      exact scan_upholds accounts_obeys
        (fun session fault => TapDriver.accounts_nil (by simp) _ _) register delta label
    · intro test heq
      exact absurd ⟨test, heq⟩ htest

/-- What a stage has come to if its next step is to wait for a time that no clock reaches: the clock
line was lowered last, and the edge is overdue, or nothing kept an idle period from its wait, and
its least time is overdue. -/
inductive Stage.IsOverdue (stage : Stage) : Prop where
  | edge (hlowered : stage.exchanges.getLast? = some TapDriver.lowering)
      (hdue : stage.after.tap.EdgeOverdue)
  | period (test : RunTest) (hinstruction : stage.instruction = .runTest test)
      (hroute : test.HasRoute stage.before.tap.state) (hflawless : Flawless stage.exchanges)
      (hdue : test.IsOverdue stage.exchanges)

/-- A stage is stopped before an edge that is due later than any instant. -/
def Stage.EdgeLost (stage : Stage) : Prop :=
  stage.before.tap.EdgeLost stage.result stage.after.tap

/-- A stage that is stopped stops all stages. -/
theorem Unfolds.stopped {program : List Instruction} {stages : List Stage}
    {result : Except Halt Unit} (h : Unfolds program session stages result session') {stage : Stage}
    (hmem : stage ∈ stages) {reason : Halt} (hstage : stage.result = .error reason) :
    result = .error reason := by
  induction h with
  | done session => cases hmem
  | stops hstops =>
    cases List.mem_singleton.mp hmem
    exact hstage
  | goesOn hgoes hrest ih =>
    rcases List.mem_cons.mp hmem with rfl | hlater
    · cases hstage
    · exact ih hlater

/-- A scan that is stopped by a wait has lost an edge. -/
theorem edgeLost_of_scan {register : Register} {delta : Pattern} {label : Option String}
    (h : (scan register delta label).Course session exchanges (.error .deadlineOverflow) session') :
    session.tap.EdgeLost (.error .deadlineOverflow : Except Halt Unit) session'.tap := by
  have hdue : session'.tap.EdgeOverdue := (scan_upholds accounts_obeys
    (fun session fault => TapDriver.accounts_nil (by simp) _ _) register delta label h).overdue rfl
  have hdelay : session'.tap.delay = session.tap.delay :=
    scan_upholds (ObeysPlain.ofTap TapDriver.delay_obeys) (fun _ _ => rfl) register delta label h
  exact ⟨rfl, hdelay ▸ hdue.limited, hdue⟩

/-- An instruction is stopped by a wait exactly if it has come to that. -/
theorem execute_eq_overflow_iff {instruction : Instruction} {result : Except Halt Unit}
    (h : (execute instruction).Course session exchanges result session') :
    result = .error .deadlineOverflow ↔
      (⟨instruction, session, exchanges, result, session'⟩ : Stage).IsOverdue := by
  constructor
  · rintro rfl
    rcases execute_accounts h with haccounts | ⟨-, hflawless, test, htest, hroute, hdue⟩
    · exact .edge (haccounts.lowered.mpr rfl) (haccounts.overdue rfl)
    · exact .period test htest hroute hflawless hdue
  · intro hoverdue
    rcases hoverdue with ⟨hlowered, -⟩ | ⟨test, hinstruction, hroute, hflawless, hdue⟩
    · rcases execute_accounts h with haccounts | ⟨hresult, -⟩
      · have hreason := haccounts.lowered.mp hlowered
        cases result with
        | error reason => rw [Option.some.inj hreason]
        | ok u => cases hreason
      · exact hresult
    · cases hinstruction
      exact (runTest_course h).eq_overflow hroute hflawless hdue

/-- Stages are stopped by a wait exactly if one of them has come to that. -/
theorem Unfolds.eq_overflow_iff {program : List Instruction} {stages : List Stage}
    {result : Except Halt Unit} (h : Unfolds program session stages result session') :
    result = .error .deadlineOverflow ↔ ∃ stage ∈ stages, stage.IsOverdue := by
  induction h with
  | done session => simp
  | @stops instruction program session exchanges reason session' hstage =>
    rw [execute_eq_overflow_iff hstage]
    simp
  | @goesOn instruction program session exchanges middle stages result session' hstage hrest ih =>
    have hfirst : ¬ (⟨instruction, session, exchanges, .ok (), middle⟩ : Stage).IsOverdue := by
      rw [← execute_eq_overflow_iff hstage]
      simp
    rw [ih]
    simp [hfirst]

/-- Neither the reset nor the stages of a run acquire the bus or release it. -/
theorem keepsBus_obeys : Obeys (lawOfTap TapDriver.keepsBus) :=
  Obeys.ofTap TapDriver.keepsBus_obeys fun _ _ => ⟨rfl, rfl⟩

/-- A session is finished with the one release of the bus, unless it is abandoned. -/
theorem Finish.releases_eq {start : Nat} {result : Except Halt Unit} {outcome : RunOutcome}
    (h : Finish start session result exchanges outcome) :
    acquisitions exchanges = 0 ∧ releases exchanges = (if outcome = .abandoned then 0 else 1) ∧
      (outcome = .abandoned ↔ result = .error .deadlineOverflow) := by
  cases h with
  | abandoned => exact ⟨rfl, rfl, by simp⟩
  | stopped error instant => exact ⟨rfl, rfl, by simp⟩
  | completed instant => exact ⟨rfl, rfl, by simp⟩

theorem acquisitions_opening (program : List Instruction) (start : Nat) :
    acquisitions (opening program start (.ok ())) = 1 ∧
      releases (opening program start (.ok ())) = 0 :=
  ⟨rfl, rfl⟩

theorem RunCourse.abandons {config : PlayerConfig} {program : List Instruction}
    {performance : Performance} {outcome : RunOutcome}
    (h : RunCourse config program performance exchanges outcome) :
    (outcome = .abandoned ↔ ∃ stage ∈ performance.stages, stage.IsOverdue) ∧
      (outcome = .abandoned → acquisitions exchanges = 1 ∧ releases exchanges = 0) ∧
      (outcome ≠ .abandoned → acquisitions exchanges ≤ 1 ∧
        releases exchanges = acquisitions exchanges) := by
  cases h with
  | unstarted start instant error =>
    refine ⟨?_, nofun, fun _ => ⟨Nat.zero_le 1, rfl⟩⟩
    simp
  | @unready start resetting reason session closing outcome hreset hfinish =>
    have hreset' := onTap_upholds_lawOfTap (TapDriver.reset_upholds TapDriver.keepsBus_obeys) hreset
    obtain ⟨driver, hdriver, -⟩ := onTap_course.mp hreset
    -- No clock rate is set before the first instruction, so the reset has nothing to wait for.
    have hresult := TapDriver.reset_ne_overflow rfl hdriver
    obtain ⟨hacquired, hreleased, habandoned⟩ := hfinish.releases_eq
    have hends : outcome ≠ .abandoned := fun houtcome => hresult (habandoned.mp houtcome)
    refine ⟨?_, fun houtcome => absurd houtcome hends, fun _ => ?_⟩
    · simp [hends]
    · rw [if_neg hends] at hreleased
      simp [hacquired, hreleased, hreset'.1, hreset'.2, acquisitions_opening]
  | @ready start resetting session stages result session' closing outcome hreset hstages hfinish =>
    have hreset' := onTap_upholds_lawOfTap (TapDriver.reset_upholds TapDriver.keepsBus_obeys) hreset
    have hstages' := hstages.upholds keepsBus_obeys (fun _ => ⟨rfl, rfl⟩) 0
    obtain ⟨hacquired, hreleased, habandoned⟩ := hfinish.releases_eq
    refine ⟨habandoned.trans hstages.eq_overflow_iff, fun houtcome => ?_, fun houtcome => ?_⟩
    · rw [if_pos houtcome] at hreleased
      simp [hacquired, hreleased, hreset'.1, hreset'.2, hstages'.1, hstages'.2,
        acquisitions_opening]
    · rw [if_neg houtcome] at hreleased
      simp [hacquired, hreleased, hreset'.1, hreset'.2, hstages'.1, hstages'.2,
        acquisitions_opening]

/-- A run is abandoned exactly if one of its stages has come to a wait for a time that no clock
reaches. It has acquired the bus then and does not release it. Every other run returns with a report
and releases the bus once if it has acquired it, and not at all if not. -/
theorem abandoned_iff_overdue {β τ : Type} [Bus β] [Clock τ] (bench : Bench β τ)
    (config : PlayerConfig) (program : List Instruction) :
    let exchanges := (run config program).transcript bench
    let outcome := ((run config program).play bench).1
    (outcome = .abandoned ↔
        ∃ stage ∈ (performance config program bench).stages, stage.IsOverdue) ∧
      (outcome = .abandoned → acquisitions exchanges = 1 ∧ releases exchanges = 0) ∧
      (outcome ≠ .abandoned → outcome.report?.isSome ∧ acquisitions exchanges ≤ 1 ∧
        releases exchanges = acquisitions exchanges) := by
  obtain ⟨habandoned, hkept, hreleased⟩ := (run_course config program bench).abandons
  exact ⟨habandoned, hkept, fun hends => ⟨RunOutcome.isSome_report? hends, hreleased hends⟩⟩

/-- A least time and a clock rate that are accepted. No operation on the bus fails, and yet it is
not released. -/
theorem abandoned_with_accepted_times :
    let bench : Bench SimulatedBus IdealClock := { bus := {}, clock := {} }
    (Duration.ofSeconds? 1e19).isSome ∧ (TapDriver.delayOf 1e-19).isOk ∧
    ∀ program ∈ [[Instruction.runTest { minTime := 1e19 }],
        [.setFrequency 1e-19, .goToState .idle none]],
      ((run {} program).play bench).1 = .abandoned ∧
      Flawless ((run {} program).transcript bench) ∧
      acquisitions ((run {} program).transcript bench) = 1 ∧
      releases ((run {} program).transcript bench) = 0 := by
  decide +kernel

end Player

end JtagPlayer
