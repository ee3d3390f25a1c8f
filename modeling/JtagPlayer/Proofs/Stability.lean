import JtagPlayer.Proofs.Halting
import JtagPlayer.Proofs.Keeping
import JtagPlayer.Proofs.Lingering
import JtagPlayer.Proofs.Settings
import Mathlib.Control.Monad.Basic

/-!
# Programs that name stable states only

Routes exist between stable states only, and a player that asks for another one stops. It never does
so in a program all of whose destinations are stable: `Player.Settles` says of an instruction in
such a program that it is not stopped for want of a route, and that it leaves the device in a stable
state if it ends well. Idle clocks keep the device among the stable states, a scan ends in its end
state, and an explicit path may lead through any states as long as its last one is stable.

`Player.stays_routable` says so of whole runs, and that the device is where the player takes it to
be.
-/

namespace JtagPlayer

open JtagPlayer.Action

/-- The errors of movements from, to or into a state that is not stable. -/
def PlayError.IsMisrouted : PlayError → Prop
  | .move (.noRoute _ _) | .move (.notStable _) => True
  | _ => False

/-- The reason is such an error. -/
def Halt.IsMisrouted : Halt → Prop
  | .failed error => error.IsMisrouted
  | .deadlineOverflow => False

/-- A clock goes nowhere without a route. -/
theorem Halt.excuses_of_misrouted : Halt.Excuses fun reason => ¬ reason.IsMisrouted where
  overflow := id
  hardware _ := id

/-- The states in which an instruction asks the device to stay, now or after later scans. -/
def Instruction.destinations : Instruction → List TapState
  | setEndState _ state => [state]
  | runTest test => test.runState.toList ++ test.endState.toList
  | goToState target _ => [target]
  | _ => []

/-- All of them are stable. The states on the way there may be any. -/
def Instruction.NamesStable (instruction : Instruction) : Prop :=
  ∀ state ∈ instruction.destinations, state ∈ TapState.stable

instance : DecidablePred Instruction.NamesStable :=
  fun instruction => inferInstanceAs
    (Decidable (∀ state ∈ instruction.destinations, state ∈ TapState.stable))

namespace TapDriver

variable {driver driver' : TapDriver} {exchanges : List Exchange} {target : TapState}
  {reason : Halt}

/-- A route between stable states is not missing. -/
theorem routeTo_routed (h : (routeTo target).Course driver exchanges (.error reason) driver')
    (hstart : driver.state ∈ TapState.stable) (htarget : target ∈ TapState.stable) :
    ¬ reason.IsMisrouted := by
  rcases routeTo_course h with ⟨hnone, -, -, -⟩ | ⟨word, rest, -, -, hwalk⟩
  · obtain ⟨word, hword⟩ := TapState.exists_route hstart htarget
    cases hnone.symm.trans hword
  · exact clockWord_stopsFor Halt.excuses_of_misrouted word hwalk

/-- A scan is left from a pause state, and that is stable. -/
theorem leaveFor_routed {register : Register}
    (h : (leaveFor target).Course driver exchanges (.error reason) driver')
    (hstate : driver.state = register.shiftState.next true) (htarget : target ∈ TapState.stable) :
    ¬ reason.IsMisrouted := by
  have hpause := register.pause_mem_stable
  rw [← hstate] at hpause
  rcases course_bind.mp h with
    ⟨first, rest, level, middle, hclock, hroute, -⟩ | ⟨stop, hclock, hresult⟩
  · exact routeTo_routed hroute (state_of_clock hclock ▸ hpause) htarget
  · cases hresult
    exact clock_stopsFor Halt.excuses_of_misrouted false false hclock

/-- A step that was made. -/
theorem stepTo_ok (h : (stepTo target).Course driver exchanges (.ok ()) driver') :
    driver'.state = target := by
  rcases stepTo_course h with ⟨-, -, -, hresult⟩ | ⟨tms, answer, hnext, hclock, hresult⟩
  · cases hresult
  · cases answer with
    | error reason => cases hresult
    | ok level => rw [state_of_clock hclock, hnext]

/-- A path that was walked to its end has led there, whatever states it leads through. -/
theorem walkPath_ok {path : List TapState}
    (h : (walkPath (path ++ [target])).Course driver exchanges (.ok ()) driver') :
    driver'.state = target := by
  induction path generalizing driver exchanges with
  | nil =>
    rcases course_bind.mp h with ⟨first, rest, ⟨⟩, middle, hstep, hdone, -⟩ | ⟨reason, -, hresult⟩
    · obtain ⟨-, -, rfl⟩ := course_pure.mp hdone
      exact stepTo_ok hstep
    · cases hresult
  | cons state path ih =>
    rcases course_bind.mp h with ⟨first, rest, ⟨⟩, middle, -, hwalk, -⟩ | ⟨reason, -, hresult⟩
    · exact ih hwalk
    · cases hresult

end TapDriver

namespace Player

variable {session session' : Session} {exchanges : List Exchange} {result : Except Halt Unit}

/-- A step ends in a stable state or is stopped, but not for want of a route. -/
structure Settles (result : Except Halt Unit) (session' : Session) : Prop where
  stable : result = .ok () → session'.tap.state ∈ TapState.stable
  routed : ∀ reason, result = .error reason → ¬ reason.IsMisrouted

theorem settles_ok (h : session'.tap.state ∈ TapState.stable) : Settles (.ok ()) session' where
  stable _ := h
  routed _ hresult := nomatch hresult

theorem settles_error {reason : Halt} (h : ¬ reason.IsMisrouted) :
    Settles (.error reason) session' where
  stable hresult := nomatch hresult
  routed stop hresult := by
    cases hresult
    exact h

/-- The step after one that settled settles as well. -/
theorem settles_bind {action next : Action Session Unit}
    (h : (action >>= fun _ => next).Course session exchanges result session')
    (hfirst : ∀ {exchanges result middle}, action.Course session exchanges result middle →
      Settles result middle)
    (hsecond : ∀ {exchanges result middle session'}, middle.tap.state ∈ TapState.stable →
      next.Course middle exchanges result session' → Settles result session') :
    Settles result session' := by
  rcases course_bind.mp h with ⟨first, rest, ⟨⟩, middle, hstep, hrest, -⟩ | ⟨reason, hstop, rfl⟩
  · exact hsecond ((hfirst hstep).stable rfl) hrest
  · exact settles_error ((hfirst hstop).routed reason rfl)

theorem routeTo_settles {target : TapState} (hstart : session.tap.state ∈ TapState.stable)
    (htarget : target ∈ TapState.stable)
    (h : (routeTo target).Course session exchanges result session') : Settles result session' := by
  obtain ⟨driver, hroute, rfl⟩ := routeTo_course.mp h
  cases result with
  | error reason => exact settles_error (TapDriver.routeTo_routed hroute hstart htarget)
  | ok u =>
    obtain ⟨word, -, -, hstate⟩ := TapDriver.routeTo_ok hroute
    exact settles_ok (hstate ▸ htarget)

theorem routeToGiven_settles {given : Option TapState}
    (hstart : session.tap.state ∈ TapState.stable)
    (hgiven : ∀ target ∈ given, target ∈ TapState.stable)
    (h : (routeToGiven given).Course session exchanges result session') :
    Settles result session' := by
  cases given with
  | none =>
    obtain ⟨-, rfl, rfl⟩ := course_pure.mp h
    exact settles_ok hstart
  | some target => exact routeTo_settles hstart (hgiven target rfl) h

/-- Idle clocks that begin in a stable state end in one, however many of them are given. -/
theorem idle_settles {start count remaining : Nat} {maxTime : Option Nat}
    (hstart : session.tap.state ∈ TapState.stable)
    (h : (idle start maxTime count remaining).Course session exchanges result session') :
    Settles result session' := by
  cases result with
  | error reason =>
    exact settles_error (idle_stopsFor Halt.excuses_of_misrouted start maxTime count remaining h)
  | ok u =>
    obtain ⟨given, -, -, hstate, -⟩ := idle_given h
    refine settles_ok ?_
    rw [hstate, TapState.follow_low hstart]
    split
    · exact hstart
    · exact TapState.lingering_mem_stable hstart

theorem approach_settles {test : RunTest} {maxTime : Option Nat} {start : Nat}
    (hstart : session.tap.state ∈ TapState.stable)
    (hrun : ∀ target ∈ test.runState, target ∈ TapState.stable)
    (h : (approach test maxTime start).Course session exchanges result session') :
    Settles result session' := by
  refine settles_bind (course_get_bind.mp h) (routeToGiven_settles hstart ?_) idle_settles
  intro target htarget
  exact hrun target (Option.filter_eq_some_iff.mp htarget).1

theorem settles_of_test {test : RunTest} (hstart : session.tap.state ∈ TapState.stable)
    (hnames : (Instruction.runTest test).NamesStable)
    (h : TestCourse test session exchanges result session') : Settles result session' := by
  have hrun : ∀ target ∈ test.runState, target ∈ TapState.stable :=
    fun target htarget => hnames target (by simp_all [Instruction.destinations])
  have hend : ∀ target ∈ test.endState, target ∈ TapState.stable :=
    fun target htarget => hnames target (by simp_all [Instruction.destinations])
  cases h with
  | refused hnone hgiven => exact settles_error id
  | stopped hminTime happroach => exact approach_settles hstart hrun happroach
  | overdue hminTime happroach hlimit => exact settles_error id
  | waited hminTime happroach hlimit hleave =>
    exact routeToGiven_settles ((approach_settles hstart hrun happroach).stable rfl) hend hleave

theorem settles_of_scan {register : Register} {delta : Pattern} {label : Option String}
    (hstart : session.tap.state ∈ TapState.stable)
    (hend : session.endState register ∈ TapState.stable)
    (h : ScanCourse register delta label session exchanges result session') :
    Settles result session' := by
  have hshiftState : register.shiftState ∈ TapState.stable := by
    cases register <;> decide
  cases h with
  | refused hupdate => exact settles_error id
  | unrouted hupdate hroute =>
    exact settles_error (TapDriver.routeTo_routed hroute hstart hshiftState)
  | unshifted hupdate hroute hshift =>
    exact settles_error (Segments.shift_stopsFor Halt.excuses_of_misrouted _ hshift)
  | @shifted registers routing shifting leaving samples left driver driver' driver'' hupdate hroute
      hshift hleave =>
    obtain ⟨word, -, -, hstate⟩ := TapDriver.routeTo_ok hroute
    have hexit := (TapDriver.shift_ok hshift hstate (Registers.bits_ne_nil_of_update hupdate)).2
    cases left with
    | error reason => exact settles_error (TapDriver.leaveFor_routed hleave hexit hend)
    | ok u =>
      change Settles (verdict session _ label) _
      unfold verdict
      split
      · refine settles_ok ?_
        rw [tap_judge]
        exact (TapDriver.leaveFor_still hleave hexit).2 rfl ▸ hend
      · exact settles_error id

/-- From a stable state an instruction that names stable states settles. -/
theorem execute_settles {instruction : Instruction}
    (h : (execute instruction).Course session exchanges result session')
    (hnames : instruction.NamesStable) (hstart : session.tap.state ∈ TapState.stable)
    (hends : ∀ register, session.endState register ∈ TapState.stable) :
    Settles result session' := by
  cases instruction with
  | setEndState register state =>
    have hstable : state.isStable = true := by
      simpa [TapState.isStable] using hnames state (by simp [Instruction.destinations])
    rcases setEndState_course h with ⟨error, herror, -, -, -⟩ | ⟨updated, hset, -, rfl, rfl⟩
    · cases (if_pos hstable).symm.trans herror
    · obtain ⟨-, endData, endInstruction, rfl⟩ := Session.setEndState_eq_ok hset
      exact settles_ok hstart
  | setFrequency hz =>
    rcases setFrequency_course h with ⟨error, -, -, rfl, -⟩ | ⟨delay, -, -, rfl, rfl⟩
    · exact settles_error id
    · exact settles_ok hstart
  | setHeader register delta | setTrailer register delta =>
    rcases setPattern_course h with ⟨error, -, -, rfl, -⟩ | ⟨registers, -, -, rfl, rfl⟩
    · exact settles_error id
    · exact settles_ok hstart
  | shift register delta label => exact settles_of_scan hstart (hends register) (scan_course h)
  | runTest test => exact settles_of_test hstart hnames (runTest_course h)
  | goToState target path =>
    have htarget := hnames target (by simp [Instruction.destinations])
    cases path with
    | none => exact routeTo_settles hstart htarget h
    | some path =>
      obtain ⟨driver, hwalk, rfl⟩ := onTap_course.mp h
      cases result with
      | error reason =>
        exact settles_error (TapDriver.walkPath_stopsFor Halt.excuses_of_misrouted
          (fun _ _ => id) _ hwalk)
      | ok u => exact settles_ok (TapDriver.walkPath_ok hwalk ▸ htarget)
  | unsupported command =>
    obtain ⟨-, rfl, -⟩ := course_fail.mp h
    exact settles_error id
  | unknown =>
    obtain ⟨-, rfl, -⟩ := course_fail.mp h
    exact settles_error id

/-- The stages of a program that names stable states settle one after the other, and the device
follows each of them. -/
theorem Unfolds.settles {program : List Instruction} {stages : List Stage}
    (h : Unfolds program session stages result session')
    (hnames : ∀ instruction ∈ program, instruction.NamesStable) (hsound : session.IsSound)
    (hstart : session.tap.state ∈ TapState.stable) {device : Device}
    (hdevice : device.state = session.tap.state) (index : Nat) :
    (∀ reason, result = .error reason → ¬ reason.IsMisrouted) ∧
      ∀ early stage later, stages = early ++ stage :: later → stage.result = .ok () →
        stage.after.tap.state ∈ TapState.stable ∧
          (device.watch (said index (early ++ [stage]))).state = stage.after.tap.state := by
  -- The induction is carried by three facts about what comes between two instructions: the session
  -- is sound, its state is stable, and the device is in this state.
  induction h generalizing device index with
  | done session =>
    exact ⟨nofun, fun early stage later hsplit => absurd hsplit.symm (by simp)⟩
  | @stops instruction program session exchanges reason session' hstage =>
    have hsettles := execute_settles hstage (hnames instruction (by simp)) hstart hsound.ends
    refine ⟨hsettles.routed, fun early stage later hsplit hresult => ?_⟩
    have hlast : stage ∈ [⟨instruction, session, exchanges, .error reason, session'⟩] := by
      rw [hsplit]
      simp
    rw [List.mem_singleton.mp hlast] at hresult
    cases hresult
  | @goesOn instruction program session exchanges middle stages result session' hstage hrest ih =>
    have hsettles := execute_settles hstage (hnames instruction (by simp)) hstart hsound.ends
    have hmiddle : middle.tap.state ∈ TapState.stable := hsettles.stable rfl
    have hwatch : (device.watch (announcement index instruction :: exchanges)).state =
        middle.tap.state := by
      rw [Device.watch_eq, Lines.edges_cons_of_isIdle _ (isIdle_announcement index instruction),
        execute_follows hstage device.lines, hdevice]
    obtain ⟨hrouted, hlater⟩ := ih (fun other hother => hnames other (by simp [hother]))
      (execute_keepsSound hstage hsound) hmiddle hwatch (index + 1)
    refine ⟨hrouted, fun early stage later hsplit hresult => ?_⟩
    cases early with
    | nil =>
      cases hsplit
      exact ⟨hmiddle, by rw [← hwatch, List.nil_append, said, said, List.append_nil]⟩
    | cons first early =>
      cases hsplit
      obtain ⟨hstable, hfollows⟩ := hlater early stage later rfl hresult
      refine ⟨hstable, hfollows ▸ ?_⟩
      rw [List.cons_append, said, ← List.cons_append]
      simp only [Device.watch, List.foldl_append]

/-- What can be said of a run that names stable states only, once the bus is acquired or not. -/
theorem RunCourse.settles {config : PlayerConfig} {program : List Instruction}
    {performance : Performance} {exchanges : List Exchange} {outcome : RunOutcome}
    (h : RunCourse config program performance exchanges outcome)
    (hnames : ∀ instruction ∈ program, instruction.NamesStable) (device : Device) :
    (∀ error, outcome.error? = some error → ¬ error.IsMisrouted) ∧
      ∀ early stage later, performance.stages = early ++ stage :: later → stage.result = .ok () →
        stage.after.tap.state ∈ TapState.stable ∧
          (device.watch (performance.prelude ++ said 0 (early ++ [stage]))).state =
            stage.after.tap.state := by
  -- The end of a run gives no other reason than its program did.
  have hfinished : ∀ {start session result closing},
      (∀ reason, result = .error reason → ¬ reason.IsMisrouted) →
      Finish start session result closing outcome →
      ∀ error, outcome.error? = some error → ¬ error.IsMisrouted := by
    intro start session result closing hrouted hfinish error herror
    cases hfinish with
    | abandoned => cases herror
    | completed instant => cases herror
    | stopped stop instant =>
      cases herror
      exact hrouted _ rfl
  cases h with
  | unstarted start instant error =>
    refine ⟨fun other hother => ?_, fun early stage later hsplit => absurd hsplit.symm (by simp)⟩
    cases hother
    exact id
  | unready hreset hfinish =>
    refine ⟨hfinished (fun reason hreason => ?_) hfinish,
      fun early stage later hsplit => absurd hsplit.symm (by simp)⟩
    cases hreason
    exact onTap_stopsFor (TapDriver.clockWord_stopsFor Halt.excuses_of_misrouted _) hreset
  | @ready start resetting session stages result session' closing outcome hreset hstages hfinish =>
    obtain ⟨-, -, hstate, hedges⟩ := reset_ok hreset
    have hsound : session.IsSound :=
      onTap_upholds (TapDriver.reset_upholds keepsSound_obeys.onTap) hreset
        (Session.isSound_initial config)
    have hdevice : (device.watch (opening program start (.ok ()) ++ resetting)).state =
        session.tap.state := by
      rw [Device.watch_eq, Lines.edges_append_of_isIdle _ (isIdle_opening program start _), hedges,
        TapState.follow_replicate_high, hstate]
    obtain ⟨hrouted, hstages⟩ := hstages.settles hnames hsound (by rw [hstate]; decide) hdevice 0
    refine ⟨hfinished hrouted hfinish, fun early stage later hsplit hresult => ?_⟩
    obtain ⟨hstable, hfollows⟩ := hstages early stage later hsplit hresult
    refine ⟨hstable, hfollows ▸ ?_⟩
    simp only [Device.watch, List.foldl_append]

/-- A program that names stable states only is always routable. Whatever the bus does, a run of it
is never stopped for want of a route or by a state that scans cannot end in, and after every
instruction that ends well the device is in a stable state, the one that the player takes it to be
in. -/
theorem stays_routable {β τ : Type} [Bus β] [Clock τ] (config : PlayerConfig)
    (program : List Instruction) (bench : Bench β τ) (device : Device)
    (hnames : ∀ instruction ∈ program, instruction.NamesStable) :
    let performance := performance config program bench
    (∀ error, ((run config program).play bench).1.error? = some error → ¬ error.IsMisrouted) ∧
      ∀ early stage later, performance.stages = early ++ stage :: later → stage.result = .ok () →
        stage.after.tap.state ∈ TapState.stable ∧
          (device.watch (performance.prelude ++ said 0 (early ++ [stage]))).state =
            stage.after.tap.state :=
  (run_course config program bench).settles hnames device

/-- A path through states that are not stable, and a scan during which the bus fails. -/
theorem stays_routable_explicit_path :
    let bench : Bench SimulatedBus IdealClock := { bus := { failingWrite := some 70 }, clock := {} }
    let program : List Instruction := [
      .goToState .irPause (some [.idle, .drSelect, .irSelect, .irCapture, .irExit1]),
      .setEndState .data .drPause, .runTest { runState := some .reset, runCount := 2 },
      .shift .data { length := 12, tdi := some [0, 0] } none]
    let failure := PlayError.hardware (SimulatedBus.failure "write 70 failed")
    let stages := (performance {} program bench).stages
    (∀ instruction ∈ program, instruction.NamesStable) ∧
      ((run {} program).play bench).1.error? = some failure ∧ ¬ failure.IsMisrouted ∧
      ∃ stage later, stages = stage :: later ∧ stage.after.tap.state ∈ TapState.stable := by
  intro bench program failure stages
  have hnames : ∀ instruction ∈ program, instruction.NamesStable := by decide
  obtain ⟨hrouted, hstages⟩ := stays_routable {} program bench {} hnames
  have hfailure : ((run {} program).play bench).1.error? = some failure := by decide +kernel
  have hfirst : stages.head?.map Stage.result = some (.ok ()) := by decide +kernel
  obtain ⟨stage, hhead, hok⟩ := Option.map_eq_some_iff.mp hfirst
  obtain ⟨later, hsplit⟩ := List.head?_eq_some_iff.mp hhead
  exact ⟨hnames, hfailure, hrouted failure hfailure, stage, later, hsplit,
    (hstages [] stage later hsplit hok).1⟩

end Player

end JtagPlayer
