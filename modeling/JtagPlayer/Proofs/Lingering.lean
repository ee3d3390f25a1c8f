import JtagPlayer.Bus.Simulated
import JtagPlayer.Proofs.Resting

/-!
# Where an idle period idles

The idle clocks of a period have TMS low. A controller that has come to a stable state stays there
under such clocks, unless that state is the reset state: then the first of them moves it to the idle
state, and the others find it there. `Player.idles_in_runState` says so of every idle period whose
route to its state succeeds, and what follows for the state it ends in.
`Player.leaves_reset_runState` is the period that asks for the reset state and does not stay in it.
-/

namespace JtagPlayer

open JtagPlayer.Action

namespace TapState

/-- Where clocks with TMS low keep a controller that was in a stable state. -/
def lingering (state : TapState) : TapState :=
  if state = reset then idle else state

/-- Of the stable states the reset state is the only one that a clock with TMS low leaves. -/
theorem next_low_of_stable {state : TapState} (h : state ∈ stable) :
    state.next false = state.lingering := by
  cases state <;> revert h <;> decide

theorem lingering_mem_stable {state : TapState} (h : state ∈ stable) :
    state.lingering ∈ stable := by
  cases state <;> revert h <;> decide

@[simp] theorem lingering_lingering (state : TapState) :
    state.lingering.lingering = state.lingering := by
  cases state <;> rfl

/-- Every clock with TMS low finds or brings the controller there. -/
theorem mem_trail_low {state : TapState} (h : state ∈ stable) {count : Nat} {visited : TapState}
    (hvisited : visited ∈ state.trail (List.replicate count false)) :
    visited = state.lingering := by
  induction count generalizing state with
  | zero => cases hvisited
  | succ count ih =>
    rw [List.replicate_succ, trail, next_low_of_stable h] at hvisited
    rcases List.mem_cons.mp hvisited with hfirst | hlater
    · exact hfirst
    · rw [ih (lingering_mem_stable h) hlater, lingering_lingering]

theorem follow_low {state : TapState} (h : state ∈ stable) (count : Nat) :
    state.follow (Edge.word (List.replicate count false)) =
      if count = 0 then state else state.lingering := by
  induction count generalizing state with
  | zero => rfl
  | succ count ih =>
    have hnext : state.follow (Edge.word (List.replicate (count + 1) false)) =
        (state.next false).follow (Edge.word (List.replicate count false)) := rfl
    rw [hnext, next_low_of_stable h, ih (lingering_mem_stable h), lingering_lingering]
    simp

end TapState

namespace Player

variable {session session' : Session} {exchanges : List Exchange} {result : Except Halt Unit}

/-- A look at the clock makes no edge. -/
theorem isOver_still {start : Nat} {maxTime : Option Nat} {result : Except Halt Bool}
    (h : (isOver start maxTime).Course session exchanges result session') (rest : List Exchange)
    (lines : Lines) : lines.edges (exchanges ++ rest) = lines.edges rest := by
  obtain ⟨-, ⟨-, rfl, -⟩ | ⟨limit, instant, -, rfl, -⟩⟩ := isOver_course h <;> rfl

/-- The idle loop gives low clocks and no more than it has to. Without a limit it ends well only
after all of them. -/
theorem idle_edges {start count remaining : Nat} {maxTime : Option Nat}
    (h : (idle start maxTime count remaining).Course session exchanges result session')
    (lines : Lines) :
    lines.edges exchanges <+: Edge.word (List.replicate remaining false) ∧
      (maxTime = none → result = .ok () →
        lines.edges exchanges = Edge.word (List.replicate remaining false)) := by
  induction remaining generalizing session exchanges lines with
  | zero =>
    obtain ⟨rfl, -, -⟩ := course_pure.mp h
    exact ⟨List.prefix_rfl, fun _ _ => rfl⟩
  | succ remaining ih =>
    rcases course_bind.mp h with
      ⟨looking, rest, isLate, middle, hlook, hrest, rfl⟩ | ⟨reason, hlook, -⟩
    · rw [isOver_still hlook]
      cases isLate with
      | true =>
        obtain ⟨answer, rfl, -, -⟩ := course_ask.mp hrest
        refine ⟨List.nil_prefix, fun hnone => ?_⟩
        obtain ⟨-, ⟨-, -, hlate⟩ | ⟨limit, instant, hsome, -, -⟩⟩ := isOver_course hlook
        · cases hlate
        · cases hnone.symm.trans hsome
      | false =>
        rcases course_bind.mp hrest with
          ⟨clocking, later, level, clocked, hclock, hidle, rfl⟩ | ⟨reason, hclock, hresult⟩
        · obtain ⟨driver, hdriver, -⟩ := onTap_course.mp hclock
          obtain ⟨hbegins, hall⟩ := ih hidle (lines.watch clocking)
          rw [Lines.edges_append, (TapDriver.clock_emits false false).complete hdriver lines]
          refine ⟨(List.prefix_append_right_inj _).mpr hbegins, fun hnone hok => ?_⟩
          rw [hall hnone hok]
          rfl
        · obtain ⟨driver, hdriver, -⟩ := onTap_course.mp hclock
          have hbegins := (TapDriver.clock_emits false false).begins hdriver lines
          refine ⟨hbegins.trans (List.prefix_append [Edge.quiet false] _), fun _ hok => ?_⟩
          rw [hok] at hresult
          cases hresult
    · obtain ⟨-, ⟨-, -, hlooked⟩ | ⟨limit, instant, -, -, hlooked⟩⟩ := isOver_course hlook
      · cases hlooked
      · cases hlooked

/-- How many clocks the idle loop gives shows on the driver, which they leave where they lead. -/
theorem idle_given {start count remaining : Nat} {maxTime : Option Nat}
    (h : (idle start maxTime count remaining).Course session exchanges result session') :
    ∃ given ≤ remaining,
      (∀ lines : Lines, lines.edges exchanges = Edge.word (List.replicate given false)) ∧
      session'.tap.state = session.tap.state.follow (Edge.word (List.replicate given false)) ∧
      (maxTime = none → result = .ok () → given = remaining) := by
  have hfollows := idle_upholds follows_obeys.toComposes (onTap_upholds_lawOfTap
    (TapDriver.clock_follows false false)) start maxTime count remaining h
  have hlength : ∀ lines : Lines,
      (lines.edges exchanges).length = session'.tap.pulses - session.tap.pulses := by
    intro lines
    rw [(hfollows lines).2]
    omega
  have hle : session'.tap.pulses - session.tap.pulses ≤ remaining := by
    have hbegins := (idle_edges h {}).1.length_le
    rw [hlength] at hbegins
    simpa [Edge.word] using hbegins
  have hedges : ∀ lines : Lines, lines.edges exchanges =
      Edge.word (List.replicate (session'.tap.pulses - session.tap.pulses) false) := by
    intro lines
    rw [List.prefix_iff_eq_take.mp (idle_edges h lines).1, hlength, Edge.word, Edge.word,
      ← List.map_take, List.take_replicate, Nat.min_eq_left hle]
  refine ⟨_, hle, hedges, hedges {} ▸ (hfollows {}).1, fun hnone hok => ?_⟩
  have hall := congrArg List.length ((idle_edges h {}).2 hnone hok)
  rw [hlength] at hall
  simpa [Edge.word] using hall

/-- An idle period from the idle loop on. -/
def linger (test : RunTest) (minTime : Nat) (maxTime : Option Nat) (start : Nat) :
    Action Session Unit := do
  idle start (maxTime.filter (· ≠ 0)) test.runCount.toNat test.runCount.toNat
  waitFor start minTime
  routeToGiven test.endState

/-- It gives its idle clocks and then at most the clocks of the last route. -/
theorem linger_course {test : RunTest} {minTime start : Nat} {maxTime : Option Nat}
    (h : (linger test minTime maxTime start).Course session exchanges result session') :
    ∃ idling leaving, ∃ given ≤ test.runCount.toNat, exchanges = idling ++ leaving ∧
      (∀ lines : Lines, lines.edges idling = Edge.word (List.replicate given false)) ∧
      (test.endState = none → (∀ lines : Lines, lines.edges leaving = []) ∧
        session'.tap.state =
          session.tap.state.follow (Edge.word (List.replicate given false))) ∧
      (maxTime.filter (· ≠ 0) = none → result = .ok () → given = test.runCount.toNat) := by
  rcases course_bind.mp h with
    ⟨idling, leaving, ⟨⟩, idled, hidle, hrest, rfl⟩ | ⟨reason, hidle, rfl⟩
  · obtain ⟨given, hle, hedges, hstate, hall⟩ := idle_given hidle
    refine ⟨idling, leaving, given, hle, rfl, hedges, fun hend => ?_, fun hnone _ =>
      hall hnone rfl⟩
    rcases course_bind.mp hrest with
      ⟨waiting, rest, ⟨⟩, waited, hwait, hleave, rfl⟩ | ⟨reason, hwait, -⟩
    · rw [hend] at hleave
      obtain ⟨rfl, -, rfl⟩ := course_pure.mp hleave
      obtain ⟨rfl, ⟨-, -, rfl⟩ | ⟨-, -, rfl⟩⟩ := waitFor_course hwait <;>
        exact ⟨fun lines => rfl, hstate⟩
    · obtain ⟨rfl, ⟨-, -, rfl⟩ | ⟨-, -, rfl⟩⟩ := waitFor_course hwait <;>
        exact ⟨fun lines => rfl, hstate⟩
  · obtain ⟨given, hle, hedges, hstate, -⟩ := idle_given hidle
    exact ⟨exchanges, [], given, hle, (List.append_nil _).symm, hedges,
      fun _ => ⟨fun lines => rfl, hstate⟩, nofun⟩

/-- An idle period whose times are accepted looks at the clock, moves to its state and lingers. -/
theorem runTest_eq {test : RunTest} {minTime : Nat}
    (hminTime : Duration.ofSeconds? test.minTime = some minTime)
    (hmaxTime : ∀ seconds, test.maxTime = some seconds → (Duration.ofSeconds? seconds).isSome)
    (session : Session) :
    runTest test session = .call .now fun start =>
      (routeToGiven (test.runState.filter (· ≠ session.tap.state)) >>= fun _ =>
        linger test minTime (test.maxTime.bind Duration.ofSeconds?) start) session := by
  unfold runTest duration
  rw [hminTime]
  cases hgiven : test.maxTime with
  | none => rfl
  | some seconds =>
    obtain ⟨maxTime, haccepted⟩ := Option.isSome_iff_exists.mp (hmaxTime seconds hgiven)
    rw [optionalDuration, duration, haccepted, Option.bind_some, haccepted]
    rfl

/-- A period whose first route succeeds begins to idle in its state, whether it had to move there
or was there already. -/
theorem state_of_firstRoute {test : RunTest} {target : TapState}
    (hrunState : test.runState = some target)
    (h : (routeToGiven (test.runState.filter (· ≠ session.tap.state))).Course session exchanges
      (.ok ()) session') : session'.tap.state = target := by
  rw [hrunState] at h
  by_cases hthere : target = session.tap.state
  · rw [Option.filter_some_neg (by simpa using hthere)] at h
    obtain ⟨-, -, rfl⟩ := course_pure.mp h
    exact hthere.symm
  · rw [Option.filter_some_pos (by simpa using hthere)] at h
    obtain ⟨driver, hroute, rfl⟩ := routeTo_course.mp h
    obtain ⟨word, -, -, hstate⟩ := TapDriver.routeTo_ok hroute
    exact hstate

/-- An idle period idles in its state, unless that is the reset state. If its times are accepted and
the route to its state succeeds, the device is there before the idle clocks, no more of them are
given than were asked for, and every one of them leaves the device in that state, or in the idle
state if the state asked for is the reset state. Without another state to go to the period ends
there. -/
theorem idles_in_runState {β τ : Type} [Bus β] [Clock τ] (bench : Bench β τ) (session : Session)
    (test : RunTest) (target : TapState) (hrunState : test.runState = some target)
    (hstable : target ∈ TapState.stable) (hminTime : (Duration.ofSeconds? test.minTime).isSome)
    (hmaxTime : ∀ seconds, test.maxTime = some seconds → (Duration.ofSeconds? seconds).isSome)
    (hroute : ((routeToGiven (test.runState.filter (· ≠ session.tap.state)) session).play
      (bench.answer .now).2).1.1.isOk) :
    let first := routeToGiven (test.runState.filter (· ≠ session.tap.state))
    let routed := ((first session).play (bench.answer .now).2).1.2
    let played := ((execute (.runTest test) session).play bench).1
    routed.tap.state = target ∧
      ∃ idling leaving, ∃ given ≤ test.runCount.toNat,
        (execute (.runTest test) session).transcript bench =
          ⟨.now, (bench.answer .now).1⟩ ::
            ((first session).transcript (bench.answer .now).2 ++ (idling ++ leaving)) ∧
        (∀ lines : Lines, lines.edges idling = Edge.word (List.replicate given false)) ∧
        (∀ visited ∈ target.trail (List.replicate given false), visited = target.lingering) ∧
        (test.endState = none → (∀ lines : Lines, lines.edges leaving = []) ∧
          played.2.tap.state = if given = 0 then target else target.lingering) ∧
        (test.maxTime = none → played.1 = .ok () → given = test.runCount.toNat) := by
  intro first routed played
  obtain ⟨minTime, hminTime⟩ := Option.isSome_iff_exists.mp hminTime
  have hfirst : ((first session).play (bench.answer .now).2).1 = (.ok (), routed) := by
    refine Prod.ext ?_ rfl
    change ((first session).play (bench.answer .now).2).1.1.isOk = true at hroute
    cases hresult : ((first session).play (bench.answer .now).2).1.1 with
    | error reason => rw [hresult] at hroute; cases hroute
    | ok u => rfl
  have hrouted : routed.tap.state = target := by
    have hcourse := Dialogue.course_transcript (first session) (bench.answer .now).2
    rw [hfirst] at hcourse
    exact state_of_firstRoute hrunState hcourse
  -- What follows the route does not depend on how it was reached, so it is told on its own.
  have hrun := runTest_eq hminTime hmaxTime session
  have hplayed : played = ((linger test minTime (test.maxTime.bind Duration.ofSeconds?)
      (bench.answer .now).1 routed).play ((first session).play (bench.answer .now).2).2).1 := by
    show ((runTest test session).play bench).1 = _
    rw [hrun, Dialogue.play_call, play_bind_of_ok hfirst]
  have hlinger := Dialogue.course_transcript (linger test minTime
    (test.maxTime.bind Duration.ofSeconds?) (bench.answer .now).1 routed)
    ((first session).play (bench.answer .now).2).2
  rw [← hplayed] at hlinger
  obtain ⟨idling, leaving, given, hle, hexchanges, hedges, hend, hall⟩ := linger_course hlinger
  refine ⟨hrouted, idling, leaving, given, hle, ?_, hedges,
    fun visited => TapState.mem_trail_low hstable, fun hnone => ⟨(hend hnone).1, ?_⟩,
    fun hnone hok => hall (by rw [hnone]; rfl) hok⟩
  · show (runTest test session).transcript bench = _
    rw [hrun, Dialogue.transcript, transcript_bind_of_ok hfirst, hexchanges]
  · rw [(hend hnone).2, hrouted, TapState.follow_low hstable]

/-- Three idle clocks in a pause state that is a route away. -/
theorem idles_in_runState_pause :
    let bench : Bench SimulatedBus IdealClock := { bus := {}, clock := {} }
    let session := Session.initial {}
    let test : RunTest := { runState := some .drPause, runCount := 3 }
    ((execute (.runTest test) session).play bench).1.2.tap.state = .drPause := by
  intro bench session test
  obtain ⟨-, idling, leaving, given, -, -, -, -, hend, -⟩ :=
    idles_in_runState bench session test .drPause rfl (by decide) (by decide +kernel) nofun
      (by decide +kernel)
  rw [(hend rfl).2]
  split <;> rfl

/-- One idle clock in the reset state, asked for while the device is there. No operation on the bus
fails, and the device is in the idle state afterwards. -/
theorem leaves_reset_runState :
    let bench : Bench SimulatedBus IdealClock := { bus := {}, clock := {} }
    let program := [Instruction.runTest { runState := some .reset, runCount := 1 }]
    Flawless ((run {} program).transcript bench) ∧
      ((run {} program).play bench).1.report?.map RunReport.clockPulses = some 6 ∧
      ((run {} program).play bench).1.report?.map RunReport.finalState = some .idle := by
  decide +kernel

end Player

end JtagPlayer
