import JtagPlayer.Proofs.Routes
import JtagPlayer.Proofs.Scanning
import JtagPlayer.Proofs.Tracking

/-!
# Between scans nothing is shifted

A session rests if the device is in a state to rest in and scans end in such states,
`Session.Rests`. `Player.Calm` is the law that from a resting session nothing is shifted on the way
to another one, and that the stored patterns stay as they are. Routes to states other than the shift
states obey it, and so do idle clocks and explicit paths that avoid the shift states.
-/

namespace JtagPlayer

open JtagPlayer.Action

namespace TapDriver

variable {driver driver' : TapDriver} {exchanges : List Exchange}

/-- After some exchanges the driver's state is that of the device. -/
theorem state_of_follows {α : Type} {action : Action TapDriver α} {result : Except Halt α}
    (haction : action.Upholds follows) (h : action.Course driver exchanges result driver')
    (lines : Lines) : driver'.state = driver.state.follow (lines.edges exchanges) :=
  (haction h lines).1

/-- A route that was taken to its end. -/
theorem routeTo_ok {target : TapState}
    (h : (routeTo target).Course driver exchanges (.ok ()) driver') :
    ∃ word, driver.state.route? target = some word ∧
      (∀ lines : Lines, lines.edges exchanges = Edge.word word) ∧ driver'.state = target := by
  have hstate := state_of_follows (routeTo_upholds follows_obeys target) h
  rcases routeTo_course h with ⟨-, -, hresult, -⟩ | ⟨word, rest, hroute, rfl, hwalk⟩
  · cases hresult
  · have hedges : ∀ lines : Lines,
        lines.edges (⟨.note (.route driver.state target word), ()⟩ :: rest) = Edge.word word :=
      fun lines => (clockWord_emits word).complete hwalk lines
    refine ⟨word, hroute, hedges, ?_⟩
    rw [hstate {}, hedges, TapState.follow_route hroute]

/-- The edges of a route that may have stopped on the way. -/
theorem routeTo_edges {target : TapState} {result : Except Halt Unit}
    (h : (routeTo target).Course driver exchanges result driver') (lines : Lines) :
    lines.edges exchanges = [] ∨
    ∃ word, driver.state.route? target = some word ∧ lines.edges exchanges <+: Edge.word word := by
  rcases routeTo_course h with ⟨-, rfl, -, -⟩ | ⟨word, rest, hroute, rfl, hwalk⟩
  · exact .inl rfl
  · exact .inr ⟨word, hroute, (clockWord_emits word).begins hwalk lines⟩

/-- If no operation on the bus fails, only an overdue edge keeps a route between stable states from
its end. -/
theorem routeTo_steady {target : TapState} {reason : Halt}
    (h : (routeTo target).Course driver exchanges (.error reason) driver')
    (hflawless : Flawless exchanges) (hstart : driver.state ∈ TapState.stable)
    (htarget : target ∈ TapState.stable) : reason = .deadlineOverflow := by
  rcases routeTo_course h with ⟨hnone, -, -, -⟩ | ⟨word, rest, -, rfl, hwalk⟩
  · obtain ⟨word, hword⟩ := TapState.exists_route hstart htarget
    cases hnone.symm.trans hword
  · exact (clockWord_emits word).steady hwalk (flawless_cons.mp hflawless).2

/-- If no operation on the bus fails, a route that stops for another reason has not begun. -/
theorem routeTo_eq_nil {target : TapState} {reason : Halt}
    (h : (routeTo target).Course driver exchanges (.error reason) driver')
    (hflawless : Flawless exchanges) (hreason : reason ≠ .deadlineOverflow) : exchanges = [] := by
  rcases routeTo_course h with ⟨-, hnil, -, -⟩ | ⟨word, rest, -, rfl, hwalk⟩
  · exact hnil
  · exact absurd ((clockWord_emits word).steady hwalk (flawless_cons.mp hflawless).2) hreason

/-- A route from a state to rest in shifts nothing, even if it stops on the way. -/
theorem routeTo_still {target : TapState} {result : Except Halt Unit}
    (h : (routeTo target).Course driver exchanges result driver')
    (hstart : driver.state ∈ TapState.rest) (lines : Lines) :
    ∀ pulse ∈ driver.state.pulses (lines.edges exchanges), ¬ pulse.state.IsShift := by
  rcases routeTo_edges h lines with hnil | ⟨word, hroute, hbegins⟩
  · rw [hnil]
    simp
  · intro pulse hpulse
    have hbegins' := TapState.pulses_prefix hbegins driver.state
    exact TapState.route_from_rest hroute hstart pulse (hbegins'.subset hpulse)

/-- A clock in a state that is no shift state shifts nothing. -/
theorem clock_still {tms tdi : Bool} {result : Except Halt Bool}
    (h : (clock tms tdi).Course driver exchanges result driver')
    (hstart : ¬ driver.state.IsShift) (lines : Lines) :
    ∀ pulse ∈ driver.state.pulses (lines.edges exchanges), ¬ pulse.state.IsShift := by
  rcases clock_edges h lines with ⟨hedges, -, -⟩ | ⟨hedges, -, -, -⟩
  · rw [hedges]
    intro pulse hpulse
    rw [List.mem_singleton.mp hpulse]
    exact hstart
  · rw [hedges]
    simp

/-- The state after a clock that ended well. -/
theorem state_of_clock {tms tdi level : Bool}
    (h : (clock tms tdi).Course driver exchanges (.ok level) driver') :
    driver'.state = driver.state.next tms := by
  rcases clock_edges h {} with ⟨-, hstate, -⟩ | ⟨-, -, -, reason, hresult⟩
  · exact hstate
  · cases hresult

/-- The pulses of one action and then of another. -/
theorem pulses_edges_append {middle : TapDriver} {first : List Exchange}
    (hmiddle : ∀ lines : Lines, middle.state = driver.state.follow (lines.edges first))
    (second : List Exchange) (lines : Lines) :
    driver.state.pulses (lines.edges (first ++ second)) =
      driver.state.pulses (lines.edges first) ++
        middle.state.pulses ((lines.watch first).edges second) := by
  rw [Lines.edges_append, TapState.pulses_append, hmiddle lines]

/-- If neither of two actions shifts anything, they do not in sequence. -/
theorem still_append {middle : TapDriver} {first second : List Exchange}
    (hmiddle : ∀ lines : Lines, middle.state = driver.state.follow (lines.edges first))
    (hfirst : ∀ lines : Lines, ∀ pulse ∈ driver.state.pulses (lines.edges first),
      ¬ pulse.state.IsShift)
    (hsecond : ∀ lines : Lines, ∀ pulse ∈ middle.state.pulses (lines.edges second),
      ¬ pulse.state.IsShift) (lines : Lines) :
    ∀ pulse ∈ driver.state.pulses (lines.edges (first ++ second)), ¬ pulse.state.IsShift := by
  intro pulse hpulse
  rw [pulses_edges_append hmiddle] at hpulse
  rcases List.mem_append.mp hpulse with hearly | hlate
  · exact hfirst lines pulse hearly
  · exact hsecond _ pulse hlate

/-- A step is one clock, if it can be made. -/
theorem stepTo_course {target : TapState} {result : Except Halt Unit}
    (h : (stepTo target).Course driver exchanges result driver') :
    (exchanges = [] ∧ driver' = driver ∧ (∀ tms, driver.state.next tms ≠ target) ∧
      result = .error (.failed (.move (.notNeighbour driver.state target)))) ∨
    (∃ tms answer, driver.state.next tms = target ∧
      (clock tms false).Course driver exchanges answer driver' ∧
      result = answer.map fun _ => ()) := by
  have hrest := course_get_bind.mp h
  cases hlevel : driver.state.levelTo? target with
  | none =>
    rw [hlevel] at hrest
    obtain ⟨rfl, rfl, rfl⟩ := course_fail.mp hrest
    exact .inl ⟨rfl, rfl, TapState.levelTo?_eq_none.mp hlevel, rfl⟩
  | some tms =>
    rw [hlevel] at hrest
    have hnext : driver.state.next tms = target := TapState.next_of_levelTo? hlevel
    rcases course_bind.mp hrest with
      ⟨first, rest, level, middle, hclock, hdone, rfl⟩ | ⟨reason, hclock, rfl⟩
    · obtain ⟨rfl, rfl, rfl⟩ := course_pure.mp hdone
      rw [List.append_nil]
      exact .inr ⟨tms, .ok level, hnext, hclock, rfl⟩
    · exact .inr ⟨tms, .error reason, hnext, hclock, rfl⟩

/-- A step from a state that is no shift state shifts nothing. -/
theorem stepTo_still {target : TapState} {result : Except Halt Unit}
    (h : (stepTo target).Course driver exchanges result driver')
    (hstart : ¬ driver.state.IsShift) :
    (∀ lines : Lines, ∀ pulse ∈ driver.state.pulses (lines.edges exchanges),
      ¬ pulse.state.IsShift) ∧ (result = .ok () → driver'.state = target) := by
  rcases stepTo_course h with ⟨rfl, rfl, -, rfl⟩ | ⟨tms, answer, hnext, hclock, rfl⟩
  · refine ⟨fun lines pulse hpulse => ?_, fun hresult => ?_⟩
    · cases hpulse
    · cases hresult
  · refine ⟨clock_still hclock hstart, fun hresult => ?_⟩
    cases answer with
    | error reason => cases hresult
    | ok level => rw [state_of_clock hclock, hnext]

/-- A path that avoids the shift states shifts nothing, and one that was walked to its end has led
there. -/
theorem walkPath_still {path : List TapState} {target : TapState} {result : Except Halt Unit}
    (h : (walkPath (path ++ [target])).Course driver exchanges result driver')
    (hpath : ∀ state ∈ path, ¬ state.IsShift) (hstart : ¬ driver.state.IsShift) :
    (∀ lines : Lines, ∀ pulse ∈ driver.state.pulses (lines.edges exchanges),
      ¬ pulse.state.IsShift) ∧ (result = .ok () → driver'.state = target) := by
  induction path generalizing driver exchanges with
  | nil =>
    rcases course_bind.mp h with ⟨first, rest, ⟨⟩, middle, hstep, hdone, rfl⟩ | ⟨reason, hstep, rfl⟩
    · obtain ⟨rfl, -, rfl⟩ := course_pure.mp hdone
      rw [List.append_nil]
      have hstill := stepTo_still hstep hstart
      exact ⟨hstill.1, fun _ => hstill.2 rfl⟩
    · exact ⟨(stepTo_still hstep hstart).1, nofun⟩
  | cons state path ih =>
    rcases course_bind.mp h with ⟨first, rest, ⟨⟩, middle, hstep, hwalk, rfl⟩ | ⟨reason, hstep, rfl⟩
    · obtain ⟨hfirst, hmiddle⟩ := stepTo_still hstep hstart
      have hshift : ¬ middle.state.IsShift := by
        rw [hmiddle rfl]
        exact hpath state (by simp)
      obtain ⟨hsecond, htarget⟩ :=
        ih hwalk (fun other hother => hpath other (by simp [hother])) hshift
      have hfollows := state_of_follows (stepTo_upholds follows_obeys state) hstep
      exact ⟨still_append hfollows hfirst hsecond, htarget⟩
    · exact ⟨(stepTo_still hstep hstart).1, nofun⟩

end TapDriver

/-- The device is in a state to rest in, and scans end in such states. -/
structure Session.Rests (session : Session) : Prop where
  state : session.tap.state ∈ TapState.rest
  ends : ∀ register, session.endState register ∈ TapState.rest

theorem Session.rests_initial (config : PlayerConfig) : (Session.initial config).Rests where
  state := by
    show TapState.reset ∈ TapState.rest
    decide
  ends register := by
    have hidle : TapState.idle ∈ TapState.rest := by decide
    cases register <;> exact hidle

namespace Player

/-- From a resting session nothing is shifted on the way to another one, and the stored patterns
stay as they are. -/
structure Calm (session : Session) (exchanges : List Exchange) (reason : Option Halt)
    (session' : Session) : Prop where
  follows : TapDriver.follows session.tap exchanges reason session'.tap
  registers : session'.registers = session.registers
  still : session.Rests → ∀ lines : Lines,
    ∀ pulse ∈ session.tap.state.pulses (lines.edges exchanges), ¬ pulse.state.IsShift
  rests : session.Rests → reason = none → session'.Rests

/-- What makes no edge is calm if the session rests as it did. -/
theorem calm_of_idle {session session' : Session} {exchanges : List Exchange}
    {reason : Option Halt} (hidle : ∀ exchange ∈ exchanges, Lines.IsIdle exchange)
    (hstate : session'.tap.state = session.tap.state)
    (hpulses : session'.tap.pulses = session.tap.pulses)
    (hregisters : session'.registers = session.registers)
    (hrests : session.Rests → session'.Rests) : Calm session exchanges reason session' where
  follows lines := by
    rw [Lines.edges_eq_nil_of_isIdle lines hidle, hstate, hpulses]
    exact ⟨rfl, rfl⟩
  registers := hregisters
  still _ lines := by
    rw [Lines.edges_eq_nil_of_isIdle lines hidle]
    simp
  rests h _ := hrests h

theorem calm_composes : Law.Composes Calm where
  refl session := calm_of_idle (by simp) rfl rfl rfl id
  fail session error := calm_of_idle (by simp) rfl rfl rfl id
  quiet session c answer hquiet := by
    refine calm_of_idle ?_ rfl rfl rfl id
    intro exchange hexchange
    rw [List.mem_singleton.mp hexchange]
    exact Lines.isIdle_of_isQuiet hquiet answer
  trans := by
    intro session middle session' first second reason hfirst hsecond
    refine ⟨?_, hsecond.registers.trans hfirst.registers, fun hrests lines => ?_, ?_⟩
    · exact TapDriver.follows_obeys.trans hfirst.follows hsecond.follows
    · -- The second part is still only from a session that rests, which the first part leads to.
      have hmiddle := hfirst.rests hrests rfl
      exact TapDriver.still_append (fun lines => (hfirst.follows lines).1) (hfirst.still hrests)
        (hsecond.still hmiddle) lines
    · intro hrests hreason
      exact hsecond.rests (hfirst.rests hrests rfl) hreason

/-- A session whose driver has moved to a state to rest in rests. -/
theorem rests_with_tap {session : Session} {driver : TapDriver} (h : session.Rests)
    (hstate : driver.state ∈ TapState.rest) : ({ session with tap := driver } : Session).Rests where
  state := hstate
  ends register := by
    have hend := h.ends register
    cases register <;> exact hend

/-- A route to a state other than the shift states is calm. -/
theorem routeTo_calm {target : TapState} (htarget : ¬ target.IsShift) :
    (routeTo target).Upholds Calm := by
  intro session exchanges result session' hcourse
  obtain ⟨driver, hroute, rfl⟩ := routeTo_course.mp hcourse
  refine ⟨TapDriver.routeTo_upholds TapDriver.follows_obeys target hroute, rfl, ?_, ?_⟩
  · intro hrests
    exact TapDriver.routeTo_still hroute hrests.state
  · intro hrests hreason
    cases result with
    | error reason => cases hreason
    | ok u =>
      obtain ⟨word, hword, -, hstate⟩ := TapDriver.routeTo_ok hroute
      refine rests_with_tap hrests ?_
      rw [hstate]
      exact TapState.mem_rest_of_mem_stable (TapState.mem_stable_of_route hword).2 htarget

/-- An idle clock is calm. -/
theorem idleClock_calm : (onTap (TapDriver.clock false false)).Upholds Calm := by
  intro session exchanges result session' hcourse
  obtain ⟨driver, hclock, rfl⟩ := onTap_course.mp hcourse
  refine ⟨TapDriver.clock_follows _ _ hclock, rfl, ?_, ?_⟩
  · intro hrests
    exact TapDriver.clock_still hclock (TapState.not_isShift_of_mem_rest hrests.state)
  · intro hrests hreason
    cases result with
    | error reason => cases hreason
    | ok level =>
      refine rests_with_tap hrests ?_
      rw [TapDriver.state_of_clock hclock]
      exact TapState.next_low_mem_rest hrests.state

/-- An explicit path that avoids the shift states and ends in a state to rest in is calm. -/
theorem walkPath_calm {path : List TapState} {target : TapState}
    (hpath : ∀ state ∈ path, ¬ state.IsShift) (htarget : target ∈ TapState.rest) :
    (onTap (TapDriver.walkPath (path ++ [target]))).Upholds Calm := by
  intro session exchanges result session' hcourse
  obtain ⟨driver, hwalk, rfl⟩ := onTap_course.mp hcourse
  refine ⟨TapDriver.walkPath_upholds TapDriver.follows_obeys _ hwalk, rfl, ?_, ?_⟩
  · intro hrests
    exact (TapDriver.walkPath_still hwalk hpath
      (TapState.not_isShift_of_mem_rest hrests.state)).1
  · intro hrests hreason
    cases result with
    | error reason => cases hreason
    | ok u =>
      have hstate := (TapDriver.walkPath_still hwalk hpath
        (TapState.not_isShift_of_mem_rest hrests.state)).2 rfl
      refine rests_with_tap hrests ?_
      rw [hstate]
      exact htarget

/-- A change of an end state to one that is no shift state is calm. -/
theorem setEndState_calm (register : Register) {state : TapState} (hstate : ¬ state.IsShift) :
    (setEndState register state).Upholds Calm := by
  refine setEndState_upholds calm_composes fun session updated hupdated => ?_
  unfold Session.setEndState at hupdated
  split at hupdated
  · rename_i hstable
    have hrest : state ∈ TapState.rest :=
      TapState.mem_rest_of_mem_stable (List.contains_iff_mem.mp hstable) hstate
    cases hupdated
    cases register with
    | data =>
      refine calm_of_idle (by simp) rfl rfl rfl fun hrests => ⟨hrests.state, fun other => ?_⟩
      cases other with
      | data => exact hrest
      | instruction => exact hrests.ends .instruction
    | instruction =>
      refine calm_of_idle (by simp) rfl rfl rfl fun hrests => ⟨hrests.state, fun other => ?_⟩
      cases other with
      | data => exact hrests.ends .data
      | instruction => exact hrest
  · cases hupdated

theorem setFrequency_calm (hz : Float) : (setFrequency hz).Upholds Calm := by
  refine setFrequency_upholds calm_composes ?_ hz
  intro session delay
  exact calm_of_idle (by simp) rfl rfl rfl fun h => rests_with_tap h h.state

theorem runTest_calm {test : RunTest}
    (hrun : ∀ state, test.runState = some state → ¬ state.IsShift)
    (hend : ∀ state, test.endState = some state → ¬ state.IsShift) :
    (runTest test).Upholds Calm := by
  refine runTest_upholds calm_composes ?_ idleClock_calm
    (fun target htarget => routeTo_calm (hrun target htarget))
    fun target htarget => routeTo_calm (hend target htarget)
  intro session
  exact calm_of_idle (by simp) rfl rfl rfl id

end Player

end JtagPlayer
