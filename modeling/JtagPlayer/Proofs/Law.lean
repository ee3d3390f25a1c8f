import JtagPlayer.Proofs.Idling

/-!
# Laws that every course of a player obeys

A `Law` speaks of the state in which an action begins, the exchanges it makes, the reason for which
it stopped if it did, and the state in which it ends. A law that holds of nothing at all and of one
thing after another holds of everything that a player does as soon as it holds of single clocks and
of the few changes to a session that need no bus. That is `Player.execute_upholds`: the way through
the instructions is gone once, here, and whoever has a law to prove looks at its elementary cases
only.

The wait for the least time of an idle period may stop without any clock, so it is a case of its own
in `Player.runTest_upholds`. That lemma asks for idle clocks and given routes only, since some laws
hold of these and not of every clock. In the same way `Player.execute_upholds_of` leaves open what
becomes of the clock rate, of scans and of idle periods.
-/

namespace JtagPlayer

namespace Action

variable {σ α β : Type}

/-- Why an action stopped, if it did. -/
def reason? : Except Halt α → Option Halt
  | .ok _ => none
  | .error reason => some reason

@[simp] theorem reason?_ok (x : α) : reason? (.ok x : Except Halt α) = none := rfl

@[simp] theorem reason?_error (reason : Halt) :
    reason? (.error reason : Except Halt α) = some reason := rfl

/-- A relation between the state before, the exchanges, the reason for stopping and the state
after. -/
abbrev Law (σ : Type) : Type :=
  σ → List Exchange → Option Halt → σ → Prop

/-- All courses of the action obey the law. -/
def Upholds (law : Law σ) (action : Action σ α) : Prop :=
  ∀ ⦃s exchanges result s'⦄, action.Course s exchanges result s' →
    law s exchanges (reason? result) s'

/-- The law holds where nothing happens to the bus, and of one thing after another. -/
structure Law.Composes (law : Law σ) : Prop where
  refl : ∀ s, law s [] none s
  fail : ∀ s error, law s [] (some (.failed error)) s
  quiet : ∀ s (c : Call) (answer : c.Answer), c.IsQuiet → law s [⟨c, answer⟩] none s
  trans : ∀ {s middle s' first second reason}, law s first none middle →
    law middle second reason s' → law s (first ++ second) reason s'

variable {law : Law σ}

theorem upholds_pure (h : law.Composes) (x : α) :
    Upholds law (Pure.pure x) := by
  intro s exchanges result s' hcourse
  obtain ⟨rfl, rfl, rfl⟩ := course_pure.mp hcourse
  exact h.refl _

/-- A failure of an action itself concerns neither bus nor state. -/
theorem upholds_fail (h : law.Composes) (error : PlayError) :
    Upholds law (fail error : Action σ α) := by
  intro s exchanges result s' hcourse
  obtain ⟨rfl, rfl, rfl⟩ := course_fail.mp hcourse
  exact h.fail _ error

/-- A law that composes holds of two actions in a row if it holds of both. If the first one stops,
then it alone has taken place. -/
theorem upholds_bind (h : law.Composes) {action : Action σ α} {f : α → Action σ β}
    (haction : action.Upholds law) (hf : ∀ x, (f x).Upholds law) :
    Upholds law (action >>= f) := by
  intro s exchanges result s' hcourse
  rcases course_bind.mp hcourse with
    ⟨first, second, x, middle, hfirst, hsecond, rfl⟩ | ⟨reason, hstop, rfl⟩
  · exact h.trans (haction hfirst) (hf x hsecond)
  · exact haction hstop

/-- After a look at the state only what the rest does in that state counts. -/
theorem upholds_get_bind {f : σ → Action σ β}
    (hf : ∀ s ⦃exchanges result s'⦄, (f s).Course s exchanges result s' →
      law s exchanges (reason? result) s') : Upholds law (get >>= f) :=
  fun s _ _ _ hcourse => hf s (course_get_bind.mp hcourse)

/-- It is enough if the rest obeys the law in every state. -/
theorem upholds_get_then {f : σ → Action σ β} (hf : ∀ s, (f s).Upholds law) :
    Upholds law (get >>= f) :=
  upholds_get_bind fun s _ _ _ hcourse => hf s hcourse

/-- A call that does not touch the bus is covered by the law itself. -/
theorem upholds_ask (h : law.Composes) {c : Call} (hquiet : c.IsQuiet) :
    Upholds law (ask c : Action σ c.Answer) := by
  intro s exchanges result s' hcourse
  obtain ⟨answer, rfl, rfl, rfl⟩ := course_ask.mp hcourse
  exact h.quiet _ c answer hquiet

theorem upholds_note (h : law.Composes) (entry : LogEntry) :
    Upholds law (note entry : Action σ Unit) :=
  upholds_ask h trivial

/-- A parameter is accepted or refused without a call. -/
theorem upholds_ofParameter (h : law.Composes) (parameter : Except ParameterError α) :
    Upholds law (ofParameter parameter : Action σ α) := by
  cases parameter with
  | error error => exact upholds_fail h _
  | ok x => exact upholds_pure h x

end Action

open JtagPlayer.Action

namespace TapDriver

/-- The law composes, and holds of single clocks. -/
structure Obeys (law : Law TapDriver) : Prop extends law.Composes where
  clock : ∀ tms tdi, (TapDriver.clock tms tdi).Upholds law

variable {law : Law TapDriver}

/-- A law that holds of one clock holds of a word of clocks, by induction on the word. -/
theorem clockWord_upholds (h : Obeys law) (word : List Bool) : (clockWord word).Upholds law := by
  induction word with
  | nil => exact upholds_pure h.toComposes ()
  | cons tms word ih => exact upholds_bind h.toComposes (h.clock tms false) fun _ => ih

theorem reset_upholds (h : Obeys law) : reset.Upholds law :=
  clockWord_upholds h _

/-- On a route only its clocks count. Where there is none the action fails at once. -/
theorem routeTo_upholds (h : Obeys law) (target : TapState) : (routeTo target).Upholds law := by
  refine upholds_get_bind fun driver exchanges result driver' hcourse => ?_
  cases hroute : driver.state.route? target with
  | none =>
    simp only [hroute] at hcourse
    exact upholds_fail h.toComposes _ hcourse
  | some word =>
    simp only [hroute] at hcourse
    exact upholds_bind h.toComposes (upholds_note h.toComposes _)
      (fun _ => clockWord_upholds h word) hcourse

/-- A step is one clock, or none if the state is no neighbour. -/
theorem stepTo_upholds (h : Obeys law) (target : TapState) : (stepTo target).Upholds law := by
  refine upholds_get_bind fun driver exchanges result driver' hcourse => ?_
  cases hlevel : driver.state.levelTo? target with
  | none =>
    simp only [hlevel] at hcourse
    exact upholds_fail h.toComposes _ hcourse
  | some tms =>
    simp only [hlevel] at hcourse
    exact upholds_bind h.toComposes (h.clock tms false)
      (fun _ => upholds_pure h.toComposes ()) hcourse

/-- A path is walked step by step. -/
theorem walkPath_upholds (h : Obeys law) (path : List TapState) : (walkPath path).Upholds law := by
  induction path with
  | nil => exact upholds_pure h.toComposes ()
  | cons state path ih => exact upholds_bind h.toComposes (stepTo_upholds h state) fun _ => ih

/-- A new clock rate changes the delay and nothing else, so it is up to the law what it says of
that. -/
theorem setFrequency_upholds (h : law.Composes)
    (hdelay : ∀ (driver : TapDriver) delay, law driver [] none { driver with delay }) (hz : Float) :
    (setFrequency hz).Upholds law := by
  refine upholds_bind h (upholds_ofParameter h _) fun delay => ?_
  intro driver exchanges result driver' hcourse
  obtain ⟨rfl, rfl, rfl⟩ := course_modify.mp hcourse
  exact hdelay driver delay

/-- Bits are shifted clock by clock. -/
theorem shiftBits_upholds (h : Obeys law) (leave : Bool) (bits received : List Bool) :
    (shiftBits leave bits received).Upholds law := by
  induction bits generalizing received with
  | nil => exact upholds_pure h.toComposes received
  | cons bit bits ih => exact upholds_bind h.toComposes (h.clock _ bit) fun _ => ih _

/-- A pattern is shifted as its bits are. -/
theorem shiftPattern_upholds (h : Obeys law) (leave : Bool) (pattern : Pattern) :
    (shiftPattern leave pattern).Upholds law := by
  rw [shiftPattern_eq]
  exact upholds_bind h.toComposes (shiftBits_upholds h leave _ _)
    fun _ => upholds_pure h.toComposes _

end TapDriver

/-- Header, payload and trailer are shifted one after the other, and what is said of them afterwards
does not matter. -/
theorem Segments.shift_upholds {law : Law TapDriver} (h : TapDriver.Obeys law)
    (segments : Segments) : segments.shift.Upholds law := by
  refine upholds_bind h.toComposes (TapDriver.shiftPattern_upholds h _ _) fun header => ?_
  refine upholds_bind h.toComposes (TapDriver.shiftPattern_upholds h _ _) fun payload => ?_
  refine upholds_bind h.toComposes (TapDriver.shiftPattern_upholds h _ _) fun trailer => ?_
  exact upholds_bind h.toComposes (upholds_note h.toComposes _)
    fun _ => upholds_pure h.toComposes _

namespace Session

/-- A choice of an end state changes nothing else. -/
theorem setEndState_eq_ok {session updated : Session} {register : Register} {state : TapState}
    (h : session.setEndState register state = .ok updated) :
    state.isStable = true ∧ ∃ endData endInstruction,
      updated = { session with endData, endInstruction } := by
  unfold setEndState at h
  split at h
  · rename_i hstable
    cases h
    cases register <;> exact ⟨hstable, _, _, rfl⟩
  · cases h

/-- A change of a stored pattern changes nothing else. -/
theorem update_eq_ok {session updated : Session} {name : RegisterName} {delta : Pattern}
    (h : session.update name delta = .ok updated) :
    ∃ registers, session.registers.update name delta = .ok registers ∧
      updated = { session with registers } := by
  unfold update at h
  cases hregisters : session.registers.update name delta with
  | error error =>
    rw [hregisters] at h
    cases h
  | ok registers =>
    rw [hregisters] at h
    cases h
    exact ⟨registers, rfl, rfl⟩

end Session

namespace Player

/-- The law composes, and holds of single clocks and of changes to the end states and to the stored
patterns. -/
structure ObeysPlain (law : Law Session) : Prop extends law.Composes where
  clock : ∀ session tms tdi ⦃exchanges result driver⦄,
    (TapDriver.clock tms tdi).Course session.tap exchanges result driver →
      law session exchanges (reason? result) { session with tap := driver }
  setEndState : ∀ (session updated : Session) register state,
    session.setEndState register state = .ok updated → law session [] none updated
  update : ∀ (session updated : Session) name delta,
    session.update name delta = .ok updated → law session [] none updated

/-- The law holds of changes to the clock rate and of faults as well. -/
structure Obeys (law : Law Session) : Prop extends ObeysPlain law where
  delay : ∀ (session : Session) delay,
    law session [] none { session with tap := { session.tap with delay } }
  addFault : ∀ (session : Session) fault, law session [] none (session.addFault fault)

variable {law : Law Session}

/-- A law for drivers, as one for the drivers of sessions. -/
def lawOfTap (law : Law TapDriver) : Law Session :=
  fun session exchanges reason session' => law session.tap exchanges reason session'.tap

/-- Only clocks concern the driver of a session. -/
theorem ObeysPlain.ofTap {law : Law TapDriver} (h : TapDriver.Obeys law) :
    ObeysPlain (lawOfTap law) where
  refl session := h.refl session.tap
  fail session error := h.fail session.tap error
  quiet session c answer hquiet := h.quiet session.tap c answer hquiet
  trans hfirst hsecond := h.trans hfirst hsecond
  clock session tms tdi exchanges result driver hcourse := h.clock tms tdi hcourse
  setEndState := by
    intro session updated register state hupdated
    obtain ⟨-, endData, endInstruction, rfl⟩ := Session.setEndState_eq_ok hupdated
    exact h.refl session.tap
  update := by
    intro session updated name delta hupdated
    obtain ⟨registers, -, rfl⟩ := Session.update_eq_ok hupdated
    exact h.refl session.tap

/-- So does the clock rate. -/
theorem Obeys.ofTap {law : Law TapDriver} (h : TapDriver.Obeys law)
    (hdelay : ∀ (driver : TapDriver) delay, law driver [] none { driver with delay }) :
    Obeys (lawOfTap law) where
  toObeysPlain := ObeysPlain.ofTap h
  delay session delay := hdelay session.tap delay
  addFault session _ := h.refl session.tap

/-- What holds of an action on a driver holds of it in a session. -/
theorem onTap_upholds_lawOfTap {α : Type} {law : Law TapDriver} {action : Action TapDriver α}
    (haction : action.Upholds law) : (onTap action).Upholds (lawOfTap law) := by
  intro session exchanges result session' hcourse
  obtain ⟨driver, hdriver, rfl⟩ := course_on.mp hcourse
  exact haction hdriver

/-- What a law for sessions says about the driver in one. -/
def lawOnTap (law : Law Session) : Law TapDriver :=
  fun driver exchanges reason driver' =>
    ∀ session : Session, session.tap = driver → law session exchanges reason
      { session with tap := driver' }

/-- What a composing law for sessions says of drivers composes as well. -/
theorem Composes.onTap (h : law.Composes) : (lawOnTap law).Composes where
  refl := by
    intro driver session htap
    subst htap
    exact h.refl session
  fail := by
    intro driver error session htap
    subst htap
    exact h.fail session error
  quiet := by
    intro driver c answer hquiet session htap
    subst htap
    exact h.quiet session c answer hquiet
  trans := by
    intro driver middle driver' first second reason hfirst hsecond session htap
    exact h.trans (hfirst session htap) (hsecond { session with tap := middle } rfl)

/-- It holds of clocks if the law for sessions does. -/
theorem ObeysPlain.onTap (h : ObeysPlain law) : TapDriver.Obeys (lawOnTap law) where
  toComposes := Composes.onTap h.toComposes
  clock := by
    intro tms tdi driver exchanges result driver' hcourse session htap
    subst htap
    exact h.clock session tms tdi hcourse

/-- An action on the driver obeys a law for sessions if it obeys what that law says of drivers. -/
theorem onTap_upholds {α : Type} {action : Action TapDriver α}
    (haction : action.Upholds (lawOnTap law)) : (onTap action).Upholds law := by
  intro session exchanges result session' hcourse
  obtain ⟨driver, hdriver, rfl⟩ := course_on.mp hcourse
  exact haction hdriver session rfl

/-- An end state is set without a call, or refused. -/
theorem setEndState_upholds (h : law.Composes) {register : Register} {state : TapState}
    (hset : ∀ session updated : Session,
      session.setEndState register state = .ok updated → law session [] none updated) :
    (setEndState register state).Upholds law := by
  refine upholds_get_bind fun session exchanges result session' hcourse => ?_
  cases hupdated : session.setEndState register state with
  | error error =>
    rw [hupdated] at hcourse
    obtain ⟨rfl, rfl, rfl⟩ := course_fail.mp hcourse
    exact h.fail _ _
  | ok updated =>
    rw [hupdated] at hcourse
    obtain ⟨rfl, rfl, rfl⟩ := course_modify.mp hcourse
    exact hset _ _ hupdated

/-- A stored pattern is changed without a call of its own, or the change is refused. -/
theorem update_upholds (h : ObeysPlain law) (name : RegisterName) (delta : Pattern) :
    (update name delta).Upholds law := by
  refine upholds_get_bind fun session exchanges result session' hcourse => ?_
  cases hupdated : session.update name delta with
  | error error =>
    rw [hupdated] at hcourse
    obtain ⟨rfl, rfl, rfl⟩ := course_fail.mp hcourse
    exact h.fail _ _
  | ok updated =>
    rw [hupdated] at hcourse
    have hsession : law session [] none updated := h.update _ _ name delta hupdated
    have hnote := upholds_bind h.toComposes
      (upholds_note h.toComposes (.updated name (updated.registers.get name)))
      fun _ => upholds_pure h.toComposes (updated.registers.get name)
    exact h.trans hsession (hnote hcourse)

/-- The clock rate of a session is the one of its driver. -/
theorem setFrequency_upholds (h : law.Composes)
    (hdelay : ∀ (session : Session) delay,
      law session [] none { session with tap := { session.tap with delay } }) (hz : Float) :
    (setFrequency hz).Upholds law := by
  refine upholds_bind h (onTap_upholds ?_) fun _ =>
    upholds_get_then fun session => upholds_note h _
  refine TapDriver.setFrequency_upholds (Composes.onTap h) ?_ hz
  intro driver delay session htap
  subst htap
  exact hdelay session delay

theorem routeTo_upholds (h : ObeysPlain law) (target : TapState) : (routeTo target).Upholds law :=
  onTap_upholds (TapDriver.routeTo_upholds h.onTap target)

/-- Where no state is given nothing happens. -/
theorem routeToGiven_upholds (h : law.Composes) {given : Option TapState}
    (hroute : ∀ target, given = some target → (routeTo target).Upholds law) :
    (routeToGiven given).Upholds law := by
  cases given with
  | none => exact upholds_pure h ()
  | some target => exact hroute target rfl

/-- A comparison adds at most one fault to the report. -/
theorem compare_upholds (h : law.Composes)
    (hfault : ∀ (session : Session) fault, law session [] none (session.addFault fault))
    (name : RegisterName) (label : Option String) (pattern : Pattern) (observed : List UInt8) :
    (compare name label pattern observed).Upholds law := by
  unfold compare
  split
  · exact upholds_pure h true
  · refine upholds_bind h (upholds_note h _) fun _ => ?_
    refine upholds_bind h ?_ fun _ => upholds_pure h false
    intro session exchanges result session' hcourse
    obtain ⟨rfl, rfl, rfl⟩ := course_modify.mp hcourse
    exact hfault session _

/-- How a scan is concluded is decided without a call. -/
theorem conclude_upholds (h : law.Composes) (passed : Bool) (label : Option String) :
    (conclude passed label).Upholds law := by
  refine upholds_get_bind fun session exchanges result session' hcourse => ?_
  split at hcourse
  · exact upholds_pure h () hcourse
  · exact upholds_fail h _ hcourse

theorem leaveScan_upholds (h : ObeysPlain law) (register : Register) :
    (leaveScan register).Upholds law := by
  refine upholds_bind h.toComposes (onTap_upholds (h.onTap.clock false false)) fun _ => ?_
  exact upholds_get_then fun session => routeTo_upholds h _

/-- A scan changes the stored pattern, goes to the shift state, shifts, compares, and leaves for its
end state. Each of these steps obeys the law. -/
theorem scan_upholds (h : ObeysPlain law)
    (hfault : ∀ (session : Session) fault, law session [] none (session.addFault fault))
    (register : Register) (delta : Pattern) (label : Option String) :
    (scan register delta label).Upholds law := by
  refine upholds_bind h.toComposes (update_upholds h _ delta) fun _ => ?_
  refine upholds_bind h.toComposes (routeTo_upholds h _) fun _ => ?_
  refine upholds_get_then fun session => upholds_bind h.toComposes ?_ fun samples => ?_
  · exact onTap_upholds (Segments.shift_upholds h.onTap _)
  have hcompare := compare_upholds h.toComposes hfault
  refine upholds_bind h.toComposes (hcompare _ label _ _) fun passed => ?_
  exact upholds_bind h.toComposes (leaveScan_upholds h register)
    fun _ => conclude_upholds h.toComposes passed label

/-- A look at the clock is a call that does not touch the bus. -/
theorem isOver_upholds (h : law.Composes) (start : Nat) (maxTime : Option Nat) :
    (isOver start maxTime).Upholds law := by
  cases maxTime with
  | none => exact upholds_pure h false
  | some maxTime => exact upholds_bind h (upholds_ask h trivial) fun _ => upholds_pure h _

/-- An idle clock has both levels low. -/
theorem idle_upholds (h : law.Composes)
    (hidle : (onTap (TapDriver.clock false false)).Upholds law) (start : Nat)
    (maxTime : Option Nat) (count remaining : Nat) :
    (idle start maxTime count remaining).Upholds law := by
  induction remaining with
  | zero => exact upholds_pure h ()
  | succ remaining ih =>
    refine upholds_bind h (isOver_upholds h start maxTime) fun isLate => ?_
    cases isLate with
    | true => exact upholds_note h _
    | false => exact upholds_bind h hidle fun _ => ih

/-- The way to the state in which a period idles and the clocks in it obey the law if given routes
and idle clocks do. -/
theorem approach_upholds (h : law.Composes)
    (hidle : (onTap (TapDriver.clock false false)).Upholds law) {test : RunTest}
    (hrun : ∀ target, test.runState = some target → (routeTo target).Upholds law)
    (maxTime : Option Nat) (start : Nat) : (approach test maxTime start).Upholds law := by
  refine upholds_get_then fun session => upholds_bind h ?_ fun _ => idle_upholds h hidle _ _ _ _
  refine routeToGiven_upholds h fun target htarget => hrun target ?_
  exact (Option.filter_eq_some_iff.mp htarget).1

/-- A period of idling obeys the law if the routes to its two states and its idle clocks do, unless
its wait stops it. Up to that wait it obeys the law all the same. -/
theorem TestCourse.law_or_overdue (h : law.Composes)
    (hidle : (onTap (TapDriver.clock false false)).Upholds law) {test : RunTest}
    (hrun : ∀ target, test.runState = some target → (routeTo target).Upholds law)
    (hend : ∀ target, test.endState = some target → (routeTo target).Upholds law)
    {session session' : Session} {exchanges : List Exchange} {result : Except Halt Unit}
    (hcourse : TestCourse test session exchanges result session') :
    law session exchanges (reason? result) session' ∨
      (law session exchanges none session' ∧ result = .error .deadlineOverflow ∧
        test.IsOverdue exchanges) := by
  have hnow : ∀ start, law session [⟨.now, start⟩] none session :=
    fun start => h.quiet session .now start trivial
  cases hcourse with
  | refused hnone hgiven => exact .inl (h.fail session _)
  | @stopped minTime start approaching reason session' hminTime happroach =>
    exact .inl (h.trans (hnow start) (approach_upholds h hidle hrun _ start happroach))
  | @overdue minTime start approaching session' hminTime happroach hlimit =>
    have happroached := approach_upholds h hidle hrun _ start happroach
    exact .inr ⟨h.trans (hnow start) happroached, rfl, start, minTime, rfl, hminTime, hlimit⟩
  | @waited minTime start approaching middle leaving result session' hminTime happroach hlimit
      hleave =>
    have happroached := approach_upholds h hidle hrun _ start happroach
    have hwaited : law middle [⟨.wait (start + minTime) middle.tap.spinThreshold, ()⟩] none
        middle := h.quiet middle (.wait _ _) () trivial
    have hleft := routeToGiven_upholds h hend hleave
    exact .inl (h.trans (hnow start) (h.trans happroached (h.trans hwaited hleft)))

/-- A whole idle period obeys a law that allows for an overflow of the deadline and holds of given
routes and of idle clocks. -/
theorem runTest_upholds (h : law.Composes)
    (hoverflow : ∀ session, law session [] (some .deadlineOverflow) session)
    (hidle : (onTap (TapDriver.clock false false)).Upholds law) {test : RunTest}
    (hrun : ∀ target, test.runState = some target → (routeTo target).Upholds law)
    (hend : ∀ target, test.endState = some target → (routeTo target).Upholds law) :
    (runTest test).Upholds law := by
  intro session exchanges result session' hcourse
  rcases (runTest_course hcourse).law_or_overdue h hidle hrun hend with hlaw | ⟨hlaw, rfl, -⟩
  · exact hlaw
  · have hstopped := h.trans hlaw (hoverflow session')
    rw [List.append_nil] at hstopped
    exact hstopped

/-- An instruction obeys every law that its elementary steps obey. Changes to the clock rate, scans
and idle periods are left to be looked at. -/
theorem execute_upholds_of (h : ObeysPlain law) (instruction : Instruction)
    (hfrequency : ∀ hz, instruction = .setFrequency hz → (setFrequency hz).Upholds law)
    (hshift : ∀ register delta label, instruction = .shift register delta label →
      (scan register delta label).Upholds law)
    (htest : ∀ test, instruction = .runTest test → (runTest test).Upholds law) :
    (execute instruction).Upholds law := by
  cases instruction with
  | setEndState register state =>
    exact setEndState_upholds h.toComposes fun session updated => h.setEndState _ _ register state
  | setFrequency hz => exact hfrequency hz rfl
  | setHeader register pattern =>
    exact upholds_bind h.toComposes (update_upholds h _ pattern)
      fun _ => upholds_pure h.toComposes ()
  | setTrailer register pattern =>
    exact upholds_bind h.toComposes (update_upholds h _ pattern)
      fun _ => upholds_pure h.toComposes ()
  | shift register pattern label => exact hshift register pattern label rfl
  | runTest test => exact htest test rfl
  | goToState target path =>
    cases path with
    | none => exact routeTo_upholds h target
    | some path => exact onTap_upholds (TapDriver.walkPath_upholds h.onTap _)
  | unsupported command => exact upholds_fail h.toComposes _
  | unknown => exact upholds_fail h.toComposes _

/-- An idle period consists of clocks and of a wait that may stop it. -/
theorem runTest_upholds_of_clock (h : ObeysPlain law)
    (hoverflow : ∀ session, law session [] (some .deadlineOverflow) session) (test : RunTest) :
    (runTest test).Upholds law :=
  runTest_upholds h.toComposes hoverflow (onTap_upholds (h.onTap.clock false false))
    (fun target _ => routeTo_upholds h target) fun target _ => routeTo_upholds h target

/-- Every instruction obeys a law that holds of the clock rate and of faults as well. -/
theorem execute_upholds (h : Obeys law)
    (hoverflow : ∀ session, law session [] (some .deadlineOverflow) session)
    (instruction : Instruction) : (execute instruction).Upholds law :=
  execute_upholds_of h.toObeysPlain instruction
    (fun hz _ => setFrequency_upholds h.toComposes h.delay hz)
    (fun register delta label _ =>
      scan_upholds h.toObeysPlain h.addFault register delta label)
    fun test _ => runTest_upholds_of_clock h.toObeysPlain hoverflow test

end Player

end JtagPlayer
