import JtagPlayer.Proofs.Lockstep
import JtagPlayer.Proofs.Stages

/-!
# Players in lockstep

What a player does depends on the state it knows the device to be in, on its settings and on the
stored patterns. It does not depend on the levels that come back, except where a scan is concluded,
nor on the clock, except for the looks of an idle period with a longest time. So two players that
agree in what matters stay in lockstep through every action: `Action.Paired` says so of an action,
and `Player.run_lockstep` of a whole run.

The two players may differ in their policies as long as that is not what decides whether a scan
stops the run; `Terms.Settles` says when it does not.
-/

namespace JtagPlayer

open JtagPlayer.Action

namespace Action

variable {σ ρ α β : Type}

/-- The ends of two actions agree: both end well with agreeing results, or both stop for the same
reason. -/
inductive Ends (Related : σ → σ → Prop) (Agrees : α → α → Prop) :
    Except Halt α × σ → Except Halt α × σ → Prop where
  | ok {x x' s s'} (hrelated : Related s s') (hagrees : Agrees x x') :
      Ends Related Agrees (.ok x, s) (.ok x', s')
  | error {s s'} (reason : Halt) (hrelated : Related s s') :
      Ends Related Agrees (.error reason, s) (.error reason, s')

/-- An action stopped for want of an instant that another clock may well have had. -/
def Overflows (terms : Terms) (ending : Except Halt α × σ) : Prop :=
  terms.sameClock = false ∧ ending.1 = .error .deadlineOverflow

/-- Two actions that stay in lockstep from related states on. -/
def Paired (terms : Terms) (Related : σ → σ → Prop) (Agrees : α → α → Prop)
    (action action' : Action σ α) : Prop :=
  ∀ ⦃s s'⦄, Related s s' →
    Lockstep terms (Ends Related Agrees) (Overflows terms) (action s) (action' s')

variable {terms : Terms} {Related : σ → σ → Prop} {Agrees : α → α → Prop}

theorem paired_pure {x x' : α} (h : Agrees x x') :
    Paired terms Related Agrees (Pure.pure x) (Pure.pure x') :=
  fun _ _ hrelated => .done (.ok hrelated h)

/-- Two actions that stop for the same reason are paired. -/
theorem paired_halt (reason : Halt) : Paired terms Related Agrees (halt reason) (halt reason) :=
  fun _ _ hrelated => .done (.error reason hrelated)

/-- An action that overflows keeps what was to follow from beginning. -/
theorem overflows_followed (f : α → Action σ β) {ending : Except Halt α × σ}
    (h : Overflows terms ending) :
    ∃ other, (match ending with
      | (.ok x, s) => f x s
      | (.error reason, s) => .done (.error reason, s)) = .done other ∧ Overflows terms other := by
  obtain ⟨result, s⟩ := ending
  obtain ⟨hclock, hoverflow⟩ := h
  cases hoverflow
  exact ⟨_, rfl, hclock, rfl⟩

/-- Two pairs of actions in sequence. -/
theorem paired_bind {Agrees' : β → β → Prop} {action action' : Action σ α}
    {f f' : α → Action σ β} (haction : Paired terms Related Agrees action action')
    (hf : ∀ x x', Agrees x x' → Paired terms Related Agrees' (f x) (f' x')) :
    Paired terms Related Agrees' (action >>= f) (action' >>= f') := by
  intro s s' hrelated
  refine Lockstep.bind (haction hrelated) (fun ending ending' hends => ?_)
    (fun _ => overflows_followed f) fun _ => overflows_followed f'
  cases hends with
  | ok hrelated hagrees => exact hf _ _ hagrees hrelated
  | error reason hrelated => exact .done (.error reason hrelated)

/-- What the first action leads to in any case may be added to what the results agree in. -/
theorem paired_imp_course {Agrees' : α → α → Prop} {action action' : Action σ α}
    (h : Paired terms Related Agrees action action')
    (himp : ∀ {s exchanges x x' s'}, action.Course s exchanges (.ok x) s' → Agrees x x' →
      Agrees' x x') : Paired terms Related Agrees' action action' := by
  intro s s' hrelated
  refine (h hrelated).imp_course fun exchanges ending ending' hcourse hends => ?_
  cases hends with
  | ok hrelated hagrees => exact .ok hrelated (himp hcourse hagrees)
  | error reason hrelated => exact .error reason hrelated

/-- After a look at the state or a change of it the rest goes on. -/
theorem paired_get_bind {Agrees' : β → β → Prop} {f f' : σ → Action σ β}
    (hf : ∀ s s', Related s s' →
      Lockstep terms (Ends Related Agrees') (Overflows terms) (f s s) (f' s' s')) :
    Paired terms Related Agrees' (get >>= f) (get >>= f') :=
  fun s s' hrelated => hf s s' hrelated

theorem paired_modify {g g' : σ → σ} (h : ∀ s s', Related s s' → Related (g s) (g' s')) :
    Paired terms Related (fun _ _ => True) (modify g) (modify g') :=
  fun s s' hrelated => .done (.ok (h s s' hrelated) trivial)

/-- Notes may differ. -/
theorem paired_note (entry entry' : LogEntry) :
    Paired terms Related (fun _ _ => True) (note entry) (note entry') :=
  fun _ _ hrelated => .first id fun _ => .second id fun _ => .done (.ok hrelated trivial)

/-- A look at the clock is shared if the clock is. -/
theorem paired_now :
    Paired terms Related (fun instant instant' => terms.sameClock = true → instant = instant') now
      now := by
  intro s s' hrelated
  by_cases hclock : terms.sameClock = true
  · exact .both hclock fun answer answer' hmatches => .done (.ok hrelated fun _ => hmatches)
  · exact .first hclock fun _ => .second hclock fun _ =>
      .done (.ok hrelated fun hsame => absurd hsame hclock)

/-- The same level is written on both sides, and both fail if one does. -/
theorem paired_write (line : Line) (level : Bool) :
    Paired terms Related (fun _ _ => True) (write line level) (write line level) := by
  intro s s' hrelated
  refine .both trivial fun answer answer' hmatches => ?_
  obtain rfl : answer = answer' := hmatches
  cases answer with
  | error error => exact .done (.error _ hrelated)
  | ok u => exact .done (.ok hrelated trivial)

/-- Samples may differ if the levels may. -/
theorem paired_read (line : Line) :
    Paired terms Related (fun level level' => terms.sameLevels = true → level = level') (read line)
      (read line) := by
  intro s s' hrelated
  refine .both trivial fun answer answer' hmatches => ?_
  rcases answer with error | level <;> rcases answer' with error' | level'
  · cases (hmatches : (Except.error error : Except IoError Bool) = .error error')
    exact .done (.error _ hrelated)
  · cases (hmatches : (Except.error error : Except IoError Bool) = .ok level')
  · cases (hmatches : (Except.ok level : Except IoError Bool) = .error error')
  · exact .done (.ok hrelated hmatches)

/-- With a clock of its own, one action may wait while the other does not. -/
theorem lockstep_waitFor_first (hclock : terms.sameClock = false) {s : σ}
    {start duration spinThreshold : Nat} {dialogue' : Dialogue (Except Halt Unit × σ)}
    (h : Lockstep terms (Ends Related fun _ _ => True) (Overflows terms) (.done (.ok (), s))
      dialogue') :
    Lockstep terms (Ends Related fun _ _ => True) (Overflows terms)
      (waitFor start duration spinThreshold s) dialogue' := by
  unfold waitFor
  cases Instant.after? start duration with
  | some deadline =>
    exact .first (c := .wait deadline _) (by simp [Terms.Shares, hclock]) fun _ => h
  | none => exact .firstLost ⟨hclock, rfl⟩

/-- The same with the two actions exchanged. -/
theorem lockstep_waitFor_second (hclock : terms.sameClock = false) {s : σ}
    {start duration spinThreshold : Nat} {dialogue : Dialogue (Except Halt Unit × σ)}
    (h : Lockstep terms (Ends Related fun _ _ => True) (Overflows terms) dialogue
      (.done (.ok (), s))) :
    Lockstep terms (Ends Related fun _ _ => True) (Overflows terms) dialogue
      (waitFor start duration spinThreshold s) := by
  unfold waitFor
  cases Instant.after? start duration with
  | some deadline =>
    exact .second (c := .wait deadline _) (by simp [Terms.Shares, hclock]) fun _ => h
  | none => exact .secondLost ⟨hclock, rfl⟩

/-- With the same clock the same instants are waited for. -/
theorem paired_waitFor {start start' duration spinThreshold : Nat}
    (hstart : terms.sameClock = true → start = start') :
    Paired terms Related (fun _ _ => True) (waitFor start duration spinThreshold)
      (waitFor start' duration spinThreshold) := by
  intro s s' hrelated
  cases hclock : terms.sameClock with
  | false =>
    exact lockstep_waitFor_first hclock (lockstep_waitFor_second hclock
      (.done (.ok hrelated trivial)))
  | true =>
    obtain rfl := hstart hclock
    unfold waitFor
    cases Instant.after? start duration with
    | some deadline =>
      exact .both (c := .wait deadline _) hclock fun _ _ _ => .done (.ok hrelated trivial)
    | none => exact .done (.error _ hrelated)

theorem paired_fail (error : PlayError) : Paired terms Related Agrees (fail error) (fail error) :=
  paired_halt _

/-- Parameters are refused on both sides, or what they were accepted as is passed on. -/
theorem paired_ofParameter (parameter : Except ParameterError α) :
    Paired terms Related (fun x x' => parameter = .ok x ∧ parameter = .ok x')
      (ofParameter parameter) (ofParameter parameter) := by
  cases parameter with
  | error error => exact paired_fail _
  | ok x => exact paired_pure ⟨rfl, rfl⟩

/-- Actions on a part of a state are paired if they are so on the parts. -/
theorem paired_on {Related' : ρ → ρ → Prop} {part : ρ → σ} {put : ρ → σ → ρ}
    {action action' : Action σ α} (hpart : ∀ t t', Related' t t' → Related (part t) (part t'))
    (hput : ∀ t t' s s', Related' t t' → Related s s' → Related' (put t s) (put t' s'))
    (haction : Paired terms Related Agrees action action') :
    Paired terms Related' Agrees (action.on part put) (action'.on part put) := by
  intro t t' hrelated
  refine Lockstep.bind (haction (hpart t t' hrelated)) ?_ ?_ ?_
  · intro ending ending' hends
    cases hends with
    | ok hparts hagrees => exact .done (.ok (hput _ _ _ _ hrelated hparts) hagrees)
    | error reason hparts => exact .done (.error reason (hput _ _ _ _ hrelated hparts))
  · exact fun ending hlost => ⟨_, rfl, hlost⟩
  · exact fun ending hlost => ⟨_, rfl, hlost⟩

end Action

/-- Levels that are the same if all samples are. -/
def Terms.SameSamples {α : Type} (terms : Terms) (samples samples' : α) : Prop :=
  terms.sameLevels = true → samples = samples'

namespace TapDriver

/-- Two drivers that agree in all but the times of their clocks. -/
structure Alike (terms : Terms) (driver driver' : TapDriver) : Prop where
  state : driver.state = driver'.state
  delay : driver.delay = driver'.delay
  pulses : driver.pulses = driver'.pulses
  spinThreshold : driver.spinThreshold = driver'.spinThreshold
  lastRise : terms.sameClock = true → driver.lastRise = driver'.lastRise

variable {terms : Terms}

/-- On one clock drivers that are alike are the same. -/
theorem Alike.eq (hclock : terms.sameClock = true) {driver driver' : TapDriver}
    (h : driver.Alike terms driver') : driver = driver' := by
  obtain ⟨⟩ := driver
  obtain ⟨⟩ := driver'
  obtain ⟨hstate, hdelay, hpulses, hspin, hrise⟩ := h
  simp_all

/-- The waits of two drivers have the same deadline on the same clock. -/
theorem waitForEdge_paired :
    Paired terms (Alike terms) (fun _ _ => True) waitForEdge waitForEdge := by
  intro driver driver' halike
  cases hclock : terms.sameClock with
  | true =>
    obtain rfl := halike.eq hclock
    unfold waitForEdge
    split
    · exact paired_waitFor (fun _ => rfl) halike
    · exact paired_pure trivial halike
  | false =>
    unfold waitForEdge
    split
    · refine lockstep_waitFor_first hclock ?_
      split
      · exact lockstep_waitFor_second hclock (.done (.ok halike trivial))
      · exact .done (.ok halike trivial)
    · split
      · exact lockstep_waitFor_second hclock (.done (.ok halike trivial))
      · exact .done (.ok halike trivial)

/-- Two drivers that are alike make the same clock, and sample the same if the levels are the same.
-/
theorem clock_paired (tms tdi : Bool) :
    Paired terms (Alike terms) terms.SameSamples (clock tms tdi) (clock tms tdi) := by
  refine paired_bind (paired_write _ _) fun _ _ _ => ?_
  refine paired_bind (paired_write _ _) fun _ _ _ => ?_
  refine paired_bind (paired_write _ _) fun _ _ _ => ?_
  refine paired_bind waitForEdge_paired fun _ _ _ => ?_
  refine paired_bind (paired_write _ _) fun _ _ _ => ?_
  refine paired_bind paired_now fun instant instant' hinstant => ?_
  refine paired_bind (paired_modify fun driver driver' h => ?_) fun _ _ _ => paired_read _
  exact {
    state := congrArg (TapState.next · tms) h.state
    delay := h.delay
    pulses := congrArg (· + 1) h.pulses
    spinThreshold := h.spinThreshold
    lastRise := fun hclock => congrArg some (hinstant hclock) }

/-- So they do for a word of clocks. -/
theorem clockWord_paired (word : List Bool) :
    Paired terms (Alike terms) (fun _ _ => True) (clockWord word) (clockWord word) := by
  induction word with
  | nil => exact paired_pure trivial
  | cons tms word ih => exact paired_bind (clock_paired tms false) fun _ _ _ => ih

theorem reset_paired : Paired terms (Alike terms) (fun _ _ => True) reset reset :=
  clockWord_paired _

/-- They take the same route, since they are in the same state. -/
theorem routeTo_paired (target : TapState) :
    Paired terms (Alike terms) (fun _ _ => True) (routeTo target) (routeTo target) := by
  refine paired_get_bind fun driver driver' halike => ?_
  rw [← halike.state]
  cases driver.state.route? target with
  | none => exact paired_fail _ halike
  | some word =>
    exact paired_bind (paired_note _ _) (fun _ _ _ => clockWord_paired word) halike

/-- They make the same step. -/
theorem stepTo_paired (target : TapState) :
    Paired terms (Alike terms) (fun _ _ => True) (stepTo target) (stepTo target) := by
  refine paired_get_bind fun driver driver' halike => ?_
  rw [← halike.state]
  cases driver.state.levelTo? target with
  | none => exact paired_fail _ halike
  | some tms =>
    exact paired_bind (clock_paired tms false) (fun _ _ _ => paired_pure trivial) halike

theorem walkPath_paired (path : List TapState) :
    Paired terms (Alike terms) (fun _ _ => True) (walkPath path) (walkPath path) := by
  induction path with
  | nil => exact paired_pure trivial
  | cons state path ih => exact paired_bind (stepTo_paired state) fun _ _ _ => ih

/-- A clock rate gives both of them the same delay. -/
theorem setFrequency_paired (hz : Float) :
    Paired terms (Alike terms) (fun _ _ => True) (setFrequency hz) (setFrequency hz) := by
  refine paired_bind (paired_ofParameter _) fun delay delay' hdelay => ?_
  obtain rfl : delay = delay' := Except.ok.inj (hdelay.1.symm.trans hdelay.2)
  exact paired_modify fun driver driver' h => { h with delay := rfl }

/-- They shift the same bits, and receive the same if the levels are the same. -/
theorem shiftBits_paired (leave : Bool) (bits : List Bool) {received received' : List Bool}
    (h : terms.SameSamples received received') :
    Paired terms (Alike terms) terms.SameSamples (shiftBits leave bits received)
      (shiftBits leave bits received') := by
  induction bits generalizing received received' with
  | nil => exact paired_pure h
  | cons bit bits ih =>
    refine paired_bind (clock_paired _ bit) fun level level' hlevel => ih fun hlevels => ?_
    rw [hlevel hlevels, h hlevels]

theorem shiftPattern_paired (leave : Bool) (pattern : Pattern) :
    Paired terms (Alike terms) terms.SameSamples (shiftPattern leave pattern)
      (shiftPattern leave pattern) := by
  rw [shiftPattern_eq]
  refine paired_bind (shiftBits_paired leave pattern.bits fun _ => rfl) fun _ _ hreceived => ?_
  exact paired_pure fun hlevels => congrArg (fun bits => Pattern.bytesOf bits.reverse)
    (hreceived hlevels)

end TapDriver

/-- The buffers of two scans are the same if the levels are. -/
theorem Segments.shift_paired {terms : Terms} (segments : Segments) :
    Paired terms (TapDriver.Alike terms) terms.SameSamples segments.shift segments.shift := by
  refine paired_bind (TapDriver.shiftPattern_paired _ _) fun header header' hheader => ?_
  refine paired_bind (TapDriver.shiftPattern_paired _ _) fun payload payload' hpayload => ?_
  refine paired_bind (TapDriver.shiftPattern_paired _ _) fun trailer trailer' htrailer => ?_
  refine paired_bind (paired_note _ _) fun _ _ _ => paired_pure fun hlevels => ?_
  rw [hheader hlevels, hpayload hlevels, htrailer hlevels]

/-- Two sessions that agree in all but the times of their clocks and, if the levels that came back
differ, their faults. Each has its own policy. -/
structure Session.Alike (terms : Terms) (policy policy' : Bool) (session session' : Session) :
    Prop where
  tap : session.tap.Alike terms session'.tap
  registers : session.registers = session'.registers
  endData : session.endData = session'.endData
  endInstruction : session.endInstruction = session'.endInstruction
  report : terms.SameSamples session.report session'.report
  policy : session.continueOnFault = policy
  policy' : session'.continueOnFault = policy'

/-- Scans are concluded alike: both runs sample the same levels and have the same policy, or none of
them stops at faults. -/
def Terms.Settles (terms : Terms) (policy policy' : Bool) : Prop :=
  (terms.sameLevels = true ∧ policy = policy') ∨ (policy = true ∧ policy' = true)

/-- An idle period that is given all its clocks, however long that takes. -/
def RunTest.IsUnlimited (test : RunTest) : Prop :=
  (test.maxTime.bind Duration.ofSeconds?).filter (· ≠ 0) = none

instance (test : RunTest) : Decidable test.IsUnlimited :=
  inferInstanceAs (Decidable ((test.maxTime.bind Duration.ofSeconds?).filter (· ≠ 0) = none))

/-- An instruction that does not depend on how long anything takes. -/
def Instruction.IsUnlimited : Instruction → Prop
  | .runTest test => test.IsUnlimited
  | _ => True

/-- The stored pattern that an instruction names. -/
def Instruction.changes? : Instruction → Option RegisterName
  | .setHeader register _ => some ⟨.header, register⟩
  | .setTrailer register _ => some ⟨.trailer, register⟩
  | .shift register _ _ => some ⟨.payload, register⟩
  | _ => none

/-- An instruction that scans a register. -/
def Instruction.IsScan : Instruction → Prop
  | .shift .. => True
  | _ => False

instance : DecidablePred Instruction.IsUnlimited
  | .runTest test => inferInstanceAs (Decidable test.IsUnlimited)
  | .setEndState .. | .setFrequency _ | .setHeader .. | .setTrailer .. | .shift ..
  | .goToState .. | .unsupported _ | .unknown => .isTrue trivial

/-- Sessions that are related drive the device alike, and what changes nothing but how they do so
leaves them related. -/
structure DrivesAlike (terms : Terms) (Related : Session → Session → Prop) : Prop where
  tap : ∀ {session session'}, Related session session' → session.tap.Alike terms session'.tap
  endState : ∀ {session session'}, Related session session' →
    ∀ register, session.endState register = session'.endState register
  setTap : ∀ {session session' driver driver'}, Related session session' →
    driver.Alike terms driver' →
      Related { session with tap := driver } { session' with tap := driver' }
  setEndData : ∀ {session session'}, Related session session' → ∀ state,
    Related { session with endData := state } { session' with endData := state }
  setEndInstruction : ∀ {session session'}, Related session session' → ∀ state,
    Related { session with endInstruction := state } { session' with endInstruction := state }

namespace Player

variable {terms : Terms} {policy policy' : Bool} {Related : Session → Session → Prop}

theorem alike_drivesAlike : DrivesAlike terms (Session.Alike terms policy policy') where
  tap halike := halike.tap
  endState halike register := by
    cases register
    · exact halike.endData
    · exact halike.endInstruction
  setTap halike htap := { halike with tap := htap }
  setEndData halike _ := { halike with endData := rfl }
  setEndInstruction halike _ := { halike with endInstruction := rfl }

/-- Actions on the drivers are paired in sessions as well. -/
theorem onTap_paired (h : DrivesAlike terms Related) {α : Type} {Agrees : α → α → Prop}
    {action action' : Action TapDriver α}
    (haction : Paired terms (TapDriver.Alike terms) Agrees action action') :
    Paired terms Related Agrees (onTap action) (onTap action') :=
  paired_on (fun _ _ hrelated => h.tap hrelated)
    (fun _ _ _ _ hrelated htap => h.setTap hrelated htap) haction

theorem setEndState_paired (h : DrivesAlike terms Related) (register : Register)
    (state : TapState) :
    Paired terms Related (fun _ _ => True) (setEndState register state)
      (setEndState register state) := by
  refine paired_get_bind fun session session' hrelated => ?_
  unfold Session.setEndState
  by_cases hstable : state.isStable = true
  · rw [if_pos hstable, if_pos hstable]
    refine .done (.ok ?_ trivial)
    cases register
    · exact h.setEndData hrelated state
    · exact h.setEndInstruction hrelated state
  · rw [if_neg hstable, if_neg hstable]
    exact paired_fail _ hrelated

/-- A pattern is updated in the same way, and refused on both sides or on none. -/
theorem update_paired (name : RegisterName) (delta : Pattern) :
    Paired terms (Session.Alike terms policy policy') Eq (update name delta)
      (update name delta) := by
  refine paired_get_bind fun session session' halike => ?_
  unfold Session.update
  rw [← halike.registers]
  cases session.registers.update name delta with
  | error error => exact paired_fail _ halike
  | ok registers =>
    have hupdated : Session.Alike terms policy policy' { session with registers }
        { session' with registers } := { halike with registers := rfl }
    exact paired_bind (paired_note _ _) (fun _ _ _ => paired_pure rfl) hupdated

theorem setFrequency_paired (h : DrivesAlike terms Related) (hz : Float) :
    Paired terms Related (fun _ _ => True) (setFrequency hz) (setFrequency hz) := by
  refine paired_bind (onTap_paired h (TapDriver.setFrequency_paired hz)) fun _ _ _ => ?_
  exact paired_get_bind fun session session' hrelated => paired_note _ _ hrelated

theorem routeTo_paired (h : DrivesAlike terms Related) (target : TapState) :
    Paired terms Related (fun _ _ => True) (routeTo target) (routeTo target) :=
  onTap_paired h (TapDriver.routeTo_paired target)

theorem routeToGiven_paired (h : DrivesAlike terms Related) (given : Option TapState) :
    Paired terms Related (fun _ _ => True) (routeToGiven given) (routeToGiven given) := by
  cases given with
  | none => exact paired_pure trivial
  | some target => exact routeTo_paired h target

/-- What differs in what came back differs in the report only. -/
theorem compare_paired (name : RegisterName) (label : Option String) (pattern : Pattern)
    {observed observed' : List UInt8} (h : terms.SameSamples observed observed') :
    Paired terms (Session.Alike terms policy policy') terms.SameSamples
      (compare name label pattern observed) (compare name label pattern observed') := by
  intro session session' halike
  by_cases hlevels : terms.sameLevels = true
  · obtain rfl := h hlevels
    unfold compare
    split
    · exact paired_pure (fun _ => rfl) halike
    · refine paired_bind (paired_note _ _) (fun _ _ _ => ?_) halike
      refine paired_bind (paired_modify fun session session' halike => ?_)
        fun _ _ _ => paired_pure fun _ => rfl
      exact { halike with
        report := fun hlevels => congrArg (FaultReport.push · _) (halike.report hlevels) }
  · have hends : ∀ {passed passed' : Bool} {judged judged' : Session},
        Session.Alike terms policy policy' judged judged' →
        Lockstep terms (Ends (Session.Alike terms policy policy') terms.SameSamples)
          (Overflows terms) (.done (.ok passed, judged)) (.done (.ok passed', judged')) :=
      fun halike => .done (.ok halike fun hsame => absurd hsame hlevels)
    unfold compare
    split <;> split
    · exact hends halike
    · exact .second (c := .note _) id fun _ =>
        hends { halike with report := fun hsame => absurd hsame hlevels }
    · exact .first (c := .note _) id fun _ =>
        hends { halike with report := fun hsame => absurd hsame hlevels }
    · exact .first (c := .note _) id fun _ => .second (c := .note _) id fun _ =>
        hends { halike with report := fun hsame => absurd hsame hlevels }

/-- Two scans are concluded in the same way if the policies settle it. -/
theorem conclude_paired (hsettles : terms.Settles policy policy') {passed passed' : Bool}
    (h : terms.SameSamples passed passed') (label : Option String) :
    Paired terms (Session.Alike terms policy policy') (fun _ _ => True) (conclude passed label)
      (conclude passed' label) := by
  refine paired_get_bind fun session session' halike => ?_
  rw [halike.policy, halike.policy']
  rcases hsettles with ⟨hlevels, rfl⟩ | ⟨rfl, rfl⟩
  · rw [h hlevels]
    split
    · exact paired_pure trivial halike
    · exact paired_fail _ halike
  · rw [Bool.or_true, Bool.or_true]
    exact paired_pure trivial halike

/-- Two sessions have the same end state to leave a scan for. -/
theorem leaveScan_paired (h : DrivesAlike terms Related) (register : Register) :
    Paired terms Related (fun _ _ => True) (leaveScan register) (leaveScan register) := by
  refine paired_bind (onTap_paired h (TapDriver.clock_paired false false)) fun _ _ _ => ?_
  refine paired_get_bind fun session session' hrelated => ?_
  rw [h.endState hrelated]
  exact routeTo_paired h _ hrelated

/-- A scan up to its conclusion: whether what came back is what was expected. -/
def probe (register : Register) (delta : Pattern) (label : Option String) :
    Action Session Bool := do
  let name : RegisterName := ⟨.payload, register⟩
  let _ ← update name delta
  routeTo register.shiftState
  let session ← Action.get
  let segments := session.registers.segments register
  let samples ← onTap segments.shift
  let passed ← compare name label segments.payload samples.payload
  leaveScan register
  Pure.pure passed

/-- A scan is a probe and the conclusion from it. -/
theorem scan_eq_probe (register : Register) (delta : Pattern) (label : Option String) :
    scan register delta label = probe register delta label >>= fun passed =>
      conclude passed label := by
  unfold scan probe
  simp only [Bind.bind, Action.bind_assoc, Pure.pure, Action.pure_bind]

/-- Probes are paired whatever the policies are: they compare, and leave the conclusion open. -/
theorem probe_paired (register : Register) (delta : Pattern) (label : Option String) :
    Paired terms (Session.Alike terms policy policy') terms.SameSamples
      (probe register delta label) (probe register delta label) := by
  have hdrives : DrivesAlike terms (Session.Alike terms policy policy') := alike_drivesAlike
  refine paired_bind (update_paired _ delta) fun _ _ _ => ?_
  refine paired_bind (routeTo_paired hdrives _) fun _ _ _ => ?_
  refine paired_get_bind fun session session' halike => ?_
  rw [halike.registers]
  refine paired_bind (onTap_paired hdrives (Segments.shift_paired _))
    (fun samples samples' hsamples => ?_) halike
  refine paired_bind (compare_paired _ label _ fun hlevels => congrArg Samples.payload
    (hsamples hlevels)) fun passed passed' hpassed => ?_
  exact paired_bind (leaveScan_paired hdrives register) fun _ _ _ => paired_pure hpassed

theorem duration_paired (seconds : Float) :
    Paired terms Related (fun span span' => Duration.ofSeconds? seconds = some span ∧
      Duration.ofSeconds? seconds = some span') (duration seconds) (duration seconds) := by
  unfold duration
  cases Duration.ofSeconds? seconds with
  | none => exact paired_fail _
  | some span => exact paired_pure ⟨rfl, rfl⟩

theorem optionalDuration_paired (seconds : Option Float) :
    Paired terms Related (fun span span' => span = seconds.bind Duration.ofSeconds? ∧
      span' = seconds.bind Duration.ofSeconds?)
      (optionalDuration seconds) (optionalDuration seconds) := by
  cases seconds with
  | none => exact paired_pure ⟨rfl, rfl⟩
  | some seconds =>
    exact paired_bind (duration_paired seconds) fun span span' hspan =>
      paired_pure ⟨hspan.1.symm, hspan.2.symm⟩

/-- Only a limited number of idle clocks depends on the clock. -/
theorem idle_paired (h : DrivesAlike terms Related) {start start' : Nat}
    (hstart : terms.sameClock = true → start = start') {maxTime : Option Nat}
    (hlimit : terms.sameClock = true ∨ maxTime = none) (count remaining : Nat) :
    Paired terms Related (fun _ _ => True) (idle start maxTime count remaining)
      (idle start' maxTime count remaining) := by
  induction remaining with
  | zero => exact paired_pure trivial
  | succ remaining ih =>
    have hlook : Paired terms Related Eq (isOver start maxTime) (isOver start' maxTime) := by
      cases maxTime with
      | none => exact paired_pure rfl
      | some limit =>
        obtain hclock | hnone := hlimit
        · refine paired_bind paired_now fun instant instant' hinstant => ?_
          rw [hinstant hclock, hstart hclock]
          exact paired_pure rfl
        · cases hnone
    refine paired_bind hlook fun isLate isLate' hlate => ?_
    obtain rfl := hlate
    cases isLate with
    | true => exact paired_note _ _
    | false => exact paired_bind (onTap_paired h (TapDriver.clock_paired _ _)) fun _ _ _ => ih

theorem waitFor_paired (h : DrivesAlike terms Related) {start start' : Nat}
    (hstart : terms.sameClock = true → start = start') (duration : Nat) :
    Paired terms Related (fun _ _ => True) (waitFor start duration) (waitFor start' duration) := by
  refine paired_get_bind fun session session' hrelated => ?_
  rw [(h.tap hrelated).spinThreshold]
  exact paired_waitFor hstart hrelated

/-- Idle periods are paired if they have the same clock or no limit. -/
theorem runTest_paired (h : DrivesAlike terms Related) (test : RunTest)
    (hlimit : terms.sameClock = true ∨ test.IsUnlimited) :
    Paired terms Related (fun _ _ => True) (runTest test) (runTest test) := by
  refine paired_bind (duration_paired _) fun minTime minTime' hminTime => ?_
  obtain rfl : minTime = minTime' := Option.some.inj (hminTime.1.symm.trans hminTime.2)
  refine paired_bind (optionalDuration_paired _) fun maxTime maxTime' hmaxTime => ?_
  obtain ⟨rfl, rfl⟩ := hmaxTime
  refine paired_bind paired_now fun start start' hstart => ?_
  refine paired_get_bind fun session session' hrelated => ?_
  rw [(h.tap hrelated).state]
  refine paired_bind (routeToGiven_paired h _) (fun _ _ _ => ?_) hrelated
  refine paired_bind (idle_paired h hstart hlimit _ _) fun _ _ _ => ?_
  exact paired_bind (waitFor_paired h hstart minTime) fun _ _ _ => routeToGiven_paired h _

/-- Two players carry out an instruction in lockstep that changes no stored pattern. -/
theorem execute_paired_of_plain (h : DrivesAlike terms Related) {instruction : Instruction}
    (hplain : instruction.changes? = none)
    (hlimit : terms.sameClock = true ∨ instruction.IsUnlimited) :
    Paired terms Related (fun _ _ => True) (execute instruction) (execute instruction) := by
  cases instruction with
  | setEndState register state => exact setEndState_paired h register state
  | setFrequency hz => exact setFrequency_paired h hz
  | setHeader register delta => cases hplain
  | setTrailer register delta => cases hplain
  | shift register delta label => cases hplain
  | runTest test => exact runTest_paired h test hlimit
  | goToState target path =>
    cases path with
    | none => exact routeTo_paired h target
    | some path => exact onTap_paired h (TapDriver.walkPath_paired _)
  | unsupported command => exact paired_fail _
  | unknown => exact paired_fail _

/-- Two players carry out an instruction in lockstep. Only the conclusion of a scan depends on their
policies. -/
theorem execute_paired (instruction : Instruction)
    (hsettles : instruction.IsScan → terms.Settles policy policy')
    (hlimit : terms.sameClock = true ∨ instruction.IsUnlimited) :
    Paired terms (Session.Alike terms policy policy') (fun _ _ => True) (execute instruction)
      (execute instruction) := by
  cases instruction with
  | setHeader register pattern =>
    exact paired_bind (update_paired _ pattern) fun _ _ _ => paired_pure trivial
  | setTrailer register pattern =>
    exact paired_bind (update_paired _ pattern) fun _ _ _ => paired_pure trivial
  | shift register pattern label =>
    rw [execute, scan_eq_probe]
    exact paired_bind (probe_paired register pattern label) fun _ _ hpassed =>
      conclude_paired (hsettles trivial) hpassed label
  | _ => exact execute_paired_of_plain alike_drivesAlike rfl hlimit

/-- Whether a program depends on how long anything takes is a matter of each of its instructions. -/
theorem unlimited_cons {instruction : Instruction} {program : List Instruction} :
    (terms.sameClock = true ∨ ∀ other ∈ instruction :: program, other.IsUnlimited) ↔
      (terms.sameClock = true ∨ instruction.IsUnlimited) ∧
        (terms.sameClock = true ∨ ∀ other ∈ program, other.IsUnlimited) := by
  rw [List.forall_mem_cons, or_and_left]

/-- A program is carried out in lockstep, instruction by instruction. -/
theorem executeFrom_paired (hsettles : terms.Settles policy policy') (program : List Instruction)
    (hlimit : terms.sameClock = true ∨ ∀ instruction ∈ program, instruction.IsUnlimited)
    (index : Nat) :
    Paired terms (Session.Alike terms policy policy') (fun _ _ => True)
      (executeFrom index program) (executeFrom index program) := by
  induction program generalizing index with
  | nil => exact paired_pure trivial
  | cons instruction program ih =>
    obtain ⟨hfirst, hrest⟩ := unlimited_cons.mp hlimit
    refine paired_bind (paired_note _ _) fun _ _ _ => ?_
    exact paired_bind (execute_paired instruction (fun _ => hsettles) hfirst) fun _ _ _ =>
      ih hrest (index + 1)

theorem executeAll_paired (hsettles : terms.Settles policy policy') (program : List Instruction)
    (hlimit : terms.sameClock = true ∨ ∀ instruction ∈ program, instruction.IsUnlimited) :
    Paired terms (Session.Alike terms policy policy') (fun _ _ => True) (executeAll program)
      (executeAll program) :=
  paired_bind (onTap_paired alike_drivesAlike TapDriver.reset_paired) fun _ _ _ =>
    executeFrom_paired hsettles program hlimit 0

end Player

/-- Two reports that agree in all but the time a run took and, if the levels that came back differ,
the faults. -/
structure RunReport.Alike (terms : Terms) (report report' : RunReport) : Prop where
  finalState : report.finalState = report'.finalState
  clockPulses : report.clockPulses = report'.clockPulses
  faults : terms.SameSamples report.faults report'.faults
  elapsed : terms.sameClock = true → report.elapsed = report'.elapsed

/-- Two runs that end in the same way with reports that agree. -/
inductive RunOutcome.Alike (terms : Terms) : RunOutcome → RunOutcome → Prop where
  | completed {report report'} (h : report.Alike terms report') :
      Alike terms (.completed report) (.completed report')
  | stopped {report report'} (error : PlayError) (h : report.Alike terms report') :
      Alike terms (.stopped error report) (.stopped error report')
  | abandoned : Alike terms .abandoned .abandoned

theorem RunReport.Alike.mono {terms terms' : Terms} {report report' : RunReport}
    (hclock : terms'.sameClock = true → terms.sameClock = true)
    (hlevels : terms'.sameLevels = true → terms.sameLevels = true)
    (h : report.Alike terms report') : report.Alike terms' report' where
  finalState := h.finalState
  clockPulses := h.clockPulses
  faults hsame := h.faults (hlevels hsame)
  elapsed hsame := h.elapsed (hclock hsame)

/-- With the same clock and the same levels reports that are alike are the same. -/
theorem RunReport.Alike.eq {terms : Terms} {report report' : RunReport}
    (hclock : terms.sameClock = true) (hlevels : terms.sameLevels = true)
    (h : report.Alike terms report') : report = report' := by
  obtain ⟨⟩ := report
  obtain ⟨⟩ := report'
  obtain ⟨hstate, hpulses, hfaults, helapsed⟩ := h
  simp_all [Terms.SameSamples]

namespace RunOutcome

variable {terms terms' : Terms} {outcome outcome' : RunOutcome}

/-- Runs that agree on some terms agree on weaker ones. -/
theorem Alike.mono (hclock : terms'.sameClock = true → terms.sameClock = true)
    (hlevels : terms'.sameLevels = true → terms.sameLevels = true)
    (h : outcome.Alike terms outcome') : outcome.Alike terms' outcome' := by
  cases h with
  | completed h => exact .completed (h.mono hclock hlevels)
  | stopped error h => exact .stopped error (h.mono hclock hlevels)
  | abandoned => exact .abandoned

/-- On the strongest terms they are the same. -/
theorem Alike.eq (hclock : terms.sameClock = true) (hlevels : terms.sameLevels = true)
    (h : outcome.Alike terms outcome') : outcome = outcome' := by
  cases h with
  | completed h => rw [h.eq hclock hlevels]
  | stopped error h => rw [h.eq hclock hlevels]
  | abandoned => rfl

end RunOutcome

/-- A run was abandoned that another clock may well have let go on. -/
def RunOutcome.Overflows (terms : Terms) (outcome : RunOutcome) : Prop :=
  terms.sameClock = false ∧ outcome = .abandoned

namespace Player

variable {terms : Terms} {policy policy' : Bool} {Related : Session → Session → Prop}

/-- A report shows no more of a session than the device and the faults. -/
theorem ofSession_alike {session session' : Session} (htap : session.tap.Alike terms session'.tap)
    (hfaults : terms.SameSamples session.report session'.report) {elapsed elapsed' : Nat}
    (helapsed : terms.sameClock = true → elapsed = elapsed') :
    RunReport.Alike terms (.ofSession session elapsed) (.ofSession session' elapsed') where
  finalState := htap.state
  clockPulses := htap.pulses
  faults := hfaults
  elapsed := helapsed

/-- Runs agree that end in the same way with reports on related sessions, as far as they take the
same time. -/
structure ReportsAlike (terms : Terms) (Related : Session → Session → Prop)
    (Agrees : RunOutcome → RunOutcome → Prop) : Prop where
  abandoned : Agrees .abandoned .abandoned
  completed : ∀ {session session' elapsed elapsed'}, Related session session' →
    (terms.sameClock = true → elapsed = elapsed') →
      Agrees (.completed (.ofSession session elapsed)) (.completed (.ofSession session' elapsed'))
  stopped : ∀ error {session session' elapsed elapsed'}, Related session session' →
    (terms.sameClock = true → elapsed = elapsed') →
      Agrees (.stopped error (.ofSession session elapsed))
        (.stopped error (.ofSession session' elapsed'))
  unstarted : ∀ error {elapsed elapsed'}, (terms.sameClock = true → elapsed = elapsed') →
    Agrees (.stopped error (.unstarted elapsed)) (.stopped error (.unstarted elapsed'))

theorem alike_reportsAlike :
    ReportsAlike terms (Session.Alike terms policy policy') (RunOutcome.Alike terms) where
  abandoned := .abandoned
  completed halike helapsed := .completed (ofSession_alike halike.tap halike.report helapsed)
  stopped error _ _ _ _ halike helapsed :=
    .stopped error (ofSession_alike halike.tap halike.report helapsed)
  unstarted error _ _ helapsed := .stopped error ⟨rfl, rfl, fun _ => rfl, helapsed⟩

/-- What remains to be done of a run looks at the clock once. -/
theorem lockstep_now {α : Type} {Agrees : α → α → Prop} {Lost : α → Prop}
    {next next' : Nat → Dialogue α}
    (h : ∀ instant instant', (terms.sameClock = true → instant = instant') →
      Lockstep terms Agrees Lost (next instant) (next' instant')) :
    Lockstep terms Agrees Lost (.call .now next) (.call .now next') := by
  by_cases hclock : terms.sameClock = true
  · exact .both hclock fun instant instant' hmatches => h _ _ fun _ => hmatches
  · exact .first hclock fun instant => .second hclock fun instant' =>
      h _ _ fun hsame => absurd hsame hclock

/-- Two runs finish in lockstep, with reports that agree. -/
theorem finish_lockstep {Agrees : RunOutcome → RunOutcome → Prop}
    (hreports : ReportsAlike terms Related Agrees) {start start' : Nat}
    (hstart : terms.sameClock = true → start = start') {session session' : Session}
    (h : Related session session') (result : Except Halt Unit) :
    Lockstep terms Agrees (RunOutcome.Overflows terms) (finish start session result)
      (finish start' session' result) := by
  have helapsed : ∀ {instant instant' : Nat}, (terms.sameClock = true → instant = instant') →
      terms.sameClock = true → instant - start = instant' - start' :=
    fun hinstant hclock => by rw [hinstant hclock, hstart hclock]
  match result with
  | .error .deadlineOverflow => exact .done hreports.abandoned
  | .error (.failed error) =>
    refine .both (c := .release) trivial fun _ _ _ => lockstep_now fun _ _ hinstant => ?_
    exact .first (c := .note _) id fun _ => .second (c := .note _) id fun _ =>
      .done (hreports.stopped error h (helapsed hinstant))
  | .ok () =>
    refine .both (c := .release) trivial fun _ _ _ => lockstep_now fun _ _ hinstant => ?_
    exact .done (hreports.completed h (helapsed hinstant))

/-- Sessions are finished alike whose ends agree. -/
theorem finish_ends {Agrees : RunOutcome → RunOutcome → Prop}
    (hreports : ReportsAlike terms Related Agrees) {start start' : Nat}
    (hstart : terms.sameClock = true → start = start') {ending ending' : Except Halt Unit × Session}
    (hends : Ends Related (fun _ _ => True) ending ending') :
    Lockstep terms Agrees (RunOutcome.Overflows terms) (finish start ending.2 ending.1)
      (finish start' ending'.2 ending'.1) := by
  cases hends with
  | ok hrelated _ => exact finish_lockstep hreports hstart hrelated (.ok ())
  | error reason hrelated => exact finish_lockstep hreports hstart hrelated (.error reason)

/-- What overflows is abandoned. -/
theorem finish_of_overflows {start : Nat} {ending : Except Halt Unit × Session}
    (h : Overflows terms ending) :
    ∃ outcome, finish start ending.2 ending.1 = .done outcome ∧ outcome.Overflows terms := by
  obtain ⟨result, session⟩ := ending
  obtain ⟨hclock, hoverflow⟩ := h
  cases hoverflow
  exact ⟨_, rfl, hclock, rfl⟩

theorem initial_alike (config : PlayerConfig) (policy policy' : Bool) :
    Session.Alike terms policy policy' (.initial { config with continueOnFault := policy })
      (.initial { config with continueOnFault := policy' }) where
  tap := ⟨rfl, rfl, rfl, rfl, fun _ => rfl⟩
  registers := rfl
  endData := rfl
  endInstruction := rfl
  report _ := rfl
  policy := rfl
  policy' := rfl

/-- Without the bus nothing depends on the policy or the program. -/
theorem refused_lockstep {Agrees : RunOutcome → RunOutcome → Prop}
    (hreports : ReportsAlike terms Related Agrees) {start start' : Nat}
    (hstart : terms.sameClock = true → start = start') (config config' : PlayerConfig)
    (program program' : List Instruction) (error : IoError) :
    Lockstep terms Agrees (RunOutcome.Overflows terms)
      (runAcquired config program start (.error error))
      (runAcquired config' program' start' (.error error)) := by
  refine .first (c := .note _) id fun _ => .second (c := .note _) id fun _ => ?_
  refine lockstep_now fun instant instant' hinstant => .done (hreports.unstarted _ fun hclock => ?_)
  rw [hinstant hclock, hstart hclock]

/-- Two runs stay in lockstep if they carry out their programs so. -/
theorem run_lockstep_of {Agrees : RunOutcome → RunOutcome → Prop}
    (hreports : ReportsAlike terms Related Agrees) {config config' : PlayerConfig}
    {program program' : List Instruction} (hinitial : Related (.initial config) (.initial config'))
    (hpaired : Paired terms Related (fun _ _ => True) (executeAll program) (executeAll program')) :
    Lockstep terms Agrees (RunOutcome.Overflows terms) (run config program)
      (run config' program') := by
  rw [run_eq, run_eq]
  refine lockstep_now fun start start' hstart => ?_
  refine .first (c := .note _) id fun _ => .second (c := .note _) id fun _ => ?_
  refine .both (c := .acquire) trivial fun answer answer' hmatches => ?_
  obtain rfl : answer = answer' := hmatches
  cases answer with
  | error error => exact refused_lockstep hreports hstart _ _ program program' error
  | ok u =>
    exact Lockstep.bind (hpaired hinitial) (fun _ _ => finish_ends hreports hstart)
      (fun _ => finish_of_overflows) fun _ => finish_of_overflows

/-- Two runs of a program whose conclusions do not depend on what may differ, neither on the levels
that come back nor on the clock, stay in lockstep. -/
theorem run_lockstep (hsettles : terms.Settles policy policy') (config : PlayerConfig)
    (program : List Instruction)
    (hlimit : terms.sameClock = true ∨ ∀ instruction ∈ program, instruction.IsUnlimited) :
    Lockstep terms (RunOutcome.Alike terms) (RunOutcome.Overflows terms)
      (run { config with continueOnFault := policy } program)
      (run { config with continueOnFault := policy' } program) :=
  run_lockstep_of alike_reportsAlike (initial_alike config policy policy')
    (executeAll_paired hsettles program hlimit)

/-- Two runs of a program, on two clocks, can be compared: the clocks are the same, or the program
does not depend on how long things take and neither run is abandoned. -/
def Comparable {τ : Type} (program : List Instruction) (clock clock' : τ)
    (outcome outcome' : RunOutcome) : Prop :=
  clock' = clock ∨ (∀ instruction ∈ program, instruction.IsUnlimited) ∧
    outcome ≠ .abandoned ∧ outcome' ≠ .abandoned

/-- The terms on which they can be compared. -/
theorem Comparable.exists_terms {τ : Type} {program : List Instruction} {clock clock' : τ}
    {outcome outcome' : RunOutcome} (h : Comparable program clock clock' outcome outcome')
    (sameLevels : Bool) :
    ∃ terms : Terms, terms.sameLevels = sameLevels ∧ (terms.sameClock = true ↔ clock' = clock) ∧
      (terms.sameClock = true ∨ ∀ instruction ∈ program, instruction.IsUnlimited) ∧
      ¬ outcome.Overflows terms ∧ ¬ outcome'.Overflows terms := by
  by_cases heq : clock' = clock
  · exact ⟨⟨true, sameLevels⟩, rfl, by simp [heq], .inl rfl, nofun, nofun⟩
  · obtain ⟨hlimit, hends, hends'⟩ := h.resolve_left heq
    exact ⟨⟨false, sameLevels⟩, rfl, by simp [heq], .inr hlimit, fun h => hends h.2,
      fun h => hends' h.2⟩

end Player

end JtagPlayer
