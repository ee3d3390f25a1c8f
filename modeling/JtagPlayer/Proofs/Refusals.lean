import JtagPlayer.Bus.Simulated
import JtagPlayer.Proofs.Halting
import JtagPlayer.Proofs.Idling
import JtagPlayer.Proofs.Settings

/-!
# Instructions that are refused

An instruction is refused if its parameters are at fault, if it asks scans to end in a state that is
not stable, or if no player can carry it out. `Instruction.refusal?` computes the error from the
instruction and the stored patterns alone, by the checks that stand in front of everything else.
What passes them is stopped for other reasons only, so nothing that an instruction does can be
followed by a refusal. `Player.refused_without_trace` draws the conclusion.
-/

namespace JtagPlayer

open JtagPlayer.Action

/-- The errors of instructions that are refused. -/
def PlayError.IsRefusal : PlayError → Prop
  | .parameter _ | .move (.notStable _) | .unsupported _ => True
  | _ => False

/-- The instruction is refused. -/
def Halt.IsRefusal : Halt → Prop
  | .failed error => error.IsRefusal
  | .deadlineOverflow => False

/-- Neither the bus nor a movement refuses an instruction. -/
theorem Halt.excusesMoves_of_refusal : Halt.ExcusesMoves fun reason => ¬ reason.IsRefusal where
  overflow := id
  hardware _ := id
  noRoute _ _ := id
  notNeighbour _ _ := id

/-- The error of a change that the stored pattern refuses. -/
def Registers.refusal? (registers : Registers) (name : RegisterName) (delta : Pattern) :
    Option PlayError :=
  match registers.update name delta with
  | .error error => some (.parameter (.pattern error))
  | .ok _ => none

/-- The error of a number of seconds that is no duration. -/
def Duration.refusal? (seconds : Float) : Option PlayError :=
  match Duration.ofSeconds? seconds with
  | some _ => none
  | none => some (.parameter (.invalidDuration seconds))

/-- The error with which an instruction is refused where the given patterns are stored. -/
def Instruction.refusal? (registers : Registers) : Instruction → Option PlayError
  | setEndState _ state => if state.isStable then none else some (.move (.notStable state))
  | setFrequency hz =>
    match TapDriver.delayOf hz with
    | .error error => some (.parameter error)
    | .ok _ => none
  | setHeader register delta => registers.refusal? ⟨.header, register⟩ delta
  | setTrailer register delta => registers.refusal? ⟨.trailer, register⟩ delta
  | shift register delta _ => registers.refusal? ⟨.payload, register⟩ delta
  | runTest test =>
    -- The least time is looked at first.
    (Duration.refusal? test.minTime).or (test.maxTime.bind Duration.refusal?)
  | goToState _ _ => none
  | unsupported command => some (.unsupported command.name)
  | unknown => some (.unsupported "Unknown instruction")

theorem Registers.refusal?_eq_some {registers : Registers} {name : RegisterName} {delta : Pattern}
    {error : PlayError} : registers.refusal? name delta = some error ↔
      ∃ reason, registers.update name delta = .error reason ∧
        error = .parameter (.pattern reason) := by
  unfold refusal?
  cases registers.update name delta with
  | error reason => simp [eq_comm]
  | ok updated => simp

theorem Registers.refusal?_eq_none {registers : Registers} {name : RegisterName}
    {delta : Pattern} : registers.refusal? name delta = none ↔
      ∃ updated, registers.update name delta = .ok updated := by
  unfold refusal?
  cases registers.update name delta with
  | error reason => simp
  | ok updated => simp

theorem Duration.refusal?_eq_some {seconds : Float} {error : PlayError} :
    Duration.refusal? seconds = some error ↔
      Duration.ofSeconds? seconds = none ∧ error = .parameter (.invalidDuration seconds) := by
  unfold refusal?
  cases Duration.ofSeconds? seconds with
  | none => simp [eq_comm]
  | some span => simp

/-- What is computed is a refusal. -/
theorem Instruction.isRefusal_of_refusal? {registers : Registers} {instruction : Instruction}
    {error : PlayError} (h : instruction.refusal? registers = some error) : error.IsRefusal := by
  cases instruction with
  | setEndState register state =>
    simp only [refusal?, Option.ite_none_left_eq_some, Option.some.injEq] at h
    obtain ⟨-, rfl⟩ := h
    trivial
  | setFrequency hz =>
    rw [refusal?] at h
    split at h
    · cases h
      trivial
    · cases h
  | setHeader register delta | setTrailer register delta | shift register delta label =>
    obtain ⟨reason, -, rfl⟩ := Registers.refusal?_eq_some.mp h
    trivial
  | runTest test =>
    rcases Option.or_eq_some_iff.mp h with hmin | ⟨-, hmax⟩
    · obtain ⟨-, rfl⟩ := Duration.refusal?_eq_some.mp hmin
      trivial
    · obtain ⟨seconds, -, hseconds⟩ := Option.bind_eq_some_iff.mp hmax
      obtain ⟨-, rfl⟩ := Duration.refusal?_eq_some.mp hseconds
      trivial
  | goToState target path => cases h
  | unsupported command =>
    cases h
    trivial
  | unknown =>
    cases h
    trivial

namespace Player

variable {session session' : Session} {exchanges : List Exchange} {reason : Halt}

/-- A number of seconds that is no duration stops an action where it stands. -/
theorem duration_of_refusal {seconds : Float} {error : PlayError}
    (h : Duration.refusal? seconds = some error) (session : Session) :
    duration seconds session = .done (.error (.failed error), session) := by
  obtain ⟨hnone, rfl⟩ := Duration.refusal?_eq_some.mp h
  rw [duration, hnone]
  rfl

/-- So does a change that the stored pattern refuses. -/
theorem update_of_refusal {name : RegisterName} {delta : Pattern} {error : PlayError}
    (h : session.registers.refusal? name delta = some error) :
    update name delta session = .done (.error (.failed error), session) := by
  obtain ⟨reason, hupdate, rfl⟩ := Registers.refusal?_eq_some.mp h
  rw [update_eq, hupdate]

/-- What stops at its first step does nothing. -/
theorem bind_of_done {α γ : Type} {action : Action Session α} {f : α → Action Session γ}
    (h : action session = .done (.error reason, session')) :
    (action >>= f) session = .done (.error reason, session') := by
  show (action session).bind _ = _
  rw [h]
  rfl

/-- A refused instruction makes no call, not even a note or a look at the clock, and leaves the
session as it is. -/
theorem execute_of_refusal {instruction : Instruction} {error : PlayError}
    (h : instruction.refusal? session.registers = some error) :
    execute instruction session = .done (.error (.failed error), session) := by
  cases instruction with
  | setEndState register state =>
    simp only [Instruction.refusal?, Option.ite_none_left_eq_some, Option.some.injEq] at h
    obtain ⟨hunstable, rfl⟩ := h
    have hset : session.setEndState register state = .error (.notStable state) :=
      if_neg hunstable
    show setEndState register state session = _
    rw [setEndState_eq, hset]
  | setFrequency hz =>
    rw [Instruction.refusal?] at h
    split at h
    · rename_i reason hdelay
      cases h
      show setFrequency hz session = _
      rw [setFrequency_eq, hdelay]
    · cases h
  | setHeader register delta | setTrailer register delta | shift register delta label =>
    exact bind_of_done (update_of_refusal h)
  | runTest test =>
    rcases Option.or_eq_some_iff.mp h with hmin | ⟨hmin, hmax⟩
    · exact bind_of_done (duration_of_refusal hmin session)
    · obtain ⟨seconds, hseconds, hrefused⟩ := Option.bind_eq_some_iff.mp hmax
      have hbegun : ∃ minTime, duration test.minTime session = .done (.ok minTime, session) := by
        unfold Duration.refusal? at hmin
        split at hmin
        · rename_i minTime hminTime
          exact ⟨minTime, by rw [duration, hminTime]; rfl⟩
        · cases hmin
      obtain ⟨minTime, hminTime⟩ := hbegun
      show (duration test.minTime session).bind _ = _
      rw [hminTime, hseconds]
      exact bind_of_done (bind_of_done (duration_of_refusal hrefused session))
  | goToState target path => cases h
  | unsupported command =>
    cases h
    rfl
  | unknown =>
    cases h
    rfl

/-- What is not refused at once is not refused later. -/
theorem not_isRefusal_of_accepted {instruction : Instruction}
    (hcourse : (execute instruction).Course session exchanges (.error reason) session')
    (haccepted : instruction.refusal? session.registers = none) : ¬ reason.IsRefusal := by
  have hexcuses := Halt.excusesMoves_of_refusal
  generalize hresult : (Except.error reason : Except Halt Unit) = result at hcourse
  -- What is refused at all is refused before anything else, so what stops an accepted instruction
  -- is one of the reasons that the lemmas on its parts allow.
  cases instruction with
  | setEndState register state =>
    have hstable : state.isStable = true := by
      simpa [Instruction.refusal?] using haccepted
    have hset : ∃ updated, session.setEndState register state = .ok updated :=
      ⟨_, if_pos hstable⟩
    obtain ⟨updated, hset⟩ := hset
    have hrest := course_get_bind.mp hcourse
    rw [hset] at hrest
    obtain ⟨-, hok, -⟩ := course_modify.mp hrest
    cases hresult.trans hok
  | setFrequency hz =>
    rw [Instruction.refusal?] at haccepted
    split at haccepted
    · cases haccepted
    · rename_i delay hdelay
      subst hresult
      have hstops : (setFrequency hz).StopsFor fun reason => ¬ reason.IsRefusal :=
        setFrequency_stopsFor fun error herror => nomatch hdelay.symm.trans herror
      exact hstops hcourse
  | setHeader register delta | setTrailer register delta =>
    obtain ⟨registers, hregisters⟩ := Registers.refusal?_eq_none.mp haccepted
    rcases setPattern_course hcourse with ⟨error, herror, -⟩ | ⟨_, -, -, hok, -⟩
    · cases hregisters.symm.trans herror
    · cases hresult.trans hok
  | shift register delta label =>
    obtain ⟨registers, hregisters⟩ := Registers.refusal?_eq_none.mp haccepted
    cases scan_course hcourse with
    | refused herror => cases hregisters.symm.trans herror
    | unrouted hupdate hroute =>
      cases hresult
      exact TapDriver.routeTo_stopsFor hexcuses _ hroute
    | unshifted hupdate hroute hshift =>
      cases hresult
      exact Segments.shift_stopsFor hexcuses.toExcuses _ hshift
    | @shifted _ _ _ _ _ left _ _ _ hupdate hroute hshift hleave =>
      cases left with
      | error stop =>
        cases hresult
        exact TapDriver.leaveFor_stopsFor hexcuses _ hleave
      | ok u =>
        -- The scan was left for its end state. A mismatch stops it now, which is no refusal.
        change _ = verdict _ _ _ at hresult
        unfold verdict at hresult
        split at hresult
        · cases hresult
        · cases hresult
          exact id
  | runTest test =>
    obtain ⟨hmin, hmax⟩ := Option.or_eq_none_iff.mp haccepted
    cases runTest_course hcourse with
    | refused hnone hgiven =>
      have hrefused := Duration.refusal?_eq_some.mpr ⟨hnone, rfl⟩
      rcases hgiven with rfl | hgiven
      · cases hmin.symm.trans hrefused
      · rw [← hgiven] at hmax
        cases hmax.symm.trans hrefused
    | stopped hminTime happroach =>
      cases hresult
      exact approach_stopsFor hexcuses _ _ _ happroach
    | overdue hminTime happroach hlimit =>
      cases hresult
      exact id
    | waited hminTime happroach hlimit hleave =>
      subst hresult
      exact routeToGiven_stopsFor hexcuses _ hleave
  | goToState target path =>
    subst hresult
    cases path with
    | none => exact routeTo_stopsFor hexcuses target hcourse
    | some path =>
      exact onTap_stopsFor (TapDriver.walkPath_stopsFor hexcuses.toExcuses
        hexcuses.notNeighbour _) hcourse
  | unsupported command => cases haccepted
  | unknown => cases haccepted

section Bench

variable {β τ : Type} [Bus β] [Clock τ] {instruction : Instruction} {bench : Bench β τ}
  {error : PlayError}

/-- A refusal that stops an instruction is the one that was computed. -/
theorem refusal?_of_stopped
    (hresult : ((execute instruction session).play bench).1.1 = .error (.failed error))
    (hrefusal : error.IsRefusal) : instruction.refusal? session.registers = some error := by
  cases hrefused : instruction.refusal? session.registers with
  | none =>
    have hcourse := Dialogue.course_transcript (execute instruction session) bench
    have hstopped : (execute instruction).Course session
        ((execute instruction session).transcript bench) (.error (.failed error))
        ((execute instruction session).play bench).1.2 := by
      rw [← hresult]
      exact hcourse
    exact absurd hrefusal (not_isRefusal_of_accepted hstopped hrefused)
  | some other =>
    rw [execute_of_refusal hrefused] at hresult
    cases hresult
    rfl

/-- Instructions that are refused leave no trace. In every session and on every bench, an
instruction is stopped by a refusal exactly if the instruction and the stored patterns give rise to
one, and by that one. It has then made no call at all, and the session is what it was: stored
patterns, end states, state of the device, count of pulses, delay and faults. -/
theorem refused_without_trace (instruction : Instruction) (session : Session) (bench : Bench β τ)
    (error : PlayError) :
    let played := (execute instruction session).play bench
    (instruction.refusal? session.registers = some error ↔
      played.1.1 = .error (.failed error) ∧ error.IsRefusal) ∧
    (played.1.1 = .error (.failed error) → error.IsRefusal →
      (execute instruction session).transcript bench = [] ∧ played.1.2 = session ∧
        played.2 = bench) := by
  intro played
  have hdone : instruction.refusal? session.registers = some error →
      played = ((.error (.failed error), session), bench) ∧
        (execute instruction session).transcript bench = [] := by
    intro hrefused
    show (execute instruction session).play bench = _ ∧ _
    rw [execute_of_refusal hrefused]
    exact ⟨rfl, rfl⟩
  refine ⟨⟨fun hrefused => ?_, fun h => refusal?_of_stopped h.1 h.2⟩, fun hresult hrefusal => ?_⟩
  · rw [(hdone hrefused).1]
    exact ⟨rfl, Instruction.isRefusal_of_refusal? hrefused⟩
  · obtain ⟨hplayed, htranscript⟩ := hdone (refusal?_of_stopped hresult hrefusal)
    rw [hplayed]
    exact ⟨htranscript, rfl, rfl⟩

end Bench

/-- A scan whose mask is too long, in a session that has stored patterns and given clocks. -/
theorem refused_without_trace_oversized_mask :
    let bench : Bench SimulatedBus IdealClock := { bus := {}, clock := {} }
    let program := [Instruction.setHeader .data { length := 3, tdi := some [5] },
      .setEndState .data .drPause, .shift .data { length := 9, tdi := some [1, 0x55] } none]
    let reached := (executeAll program (.initial {})).play bench
    let instruction := Instruction.shift .data { length := 9, mask := some [0, 1, 255] } none
    let played := (execute instruction reached.1.2).play reached.2
    let error := PlayError.parameter (.pattern (.oversized ⟨.payload, .data⟩ .mask 2 3))
    reached.1.2.tap.pulses = 22 ∧ played.1.1 = .error (.failed error) ∧
      (execute instruction reached.1.2).transcript reached.2 = [] ∧ played.1.2 = reached.1.2 := by
  intro bench program reached instruction played error
  have hrefused : instruction.refusal? reached.1.2.registers = some error := by decide +kernel
  obtain ⟨hiff, huntouched⟩ := refused_without_trace instruction reached.1.2 reached.2 error
  obtain ⟨hresult, hrefusal⟩ := hiff.mp hrefused
  obtain ⟨htranscript, hsession, -⟩ := huntouched hresult hrefusal
  exact ⟨by decide +kernel, hresult, htranscript, hsession⟩

end Player

end JtagPlayer
