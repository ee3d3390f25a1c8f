import JtagPlayer.Proofs.Exactness
import JtagPlayer.Proofs.Keeping
import Mathlib.Control.Monad.Basic

/-!
# Scans come back to their end states

A scan goes to the shift state of its register, sends its bits, waits in the pause state for one
clock, and goes on to the state that scans of this register end in. `Player.scanEdges` lists the
edges of all this. `Player.scan_returns` says that these are the edges of a scan if no operation on
the bus fails, whatever comes back and whatever becomes of a mismatch, so that the device is in the
end state afterwards. A scan that gives fewer of them has lost an edge.
-/

namespace JtagPlayer

open JtagPlayer.Action

/-- The state in which a scan waits before it is left for good. -/
def Register.pauseState : Register → TapState
  | data => .drPause
  | instruction => .irPause

theorem Register.shiftState_mem_stable (register : Register) :
    register.shiftState ∈ TapState.stable := by
  cases register <;> decide

/-- Two clocks lead from the one to the other. -/
theorem Register.next_shiftState (register : Register) :
    (register.shiftState.next true).next false = register.pauseState := by
  cases register <;> rfl

namespace TapDriver

variable {driver driver' : TapDriver} {exchanges : List Exchange} {target : TapState}
  {word : List Bool} {result : Except Halt Unit}

/-- A route gives the edges of its word, or a beginning of them if an edge is overdue. -/
theorem edges_of_route (h : (routeTo target).Course driver exchanges result driver')
    (hflawless : Flawless exchanges) (hroute : driver.state.route? target = some word)
    (lines : Lines) :
    lines.edges exchanges <+: Edge.word word ∧
      (result = .ok () ∧ lines.edges exchanges = Edge.word word ∨
        result = .error .deadlineOverflow) := by
  rcases routeTo_course h with ⟨hnone, -, -, -⟩ | ⟨other, rest, hother, rfl, hwalk⟩
  · cases hnone.symm.trans hroute
  · cases hother.symm.trans hroute
    refine ⟨(clockWord_emits word).begins hwalk lines, ?_⟩
    cases result with
    | ok u => exact .inl ⟨rfl, (clockWord_emits word).complete hwalk lines⟩
    | error reason =>
      rw [(clockWord_emits word).steady hwalk (flawless_cons.mp hflawless).2]
      exact .inr rfl

/-- Leaving a scan gives the edge to the pause state and those of a route from there. -/
theorem edges_of_leave {register : Register}
    (h : (leaveFor target).Course driver exchanges result driver')
    (hflawless : Flawless exchanges) (hstate : driver.state = register.shiftState.next true)
    (hroute : register.pauseState.route? target = some word) (lines : Lines) :
    lines.edges exchanges <+: Edge.quiet false :: Edge.word word ∧
      (result = .ok () ∧ lines.edges exchanges = Edge.quiet false :: Edge.word word ∨
        result = .error .deadlineOverflow) := by
  rcases course_bind.mp h with
    ⟨first, rest, level, middle, hclock, hrest, rfl⟩ | ⟨reason, hclock, rfl⟩
  · have hpause : middle.state = register.pauseState := by
      rw [state_of_clock hclock, hstate, register.next_shiftState]
    have hfirst : lines.edges first = [Edge.quiet false] :=
      (clock_emits false false).complete hclock lines
    obtain ⟨hbegins, hends⟩ := edges_of_route hrest (flawless_append.mp hflawless).2
      (hpause ▸ hroute) (lines.watch first)
    rw [Lines.edges_append, hfirst, List.singleton_append]
    refine ⟨(List.prefix_cons_inj _).mpr hbegins, ?_⟩
    rcases hends with ⟨hresult, hedges⟩ | hresult
    · exact .inl ⟨hresult, congrArg _ hedges⟩
    · exact .inr hresult
  · refine ⟨((clock_emits false false).begins hclock lines).trans ⟨Edge.word word, rfl⟩, .inr ?_⟩
    rw [(clock_emits false false).steady hclock hflawless]

end TapDriver

namespace Player

/-- The edges of a scan: the way in, the bits, one clock to the pause state, and the way out. -/
def scanEdges (segments : Segments) (way out : List Bool) : List Edge :=
  Edge.word way ++ (TapDriver.shiftEdges true segments.bits ++
    Edge.quiet false :: Edge.word out)

variable {session session' : Session} {exchanges : List Exchange} {result : Except Halt Unit}
  {register : Register} {delta : Pattern} {label : Option String} {registers : Registers}
  {way out : List Bool}

theorem length_scanEdges (segments : Segments) (way out : List Bool) :
    (scanEdges segments way out).length = way.length + segments.length + 1 + out.length := by
  simp [scanEdges, Edge.word, Segments.length_bits]
  omega

/-- These edges lead from where the way in begins to where the way out ends. -/
theorem follow_scanEdges {start target : TapState} {segments : Segments}
    (hbits : segments.bits ≠ []) (hway : start.route? register.shiftState = some way)
    (hout : register.pauseState.route? target = some out) :
    start.follow (scanEdges segments way out) = target := by
  rw [scanEdges, TapState.follow_append, TapState.follow_route hway, TapState.follow_append,
    TapDriver.follow_shiftEdges register hbits, TapState.follow_cons]
  exact register.next_shiftState ▸ TapState.follow_route hout

/-- A scan gives these edges, or a beginning of them if an edge is overdue. -/
theorem edges_of_scan (h : ScanCourse register delta label session exchanges result session')
    (hflawless : Flawless exchanges)
    (hupdate : session.registers.update ⟨.payload, register⟩ delta = .ok registers)
    (hway : session.tap.state.route? register.shiftState = some way)
    (hout : register.pauseState.route? (session.endState register) = some out) (lines : Lines) :
    lines.edges exchanges <+: scanEdges (registers.segments register) way out ∧
      ((∃ passed, result = verdict session passed label) ∧
          lines.edges exchanges = scanEdges (registers.segments register) way out ∨
        result = .error .deadlineOverflow) := by
  -- Wherever the scan stops, the edges so far are a beginning of those of the whole.
  cases h with
  | refused hrefused => cases hrefused.symm.trans hupdate
  | unrouted hupdate' hroute =>
    cases hupdate'.symm.trans hupdate
    rw [Lines.edges_cons_of_isIdle lines (isIdle_updateNote _ _)]
    obtain ⟨hbegins, ⟨hresult, -⟩ | hresult⟩ :=
      TapDriver.edges_of_route hroute (flawless_cons.mp hflawless).2 hway lines
    · cases hresult
    · exact ⟨hbegins.trans (List.prefix_append _ _), .inr hresult⟩
  | unshifted hupdate' hroute hshift =>
    cases hupdate'.symm.trans hupdate
    obtain ⟨-, hflawless⟩ := flawless_cons.mp hflawless
    obtain ⟨hrouting, hshifting⟩ := flawless_append.mp hflawless
    rw [Lines.edges_cons_of_isIdle lines (isIdle_updateNote _ _), Lines.edges_append]
    obtain ⟨-, ⟨-, hedges⟩ | hresult⟩ := TapDriver.edges_of_route hroute hrouting hway lines
    · have hbegins := (registers.segments register).shift_emits.begins hshift
      rw [hedges, (registers.segments register).shift_emits.steady hshift hshifting]
      exact ⟨(List.prefix_append_right_inj _).mpr ((hbegins _).trans (List.prefix_append _ _)),
        .inr rfl⟩
    · cases hresult
  | @shifted _ routing shifting leaving samples left driver driver' driver'' hupdate' hroute
      hshift hleave =>
    cases hupdate'.symm.trans hupdate
    simp only [flawless_cons, flawless_append] at hflawless
    obtain ⟨-, hrouting, -, -, hleaving⟩ := hflawless
    obtain ⟨-, ⟨-, hedges⟩ | hresult⟩ := TapDriver.edges_of_route hroute hrouting hway lines
    · obtain ⟨word, -, -, hstate⟩ := TapDriver.routeTo_ok hroute
      obtain ⟨hshifted, hexit⟩ :=
        TapDriver.shift_ok hshift hstate (Registers.bits_ne_nil_of_update hupdate)
      rw [Lines.edges_cons_of_isIdle lines (isIdle_updateNote _ _), Lines.edges_append, hedges,
        Lines.edges_append, hshifted, Lines.edges_append_of_isIdle _ (isIdle_comparison _ _ _ _)]
      obtain ⟨hbegins, hends⟩ := TapDriver.edges_of_leave hleave hleaving hexit hout
        ((lines.watch routing).watch shifting)
      refine ⟨(List.prefix_append_right_inj _).mpr
        ((List.prefix_append_right_inj _).mpr hbegins), ?_⟩
      rcases hends with ⟨rfl, hleft⟩ | rfl
      · exact .inl ⟨⟨_, rfl⟩, congrArg _ (congrArg _ hleft)⟩
      · exact .inr rfl
    · cases hresult

section Bench

variable {β τ β' τ' : Type} [Bus β] [Clock τ] [Bus β'] [Clock τ']

/-- The sessions of a run are sound. -/
theorem isSound_of_mem_sessions {config : PlayerConfig} {program : List Instruction}
    {bench : Bench β τ} (hmem : session ∈ sessions config program bench) : session.IsSound := by
  unfold sessions at hmem
  rcases List.mem_cons.mp hmem with rfl | hmem
  · exact Session.isSound_initial config
  generalize acquired program bench = answered at hmem
  obtain ⟨_ | _, ready⟩ := answered
  · cases hmem
  have hreset := isSound_reset config ready
  dsimp only at hmem
  generalize (onTap TapDriver.reset (.initial config)).play ready = played at hreset hmem
  rcases List.mem_cons.mp hmem with rfl | hmem
  · exact hreset
  obtain ⟨program', result, session', hunfolds⟩ := stagesAfter_unfolds program played
  obtain ⟨stage, hstage, rfl⟩ := List.mem_map.mp hmem
  obtain ⟨hbefore, hcourse, -⟩ :=
    hunfolds.of_mem (P := Session.IsSound) execute_keepsSound hreset hstage
  exact execute_keepsSound hcourse hbefore

/-- A scan comes back to its end state. In whatever session a run may be with its device in a stable
state, let a scan be accepted and no operation on the bus fail. There are routes to the shift state
and from the pause state to the end state of the register, and the scan gives the edges of
`scanEdges`, at the end of which its verdict is returned and the device is in the end state, or it
gives a beginning of them and has lost an edge. -/
theorem scan_returns {config : PlayerConfig} {program : List Instruction} {earlier : Bench β' τ'}
    (hreached : session ∈ sessions config program earlier)
    (hstable : session.tap.state ∈ TapState.stable)
    (hupdate : session.registers.update ⟨.payload, register⟩ delta = .ok registers)
    (bench : Bench β τ)
    (hflawless : Flawless ((execute (.shift register delta label) session).transcript bench))
    (lines : Lines) :
    let played := ((execute (.shift register delta label) session).play bench).1
    let edges := lines.edges ((execute (.shift register delta label) session).transcript bench)
    let segments := registers.segments register
    ∃ way out, session.tap.state.route? register.shiftState = some way ∧
      register.pauseState.route? (session.endState register) = some out ∧
      ((∃ passed, played.1 = verdict session passed label) ∧
          edges = scanEdges segments way out ∧
          played.2.tap.state = session.endState register ∧
          played.2.tap.pulses =
            session.tap.pulses + (way.length + segments.length + 1 + out.length) ∨
        session.tap.EdgeLost played.1 played.2.tap ∧ edges <+: scanEdges segments way out) := by
  intro played edges segments
  have hcourse : (scan register delta label).Course session
      ((execute (.shift register delta label) session).transcript bench) played.1 played.2 :=
    Dialogue.course_transcript (execute (.shift register delta label) session) bench
  obtain ⟨way, hway⟩ := TapState.exists_route hstable register.shiftState_mem_stable
  obtain ⟨out, hout⟩ := TapState.exists_route (register.next_shiftState ▸ register.pause_mem_stable)
    ((isSound_of_mem_sessions hreached).ends register)
  obtain ⟨hbegins, ⟨hverdict, hedges⟩ | hresult⟩ :=
    edges_of_scan (scan_course hcourse) hflawless hupdate hway hout lines
  · obtain ⟨hfollows, hcounts⟩ :=
      scan_upholds follows_obeys.toObeysPlain follows_obeys.addFault register delta label hcourse
        lines
    refine ⟨way, out, hway, hout, .inl ⟨hverdict, hedges, ?_, ?_⟩⟩
    · rw [hfollows, hedges]
      exact follow_scanEdges (Registers.bits_ne_nil_of_update hupdate) hway hout
    · rw [hcounts, hedges, length_scanEdges]
  · rw [hresult] at hcourse
    exact ⟨way, out, hway, hout, .inr ⟨hresult ▸ edgeLost_of_scan hcourse, hbegins⟩⟩

end Bench

/-- A scan with a trailer that is expected to return something else than the echo of its bits, from
the pause state of its own register to that of the other one. -/
theorem scan_returns_mismatched :
    let bench : Bench SimulatedBus IdealClock := { bus := {}, clock := {} }
    let program : List Instruction := [.setTrailer .data { length := 3, tdi := some [5] },
      .setEndState .data .irPause, .goToState .drPause none]
    let session := (sessions {} program bench).getLast (List.cons_ne_nil _ _)
    let delta : Pattern := { length := 4, tdi := some [5], tdo := some [10] }
    let played := ((execute (.shift .data delta none) session).play bench).1
    played.1 = .error (.failed (.verification Fault.unlabeled)) ∧
      played.2.tap.state = .irPause ∧ played.2.tap.pulses = session.tap.pulses + 17 := by
  intro bench program session delta played
  have hmismatch : played.1 = .error (.failed (.verification Fault.unlabeled)) := by
    decide +kernel
  have hupdate : session.registers.update ⟨.payload, .data⟩ delta = .ok
      { data := { payload := delta, trailer := { length := 3, tdi := some [5] } } } := by
    decide +kernel
  have hreached : session ∈ sessions {} program bench := List.getLast_mem _
  obtain ⟨way, out, hway, hout, ⟨-, -, hstate, hpulses⟩ | ⟨hlost, -⟩⟩ :=
    scan_returns hreached (by decide +kernel) hupdate bench
      (by decide +kernel : Flawless ((execute (.shift .data delta none) session).transcript bench))
      {}
  · have hin : session.tap.state.route? Register.data.shiftState = some [true, false] := by
      decide +kernel
    have hback : Register.data.pauseState.route? (session.endState .data) =
        some [true, true, true, true, false, true, false] := by decide +kernel
    have hend : session.endState .data = .irPause := by decide +kernel
    cases hway.symm.trans hin
    cases hout.symm.trans hback
    exact ⟨hmismatch, hstate.trans hend, hpulses⟩
  · cases hmismatch.symm.trans hlost.stopped

/-- A clock rate that is accepted, and a scan in a state that a run reaches with it. No operation on
the bus fails, and yet the scan gives no edge, and a run of both is abandoned. -/
theorem scan_lost_at_accepted_rate :
    let bench : Bench SimulatedBus IdealClock := { bus := {}, clock := {} }
    let session := (sessions {} [.setFrequency 1e-19] bench).getLast (List.cons_ne_nil _ _)
    let scan : Instruction := .shift .data { length := 8, tdi := some [0xA5] } none
    let transcript := (execute scan session).transcript bench
    (TapDriver.delayOf 1e-19).isOk ∧ session.tap.state ∈ TapState.stable ∧
      (session.registers.update ⟨.payload, .data⟩ { length := 8, tdi := some [0xA5] }).isOk ∧
      Flawless transcript ∧ (({} : Lines).edges transcript) = [] ∧
      ((execute scan session).play bench).1.1 = .error .deadlineOverflow ∧
      ((run {} [.setFrequency 1e-19, scan]).play bench).1 = .abandoned := by
  decide +kernel

end Player

end JtagPlayer
