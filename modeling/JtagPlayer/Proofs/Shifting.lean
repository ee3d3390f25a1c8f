import JtagPlayer.Proofs.Abandonment
import JtagPlayer.Proofs.Merging
import JtagPlayer.Proofs.Resting

/-!
# What enters the registers

`shifted register pulses` are the bits that some pulses shift into a register of the device. They
are compared with `sentBits`, which follows the stored patterns through a program and lists the
binary digits of header, payload and trailer of every scan.

`Player.shifted_eq_sentBits` says that a program that stays away from the shift states between its
scans shifts exactly these bits, if no operation on the bus fails. A run that is abandoned because
its last stage has lost an edge may stop before the end of a scan.
-/

namespace JtagPlayer

open JtagPlayer.Action

/-- The bits that some pulses shift into a register. -/
def shifted (register : Register) (pulses : List Pulse) : List Bool :=
  (pulses.filter fun pulse => pulse.state = register.shiftState).map fun pulse => pulse.edge.tdi

@[simp] theorem shifted_append (register : Register) (first second : List Pulse) :
    shifted register (first ++ second) = shifted register first ++ shifted register second := by
  rw [shifted, List.filter_append, List.map_append]
  rfl

theorem shifted_prefix (register : Register) {first pulses : List Pulse} (h : first <+: pulses) :
    shifted register first <+: shifted register pulses := by
  obtain ⟨second, rfl⟩ := h
  rw [shifted_append]
  exact List.prefix_append _ _

/-- Pulses outside the shift states shift nothing. -/
theorem shifted_eq_nil (register : Register) {pulses : List Pulse}
    (h : ∀ pulse ∈ pulses, ¬ pulse.state.IsShift) : shifted register pulses = [] := by
  have hnone : pulses.filter (fun pulse => pulse.state = register.shiftState) = [] := by
    rw [List.filter_eq_nil_iff]
    intro pulse hpulse hstate
    exact h pulse hpulse ⟨register, of_decide_eq_true hstate⟩
  rw [shifted, hnone, List.map_nil]

namespace TapDriver

/-- All clocks of a scan begin in the shift state. -/
theorem pulses_shiftEdges (register : Register) (leave : Bool) (bits : List Bool) :
    register.shiftState.pulses (shiftEdges leave bits) =
      (shiftEdges leave bits).map (Pulse.mk register.shiftState) := by
  induction bits with
  | nil => rfl
  | cons bit bits ih =>
    cases bits with
    | nil => rfl
    | cons next bits =>
      have hstay : register.shiftState.next (leave && (next :: bits).isEmpty) =
          register.shiftState := by
        cases leave <;> cases register <;> rfl
      rw [shiftEdges, TapState.pulses, hstay, ih, List.map_cons]

@[simp] theorem map_tdi_shiftEdges (leave : Bool) (bits : List Bool) :
    (shiftEdges leave bits).map Edge.tdi = bits := by
  induction bits with
  | nil => rfl
  | cons bit bits ih => rw [shiftEdges, List.map_cons, ih]

@[simp] theorem length_shiftEdges (leave : Bool) (bits : List Bool) :
    (shiftEdges leave bits).length = bits.length := by
  rw [← List.length_map Edge.tdi, map_tdi_shiftEdges]

/-- A scan of at least one bit leaves the shift state at its last clock. -/
theorem follow_shiftEdges (register : Register) {bits : List Bool} (h : bits ≠ []) :
    register.shiftState.follow (shiftEdges true bits) = register.shiftState.next true := by
  induction bits with
  | nil => exact absurd rfl h
  | cons bit bits ih =>
    cases bits with
    | nil => rfl
    | cons next bits =>
      have hstay : register.shiftState.next (true && (next :: bits).isEmpty) =
          register.shiftState := by
        cases register <;> rfl
      rw [shiftEdges, TapState.follow_cons, hstay, ih (by simp)]

/-- A scan of one register shifts its bits into that register and into no other. -/
theorem shifted_shiftEdges (register other : Register) (bits : List Bool) :
    shifted register (other.shiftState.pulses (shiftEdges true bits)) =
      if other = register then bits else [] := by
  rw [pulses_shiftEdges, shifted, List.filter_map]
  by_cases hregister : other = register
  · subst hregister
    rw [if_pos rfl]
    have hall : (shiftEdges true bits).filter
        ((fun pulse : Pulse => decide (pulse.state = other.shiftState)) ∘
          Pulse.mk other.shiftState) = shiftEdges true bits := by
      simp [List.filter_eq_self]
    rw [hall, List.map_map]
    exact map_tdi_shiftEdges true bits
  · rw [if_neg hregister]
    have hstate : other.shiftState ≠ register.shiftState := by
      cases other <;> cases register <;> simp_all [Register.shiftState]
    have hnone : (shiftEdges true bits).filter
        ((fun pulse : Pulse => decide (pulse.state = register.shiftState)) ∘
          Pulse.mk other.shiftState) = [] := by
      simp [List.filter_eq_nil_iff, hstate]
    rw [hnone]
    rfl

end TapDriver

/-- An instruction that moves to no shift state other than for a scan, and whose explicit movements
end in a state to rest in. -/
def Instruction.AvoidsShift : Instruction → Prop
  | .setEndState _ state => ¬ state.IsShift
  | .runTest test =>
    (∀ state, test.runState = some state → ¬ state.IsShift) ∧
      ∀ state, test.endState = some state → ¬ state.IsShift
  | .goToState target path =>
    target ∈ TapState.rest ∧ ∀ states, path = some states → ∀ state ∈ states, ¬ state.IsShift
  | _ => True

namespace Registers

/-- The stored patterns after a change. One that is refused leaves them as they are. -/
def changed (registers : Registers) (name : RegisterName) (delta : Pattern) : Registers :=
  match registers.update name delta with
  | .ok updated => updated
  | .error _ => registers

/-- The stored patterns after an instruction. -/
def after (registers : Registers) : Instruction → Registers
  | .setHeader register delta => registers.changed ⟨.header, register⟩ delta
  | .setTrailer register delta => registers.changed ⟨.trailer, register⟩ delta
  | .shift register delta _ => registers.changed ⟨.payload, register⟩ delta
  | _ => registers

theorem changed_isFull {registers : Registers} (hfull : registers.IsFull) (name : RegisterName)
    (delta : Pattern) : (registers.changed name delta).IsFull := by
  unfold changed
  cases hupdate : registers.update name delta with
  | error error => exact hfull
  | ok updated => exact update_isFull hfull hupdate

theorem after_isFull {registers : Registers} (hfull : registers.IsFull)
    (instruction : Instruction) : (registers.after instruction).IsFull := by
  cases instruction with
  | setHeader register delta => exact changed_isFull hfull _ delta
  | setTrailer register delta => exact changed_isFull hfull _ delta
  | shift register delta label => exact changed_isFull hfull _ delta
  | _ => exact hfull

end Registers

/-- The binary digits of header, payload and trailer, in the order in which they are sent. -/
def Segments.digits (segments : Segments) : List Bool :=
  segments.header.digits ++ (segments.payload.digits ++ segments.trailer.digits)

/-- What an instruction sends through a register when the stored patterns stand as given. -/
def Instruction.sends (register : Register) (registers : Registers) : Instruction → List Bool
  | .shift other delta _ =>
    match registers.update ⟨.payload, other⟩ delta with
    | .ok updated => if other = register then (updated.segments other).digits else []
    | .error _ => []
  | _ => []

/-- What a program sends through a register. -/
def sentBits (register : Register) : Registers → List Instruction → List Bool
  | _, [] => []
  | registers, instruction :: program =>
    instruction.sends register registers ++ sentBits register (registers.after instruction) program

namespace Registers

/-- The patterns of full registers send their binary digits. -/
theorem bits_segments {registers : Registers} (hfull : registers.IsFull) (register : Register) :
    (registers.segments register).bits = (registers.segments register).digits := by
  have hheader := Pattern.bits_eq_digits (hfull ⟨.header, register⟩)
  have hpayload := Pattern.bits_eq_digits (hfull ⟨.payload, register⟩)
  have htrailer := Pattern.bits_eq_digits (hfull ⟨.trailer, register⟩)
  simp only [get, Segments.get] at hheader hpayload htrailer
  rw [Segments.bits, Segments.digits, hheader, hpayload, htrailer]

/-- A scan has at least one bit. -/
theorem bits_ne_nil_of_update {registers updated : Registers} {register : Register}
    {delta : Pattern} (h : registers.update ⟨.payload, register⟩ delta = .ok updated) :
    (updated.segments register).bits ≠ [] := by
  obtain ⟨merged, hmerge, rfl⟩ := update_eq_ok h
  have hpayload : ((registers.set ⟨.payload, register⟩ merged).segments register).payload =
      merged := registers.get_set ⟨.payload, register⟩ merged
  intro hnil
  have hlength : merged.bits.length = 0 := by
    rw [Segments.bits, hpayload] at hnil
    simp_all
  rcases Pattern.merge_cases hmerge with ⟨-, hname, -⟩ | ⟨hpos, -, tdi, -, rfl⟩
  · cases hname
  · rw [Pattern.length_bits] at hlength
    exact hpos (UInt32.toNat_inj.mp hlength)

end Registers

namespace TapDriver

variable {driver driver' : TapDriver} {exchanges : List Exchange}

/-- A scan that was sent to its end. -/
theorem shift_ok {segments : Segments} {register : Register} {samples : Samples}
    (h : segments.shift.Course driver exchanges (.ok samples) driver')
    (hstate : driver.state = register.shiftState) (hbits : segments.bits ≠ []) :
    (∀ lines : Lines, lines.edges exchanges = shiftEdges true segments.bits) ∧
      driver'.state = register.shiftState.next true := by
  have hedges : ∀ lines : Lines, lines.edges exchanges = shiftEdges true segments.bits :=
    fun lines => segments.shift_emits.complete h lines
  refine ⟨hedges, ?_⟩
  rw [state_of_follows (Segments.shift_upholds follows_obeys segments) h {}, hedges, hstate,
    follow_shiftEdges register hbits]

/-- Leaving a scan shifts nothing. -/
theorem leaveFor_still {target : TapState} {result : Except Halt Unit} {register : Register}
    (h : (leaveFor target).Course driver exchanges result driver')
    (hstate : driver.state = register.shiftState.next true) :
    (∀ lines : Lines, ∀ pulse ∈ driver.state.pulses (lines.edges exchanges),
      ¬ pulse.state.IsShift) ∧ (result = .ok () → driver'.state = target) := by
  have hexit : ¬ driver.state.IsShift := by
    rw [hstate]
    cases register <;> decide
  have hpause : driver.state.next false ∈ TapState.rest := by
    rw [hstate]
    cases register <;> decide
  rcases course_bind.mp h with
    ⟨first, rest, level, middle, hclock, hroute, rfl⟩ | ⟨reason, hclock, rfl⟩
  · have hmiddle : middle.state ∈ TapState.rest := by
      rw [state_of_clock hclock]
      exact hpause
    refine ⟨?_, ?_⟩
    · exact still_append (state_of_follows (clock_follows _ _) hclock) (clock_still hclock hexit)
        (routeTo_still hroute hmiddle)
    · rintro rfl
      obtain ⟨word, -, -, htarget⟩ := routeTo_ok hroute
      exact htarget
  · exact ⟨clock_still hclock hexit, nofun⟩

end TapDriver

namespace Player

variable {session session' : Session} {exchanges : List Exchange} {result : Except Halt Unit}

/-- What an instruction does from a resting session, if no operation on the bus fails: it shifts the
bits that it sends, or a beginning of them if an edge is lost, and leads to a resting session. -/
structure Shifts (instruction : Instruction) (register : Register) (session : Session)
    (exchanges : List Exchange) (result : Except Halt Unit) (session' : Session) : Prop where
  begins : ∀ lines : Lines, shifted register (session.tap.state.pulses (lines.edges exchanges)) <+:
    instruction.sends register session.registers
  complete : ¬ session.tap.EdgeLost result session'.tap →
    ∀ lines : Lines, shifted register (session.tap.state.pulses (lines.edges exchanges)) =
      instruction.sends register session.registers
  rests : result = .ok () → session'.Rests
  registers : result = .ok () → session'.registers = session.registers.after instruction

/-- An instruction that is calm sends nothing. -/
theorem shifts_of_calm {instruction : Instruction} {register : Register}
    (hcalm : Calm session exchanges (reason? result) session') (hrests : session.Rests)
    (hsends : instruction.sends register session.registers = [])
    (hafter : session.registers.after instruction = session.registers) :
    Shifts instruction register session exchanges result session' := by
  have hnil : ∀ lines : Lines,
      shifted register (session.tap.state.pulses (lines.edges exchanges)) = [] :=
    fun lines => shifted_eq_nil register (hcalm.still hrests lines)
  refine ⟨fun lines => ?_, fun _ lines => ?_, fun hresult => ?_, fun _ => ?_⟩
  · exact hsends ▸ hnil lines ▸ List.prefix_rfl
  · rw [hnil, hsends]
  · rw [hresult] at hcalm
    exact hcalm.rests hrests rfl
  · rw [hafter]
    exact hcalm.registers

/-- A change of a header or a trailer sends nothing. -/
theorem shifts_of_update {instruction : Instruction} {register : Register} {name : RegisterName}
    {delta : Pattern}
    (h : Course (do let _ ← update name delta; Pure.pure ()) session exchanges result session')
    (hrests : session.Rests) (hsends : instruction.sends register session.registers = [])
    (hafter : session.registers.after instruction = session.registers.changed name delta) :
    Shifts instruction register session exchanges result session' := by
  rcases setPattern_course h with
    ⟨error, hupdate, rfl, rfl, rfl⟩ | ⟨registers, hupdate, rfl, rfl, rfl⟩
  · refine ⟨fun lines => ?_, fun _ lines => ?_, nofun, nofun⟩
    · exact List.nil_prefix
    · rw [hsends]
      rfl
  · refine ⟨fun lines => ?_, fun _ lines => ?_, fun _ => ⟨hrests.state, hrests.ends⟩, fun _ => ?_⟩
    · exact List.nil_prefix
    · rw [hsends]
      rfl
    · rw [hafter, Registers.changed, hupdate]

theorem isIdle_updateNote (registers : Registers) (name : RegisterName) :
    Lines.IsIdle (updateNote registers name) :=
  trivial

theorem isIdle_comparison (name : RegisterName) (label : Option String) (pattern : Pattern)
    (observed : List UInt8) :
    ∀ exchange ∈ comparison name label pattern observed, Lines.IsIdle exchange := by
  unfold comparison
  split <;> simp [Lines.IsIdle]

/-- The route to a scan shifts nothing, so what is shifted comes after it. -/
theorem shifted_routed {other : Register} {registers : Registers} {routing : List Exchange}
    {driver : TapDriver} (hrests : session.Rests)
    (hroute : (TapDriver.routeTo other.shiftState).Course session.tap routing (.ok ()) driver)
    (register : Register) (rest : List Exchange) (lines : Lines) :
    shifted register (session.tap.state.pulses (lines.edges
        (updateNote registers ⟨.payload, other⟩ :: (routing ++ rest)))) =
      shifted register (other.shiftState.pulses ((lines.watch routing).edges rest)) := by
  have hfollow := TapDriver.state_of_follows
    (TapDriver.routeTo_upholds TapDriver.follows_obeys _) hroute
  have hstill := TapDriver.routeTo_still hroute hrests.state lines
  obtain ⟨word, -, -, hstate⟩ := TapDriver.routeTo_ok hroute
  rw [Lines.edges_cons_of_isIdle lines (isIdle_updateNote _ _),
    TapDriver.pulses_edges_append hfollow, shifted_append, shifted_eq_nil register hstill,
    List.nil_append, hstate]

/-- A scan that is left shifts its bits, and nothing on the way in and out. -/
theorem shifted_scan {other : Register} {registers : Registers}
    {routing shifting leaving : List Exchange} {samples : Samples} {left : Except Halt Unit}
    {driver driver' driver'' : TapDriver} {target : TapState} (hrests : session.Rests)
    (hroute : (TapDriver.routeTo other.shiftState).Course session.tap routing (.ok ()) driver)
    (hshift : (registers.segments other).shift.Course driver shifting (.ok samples) driver')
    (hleave : (TapDriver.leaveFor target).Course driver' leaving left driver'')
    (hbits : (registers.segments other).bits ≠ []) (label : Option String) (register : Register)
    (lines : Lines) :
    shifted register (session.tap.state.pulses (lines.edges (updateNote registers
        ⟨.payload, other⟩ :: (routing ++ (shifting ++ (comparison ⟨.payload, other⟩ label
          (registers.segments other).payload samples.payload ++ leaving)))))) =
      if other = register then (registers.segments other).bits else [] := by
  obtain ⟨word, -, -, hstate⟩ := TapDriver.routeTo_ok hroute
  obtain ⟨hedges, hexit⟩ := TapDriver.shift_ok hshift hstate hbits
  have hfollow := TapDriver.state_of_follows
    (Segments.shift_upholds TapDriver.follows_obeys _) hshift
  have hstill := (TapDriver.leaveFor_still hleave hexit).1
  rw [shifted_routed hrests hroute, ← hstate, TapDriver.pulses_edges_append hfollow,
    Lines.edges_append_of_isIdle _ (isIdle_comparison _ _ _ _), shifted_append,
    shifted_eq_nil register (hstill _), hedges, hstate, TapDriver.shifted_shiftEdges,
    List.append_nil]

/-- The bits of an accepted scan are the digits that it sends. -/
theorem sends_shift {registers : Registers} {register other : Register} {delta : Pattern}
    {label : Option String}
    (hupdate : session.registers.update ⟨.payload, other⟩ delta = .ok registers)
    (hfull : session.registers.IsFull) :
    (Instruction.shift other delta label).sends register session.registers =
      if other = register then (registers.segments other).bits else [] := by
  rw [Registers.bits_segments (Registers.update_isFull hfull hupdate) other]
  simp [Instruction.sends, hupdate]

/-- A scan shifts the binary digits of its three patterns. -/
theorem shifts_of_scan {register other : Register} {delta : Pattern} {label : Option String}
    (h : (scan other delta label).Course session exchanges result session')
    (hrests : session.Rests) (hfull : session.registers.IsFull) (hflawless : Flawless exchanges) :
    Shifts (.shift other delta label) register session exchanges result session' := by
  have hstable : session.tap.state ∈ TapState.stable := by
    have hstate := hrests.state
    revert hstate
    cases session.tap.state <;> decide
  cases scan_course h with
  | refused hupdate =>
    have hsends : (Instruction.shift other delta label).sends register session.registers = [] := by
      simp [Instruction.sends, hupdate]
    refine ⟨fun lines => List.nil_prefix, fun _ lines => ?_, nofun, nofun⟩
    rw [hsends]
    rfl
  | @unrouted registers routing reason driver hupdate hroute =>
    refine ⟨fun lines => ?_, fun hkept => ?_, nofun, nofun⟩
    · have hstill := TapDriver.routeTo_still hroute hrests.state lines
      rw [Lines.edges_cons_of_isIdle lines (isIdle_updateNote _ _), shifted_eq_nil register hstill]
      exact List.nil_prefix
    · -- Without a failure only a lost edge stops a route between stable states.
      have htarget : other.shiftState ∈ TapState.stable := by
        cases other <;> decide
      obtain rfl :=
        TapDriver.routeTo_steady hroute (flawless_cons.mp hflawless).2 hstable htarget
      exact absurd (edgeLost_of_scan h) hkept
  | @unshifted registers routing shifting reason driver driver' hupdate hroute hshift =>
    refine ⟨fun lines => ?_, fun hkept => ?_, nofun, nofun⟩
    · have hbegins := (registers.segments other).shift_emits.begins hshift (lines.watch routing)
      have hprefix := shifted_prefix register (TapState.pulses_prefix hbegins other.shiftState)
      rw [TapDriver.shifted_shiftEdges, ← sends_shift hupdate hfull] at hprefix
      rw [shifted_routed hrests hroute]
      exact hprefix
    · have hflawless' := (flawless_append.mp (flawless_cons.mp hflawless).2).2
      obtain rfl := (registers.segments other).shift_emits.steady hshift hflawless'
      exact absurd (edgeLost_of_scan h) hkept
  | @shifted registers routing shifting leaving samples left driver driver' driver'' hupdate hroute
      hshift hleave =>
    have hbits := Registers.bits_ne_nil_of_update hupdate
    have hshifted := shifted_scan hrests hroute hshift hleave hbits label register
    rw [← sends_shift hupdate hfull] at hshifted
    refine ⟨fun lines => ?_, fun _ => hshifted, fun hresult => ?_, fun _ => ?_⟩
    · exact hshifted lines ▸ List.prefix_rfl
    · cases left with
      | error reason => cases hresult
      | ok u =>
        -- A scan that ends well has been left for the end state of its register.
        obtain ⟨word, -, -, hstate⟩ := TapDriver.routeTo_ok hroute
        have hexit := (TapDriver.shift_ok hshift hstate hbits).2
        have hend := (TapDriver.leaveFor_still hleave hexit).2 rfl
        refine ⟨?_, fun register => ?_⟩
        · rw [tap_judge, hend]
          exact hrests.ends other
        · rw [endState_judge]
          exact hrests.ends register
    · rw [registers_judge]
      show registers = session.registers.changed ⟨.payload, other⟩ delta
      rw [Registers.changed, hupdate]

/-- Every instruction that avoids the shift states shifts what it sends. -/
theorem execute_shifts {instruction : Instruction} {register : Register}
    (h : (execute instruction).Course session exchanges result session')
    (havoids : instruction.AvoidsShift) (hrests : session.Rests)
    (hfull : session.registers.IsFull) (hflawless : Flawless exchanges) :
    Shifts instruction register session exchanges result session' := by
  cases instruction with
  | setEndState other state =>
    exact shifts_of_calm (setEndState_calm other havoids h) hrests rfl rfl
  | setFrequency hz => exact shifts_of_calm (setFrequency_calm hz h) hrests rfl rfl
  | setHeader other delta => exact shifts_of_update h hrests rfl rfl
  | setTrailer other delta => exact shifts_of_update h hrests rfl rfl
  | shift other delta label => exact shifts_of_scan h hrests hfull hflawless
  | runTest test => exact shifts_of_calm (runTest_calm havoids.1 havoids.2 h) hrests rfl rfl
  | goToState target path =>
    cases path with
    | none =>
      have htarget := TapState.not_isShift_of_mem_rest havoids.1
      exact shifts_of_calm (routeTo_calm htarget h) hrests rfl rfl
    | some path =>
      exact shifts_of_calm (walkPath_calm (havoids.2 path rfl) havoids.1 h) hrests rfl rfl
  | unsupported command =>
    exact shifts_of_calm (upholds_fail calm_composes _ h) hrests rfl rfl
  | unknown => exact shifts_of_calm (upholds_fail calm_composes _ h) hrests rfl rfl

/-- After an instruction the driver's state is that of the device. -/
theorem execute_follows {instruction : Instruction}
    (h : (execute instruction).Course session exchanges result session') (lines : Lines) :
    session'.tap.state = session.tap.state.follow (lines.edges exchanges) :=
  (execute_upholds follows_obeys (fun _ _ => ⟨rfl, rfl⟩) instruction h lines).1

theorem isIdle_announcement (index : Nat) (instruction : Instruction) :
    Lines.IsIdle (announcement index instruction) :=
  trivial

/-- Stages shift what their instructions send. If the last of them loses an edge, what it shifts may
be a beginning of that. -/
theorem Unfolds.shifts {program : List Instruction} {stages : List Stage}
    (h : Unfolds program session stages result session') (register : Register)
    (havoids : ∀ instruction ∈ program, instruction.AvoidsShift) (hrests : session.Rests)
    (hfull : session.registers.IsFull) {index : Nat} (hflawless : Flawless (said index stages))
    (lines : Lines) :
    sentBits register session.registers (program.take (stages.length - 1)) <+:
        shifted register (session.tap.state.pulses (lines.edges (said index stages))) ∧
      shifted register (session.tap.state.pulses (lines.edges (said index stages))) <+:
        sentBits register session.registers (program.take stages.length) ∧
      ((∀ stage ∈ stages, ¬ stage.EdgeLost) →
        shifted register (session.tap.state.pulses (lines.edges (said index stages))) =
          sentBits register session.registers (program.take stages.length)) := by
  -- Before every instruction the session rests and the stored patterns are full. That carries the
  -- induction, together with the levels that the instructions before have left on the lines.
  induction h generalizing index lines with
  | done session => exact ⟨List.prefix_rfl, List.prefix_rfl, fun _ => rfl⟩
  | @stops instruction program session exchanges reason session' hstage =>
    have hshifts : Shifts instruction register session exchanges (.error reason) session' :=
      execute_shifts hstage (havoids instruction (by simp)) hrests hfull (by simp_all [said])
    have hsaid : lines.edges (said index [⟨instruction, session, exchanges, .error reason,
        session'⟩]) = lines.edges exchanges := by
      rw [said, said, List.append_nil]
      exact Lines.edges_cons_of_isIdle lines (isIdle_announcement index instruction) _
    rw [hsaid]
    simp only [List.length_singleton, Nat.sub_self, List.take_zero, List.take_succ_cons, sentBits,
      List.append_nil]
    exact ⟨List.nil_prefix, hshifts.begins lines,
      fun hkept => hshifts.complete (hkept _ (List.mem_singleton_self _)) lines⟩
  | @goesOn instruction program session exchanges middle stages result session' hstage hrest ih =>
    have hflawless' : Flawless exchanges ∧ Flawless (said (index + 1) stages) := by
      simp_all [said]
    have hshifts : Shifts instruction register session exchanges (.ok ()) middle :=
      execute_shifts hstage (havoids instruction (by simp)) hrests hfull hflawless'.1
    have hregisters := hshifts.registers rfl
    have hfull' : middle.registers.IsFull := by
      rw [hregisters]
      exact Registers.after_isFull hfull instruction
    obtain ⟨hleast, hmost, hcomplete⟩ := ih (fun other hother => havoids other (by simp [hother]))
      (hshifts.rests rfl) hfull' hflawless'.2 (lines.watch exchanges)
    have hsplit : shifted register (session.tap.state.pulses (lines.edges (said index
        (⟨instruction, session, exchanges, .ok (), middle⟩ :: stages)))) =
          instruction.sends register session.registers ++
            shifted register (middle.tap.state.pulses
              ((lines.watch exchanges).edges (said (index + 1) stages))) := by
      rw [said, Lines.edges_cons_of_isIdle lines (isIdle_announcement index instruction),
        TapDriver.pulses_edges_append (execute_follows hstage), shifted_append,
        hshifts.complete (fun hlost => by cases hlost.stopped) lines]
    rw [hregisters] at hleast hmost hcomplete
    rw [hsplit]
    refine ⟨?_, ?_, fun hkept => ?_⟩
    · cases stages with
      | nil => exact List.nil_prefix
      | cons stage stages => exact (List.prefix_append_right_inj _).mpr hleast
    · exact (List.prefix_append_right_inj _).mpr hmost
    · rw [hcomplete (List.forall_mem_cons.mp hkept).2]
      rfl

/-- After a reset that ended well the session rests in the reset state, and all that the device has
seen are the five clocks. -/
theorem reset_ok {config : PlayerConfig}
    (h : (onTap TapDriver.reset).Course (.initial config) exchanges (.ok ()) session) :
    session.Rests ∧ session.registers = {} ∧ session.tap.state = .reset ∧
      ∀ lines : Lines, lines.edges exchanges = List.replicate 5 (Edge.quiet true) := by
  obtain ⟨driver, hdriver, rfl⟩ := onTap_course.mp h
  have hedges : ∀ lines : Lines, lines.edges exchanges = List.replicate 5 (Edge.quiet true) :=
    fun lines => TapDriver.reset_emits.complete hdriver lines
  have hstate : driver.state = .reset := by
    rw [TapDriver.state_of_follows (TapDriver.reset_upholds TapDriver.follows_obeys) hdriver {},
      hedges, TapState.follow_replicate_high]
  refine ⟨rests_with_tap (Session.rests_initial config) ?_, rfl, hstate, hedges⟩
  rw [hstate]
  decide

/-- The pulses of a device after its first five clocks, if these had TMS high. -/
theorem drop_pulses {device : Device} {exchanges : List Exchange} {edges : List Edge}
    (h : device.lines.edges exchanges = List.replicate 5 (Edge.quiet true) ++ edges) :
    (device.pulses exchanges).drop 5 = TapState.reset.pulses edges := by
  rw [Device.pulses, h, TapState.pulses_append, TapState.follow_replicate_high]
  rfl

theorem RunCourse.shifts {config : PlayerConfig} {program : List Instruction}
    {performance : Performance} {outcome : RunOutcome}
    (h : RunCourse config program performance exchanges outcome) (register : Register)
    (havoids : ∀ instruction ∈ program, instruction.AvoidsShift) (hflawless : Flawless exchanges)
    (device : Device) :
    (shifted register ((device.pulses exchanges).drop 5) =
        sentBits register {} (program.take performance.stages.length) ∨
      outcome = .abandoned ∧ ∃ stage ∈ performance.stages, stage.EdgeLost) ∧
      sentBits register {} (program.take (performance.stages.length - 1)) <+:
        shifted register ((device.pulses exchanges).drop 5) ∧
      shifted register ((device.pulses exchanges).drop 5) <+:
        sentBits register {} (program.take performance.stages.length) := by
  cases h with
  | unstarted start instant error => exact ⟨.inl rfl, List.prefix_rfl, List.prefix_rfl⟩
  | @unready start resetting reason session closing outcome hreset hfinish =>
    obtain ⟨driver, hdriver, -⟩ := onTap_course.mp hreset
    have hnil : (device.pulses (opening program start (.ok ()) ++ (resetting ++ closing))).drop 5 =
        [] := by
      rw [Device.pulses, edges_run hfinish.isIdle, List.drop_eq_nil_iff, TapState.length_pulses]
      exact (TapDriver.reset_emits.begins hdriver device.lines).length_le
    rw [hnil]
    exact ⟨.inl rfl, List.prefix_rfl, List.prefix_rfl⟩
  | @ready start resetting session stages result session' closing outcome hreset hstages hfinish =>
    obtain ⟨hrests, hregisters, hstate, hedges⟩ := reset_ok hreset
    have hflawless' : Flawless (said 0 stages) := by
      simp_all
    have hfull : session.registers.IsFull := by
      rw [hregisters]
      exact Registers.isFull_default
    have hsplit : device.lines.edges
        (opening program start (.ok ()) ++ (resetting ++ (said 0 stages ++ closing))) =
          List.replicate 5 (Edge.quiet true) ++
            (device.lines.watch resetting).edges (said 0 stages) := by
      rw [← List.append_assoc resetting, edges_run hfinish.isIdle, Lines.edges_append, hedges]
    obtain ⟨hleast, hmost, hcomplete⟩ := hstages.shifts register havoids hrests hfull hflawless'
      (device.lines.watch resetting)
    rw [drop_pulses hsplit]
    rw [hstate, hregisters] at hleast hmost hcomplete
    refine ⟨?_, hleast, hmost⟩
    by_cases hlost : ∃ stage ∈ stages, stage.EdgeLost
    · obtain ⟨stage, hmem, hedge⟩ := hlost
      have hresult := hstages.stopped hmem hedge.stopped
      exact .inr ⟨hfinish.releases_eq.2.2.mpr hresult, stage, hmem, hedge⟩
    · exact .inl (hcomplete fun stage hmem hedge => hlost ⟨stage, hmem, hedge⟩)

/-- If no operation on the bus fails, a program that avoids the shift states shifts exactly the bits
of its scans into each register, after the five clocks that reset the device. Only a run that is
abandoned because a stage has lost an edge may shift less: all bits of the scans before its last
stage, and maybe some of that stage. -/
theorem shifted_eq_sentBits {β τ : Type} [Bus β] [Clock τ] (bench : Bench β τ) (device : Device)
    (config : PlayerConfig) (program : List Instruction) (register : Register)
    (havoids : ∀ instruction ∈ program, instruction.AvoidsShift)
    (hflawless : Flawless ((run config program).transcript bench)) :
    let stages := (performance config program bench).stages
    let bits := shifted register ((device.pulses ((run config program).transcript bench)).drop 5)
    (bits = sentBits register {} (program.take stages.length) ∨
      ((run config program).play bench).1 = .abandoned ∧ ∃ stage ∈ stages, stage.EdgeLost) ∧
      sentBits register {} (program.take (stages.length - 1)) <+: bits ∧
      bits <+: sentBits register {} (program.take stages.length) :=
  (run_course config program bench).shifts register havoids hflawless device

/-- Two scans of the data register, of which the second keeps the bits of the first, with a pause,
an idle period and a scan of the instruction register between them. -/
theorem shifted_eq_sentBits_two_scans :
    let bench : Bench SimulatedBus IdealClock := { bus := { answers := .invert }, clock := {} }
    let program : List Instruction := [
      .setHeader .data { length := 3, tdi := some [6] },
      .shift .data { length := 10, tdi := some [2, 0xA5], tdo := some [0, 0] } none,
      .goToState .drPause (some [.drSelect, .drCapture, .drExit1]),
      .runTest { runState := some .irPause, runCount := 4 },
      .shift .instruction { length := 2, tdi := some [1] } none,
      .shift .data { length := 10 } none]
    let config : PlayerConfig := { continueOnFault := true }
    (∀ instruction ∈ program, instruction.AvoidsShift) ∧
      Flawless ((run config program).transcript bench) ∧
      shifted .data ((({} : Device).pulses ((run config program).transcript bench)).drop 5) =
        sentBits .data {} program ∧
      (sentBits .data {} program).length = 26 := by
  intro bench program config
  have havoids : ∀ instruction ∈ program, instruction.AvoidsShift := by
    simp [program, Instruction.AvoidsShift, TapState.isShift_iff, TapState.rest]
  have hflawless : Flawless ((run config program).transcript bench) := by decide +kernel
  have hstages : program.take (performance config program bench).stages.length = program := by
    decide +kernel
  have hends : ((run config program).play bench).1 ≠ .abandoned := by decide +kernel
  rcases (shifted_eq_sentBits bench {} config program .data havoids hflawless).1 with
    hshifted | ⟨habandoned, -⟩
  · rw [hstages] at hshifted
    exact ⟨havoids, hflawless, hshifted, by decide +kernel⟩
  · exact absurd habandoned hends

end Player

end JtagPlayer
