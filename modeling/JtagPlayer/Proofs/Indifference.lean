import JtagPlayer.Proofs.Meaning
import JtagPlayer.Proofs.Policies
import Mathlib.Data.List.Forall2

/-!
# Bits without meaning have no effect

Two programs that differ in bits without meaning only are carried out in lockstep. What they store
may differ for good, since a merge keeps such bits and later scans use them, but it keeps the same
meaning, `Session.SameMeaning`. That is enough for scans to send the same bits and to accept the
same answers, so the faults have the same labels and data, though not the same patterns.

`Player.meaningless_bits_ignored` says so of whole runs, on any bus and under either policy.
-/

namespace JtagPlayer

open JtagPlayer.Action

variable {β τ : Type} [Bus β] [Clock τ] {terms : Terms}

/-- Two sessions that agree in all but the times of their clocks and the bits without meaning, in
the stored patterns as well as in the patterns of the faults. -/
structure Session.SameMeaning (terms : Terms) (session session' : Session) : Prop where
  tap : session.tap.Alike terms session'.tap
  registers : session.registers.SameMeaning session'.registers
  endData : session.endData = session'.endData
  endInstruction : session.endInstruction = session'.endInstruction
  policy : session.continueOnFault = session'.continueOnFault
  records : session.report.faults.map Fault.record = session'.report.faults.map Fault.record

/-- What a run comes to, apart from the time it takes and the patterns of its faults. -/
structure RunSummary where
  error? : Option PlayError
  finalState : TapState
  clockPulses : Nat
  /-- The labels and the data of the faults, in order. -/
  records : List (String × String)
  deriving DecidableEq

/-- The summary of a report on a run that was stopped by an error, if there was one. -/
def RunReport.summary (report : RunReport) (error? : Option PlayError) : RunSummary where
  error? := error?
  finalState := report.finalState
  clockPulses := report.clockPulses
  records := report.faults.faults.map Fault.record

/-- A run that is abandoned comes to nothing. -/
def RunOutcome.summary? (outcome : RunOutcome) : Option RunSummary :=
  outcome.report?.map fun report => report.summary outcome.error?

namespace Player

theorem initial_sameMeaning (config : PlayerConfig) :
    Session.SameMeaning terms (.initial config) (.initial config) where
  tap := ⟨rfl, rfl, rfl, rfl, fun _ => rfl⟩
  registers := Registers.sameMeaning_default
  endData := rfl
  endInstruction := rfl
  policy := rfl
  records := rfl

theorem sameMeaning_drivesAlike : DrivesAlike terms (Session.SameMeaning terms) where
  tap h := h.tap
  endState h register := by
    cases register
    · exact h.endData
    · exact h.endInstruction
  setTap h htap := { h with tap := htap }
  setEndData h _ := { h with endData := rfl }
  setEndInstruction h _ := { h with endInstruction := rfl }

/-- Sessions of one meaning have the same summary, however long they took. -/
theorem summary_ofSession {session session' : Session} (h : session.SameMeaning terms session')
    (error? : Option PlayError) (elapsed elapsed' : Nat) :
    (RunReport.ofSession session elapsed).summary error? =
      (RunReport.ofSession session' elapsed').summary error? := by
  simp only [RunReport.summary, RunReport.ofSession, h.tap.state, h.tap.pulses, h.records]

theorem sameMeaning_reportsAlike :
    ReportsAlike terms (Session.SameMeaning terms)
      (fun outcome outcome' => outcome.summary? = outcome'.summary?) where
  abandoned := rfl
  completed h _ := congrArg some (summary_ofSession h none _ _)
  stopped error _ _ _ _ h _ := congrArg some (summary_ofSession h (some error) _ _)
  unstarted _ _ _ _ := rfl

/-- Equivalent changes are both refused, or both stored. -/
theorem update_indifferent (name : RegisterName) {delta delta' : Pattern}
    (hdelta : delta.Equivalent delta') :
    Paired terms (Session.SameMeaning terms) (fun _ _ => True) (update name delta)
      (update name delta') := by
  refine paired_get_bind fun session session' h => ?_
  rw [Session.update, Session.update]
  rcases h.registers.update hdelta name with
    ⟨error, hupdate, hupdate'⟩ | ⟨updated, updated', hupdate, hupdate', hupdated⟩
  · rw [hupdate, hupdate']
    exact paired_fail _ h
  · rw [hupdate, hupdate']
    have hstored : Session.SameMeaning terms { session with registers := updated }
        { session' with registers := updated' } := { h with registers := hupdated }
    exact paired_bind (paired_note _ _) (fun _ _ _ => paired_pure trivial) hstored

/-- The same levels come back, and they are accepted by both patterns or by none. -/
theorem shift_indifferent (hlevels : terms.sameLevels = true) {segments segments' : Segments}
    (h : ∀ role, (segments.get role).SameMeaning (segments'.get role)) :
    Paired terms (TapDriver.Alike terms)
      (fun samples samples' => samples.payload = samples'.payload ∧
        segments.payload.accepts samples.payload = segments'.payload.accepts samples'.payload)
      segments.shift segments'.shift := by
  rw [← Segments.shift_congr h]
  refine paired_imp_course (Segments.shift_paired segments) fun hcourse hsamples => ?_
  obtain rfl := hsamples hlevels
  obtain ⟨received, hpayload, hlength⟩ := Segments.shift_payload hcourse
  refine ⟨rfl, ?_⟩
  rw [hpayload]
  exact (h .payload).accepts_eq hlength

/-- The faults that are recorded may show different patterns. -/
theorem compare_indifferent (name : RegisterName) (label : Option String)
    {pattern pattern' : Pattern} {observed : List UInt8}
    (haccepts : pattern.accepts observed = pattern'.accepts observed) :
    Paired terms (Session.SameMeaning terms) Eq (compare name label pattern observed)
      (compare name label pattern' observed) := by
  unfold compare
  rw [haccepts]
  split
  · exact paired_pure rfl
  · refine paired_bind (paired_note _ _) fun _ _ _ => ?_
    refine paired_bind (paired_modify fun session session' h => ?_) fun _ _ _ => paired_pure rfl
    have hrecords : (session.report.faults ++ [Fault.ofScan label pattern observed]).map
          Fault.record =
        (session'.report.faults ++ [Fault.ofScan label pattern' observed]).map Fault.record := by
      rw [List.map_append, List.map_append, h.records]
      rfl
    exact { h with records := hrecords }

/-- Both policies are the same, and so are the conclusions. -/
theorem conclude_indifferent (passed : Bool) (label : Option String) :
    Paired terms (Session.SameMeaning terms) (fun _ _ => True) (conclude passed label)
      (conclude passed label) := by
  refine paired_get_bind fun session session' h => ?_
  rw [h.policy]
  split
  · exact paired_pure trivial h
  · exact paired_fail _ h

/-- Scans with equivalent changes clock the device alike and are concluded alike. -/
theorem scan_indifferent (hlevels : terms.sameLevels = true) (register : Register)
    (label : Option String) {delta delta' : Pattern} (hdelta : delta.Equivalent delta') :
    Paired terms (Session.SameMeaning terms) (fun _ _ => True) (scan register delta label)
      (scan register delta' label) := by
  have hdrives : DrivesAlike terms (Session.SameMeaning terms) := sameMeaning_drivesAlike
  refine paired_bind (update_indifferent _ hdelta) fun _ _ _ => ?_
  refine paired_bind (routeTo_paired hdrives _) fun _ _ _ => ?_
  refine paired_get_bind fun session session' h => ?_
  have hsegments : ∀ role, ((session.registers.segments register).get role).SameMeaning
      ((session'.registers.segments register).get role) := fun role => h.registers ⟨role, register⟩
  refine paired_bind (onTap_paired hdrives (shift_indifferent hlevels hsegments))
    (fun samples samples' ⟨hpayload, haccepts⟩ => ?_) h
  rw [← hpayload] at haccepts ⊢
  refine paired_bind (compare_indifferent _ label haccepts) fun passed passed' hpassed => ?_
  obtain rfl := hpassed
  exact paired_bind (leaveScan_paired hdrives register) fun _ _ _ => conclude_indifferent _ label

/-- Instructions that differ in bits without meaning are carried out in lockstep. -/
theorem execute_indifferent (hlevels : terms.sameLevels = true)
    {instruction instruction' : Instruction} (h : instruction.Equivalent instruction')
    (hlimit : terms.sameClock = true ∨ instruction.IsUnlimited) :
    Paired terms (Session.SameMeaning terms) (fun _ _ => True) (execute instruction)
      (execute instruction') := by
  have hstore : ∀ (name : RegisterName) {delta delta' : Pattern}, delta.Equivalent delta' →
      Paired terms (Session.SameMeaning terms) (fun _ _ => True)
        (update name delta >>= fun _ => Pure.pure ())
        (update name delta' >>= fun _ => Pure.pure ()) := fun name _ _ hdelta =>
    paired_bind (update_indifferent name hdelta) fun _ _ _ => paired_pure trivial
  cases h with
  | setHeader register hdelta => exact hstore _ hdelta
  | setTrailer register hdelta => exact hstore _ hdelta
  | shift register label hdelta => exact scan_indifferent hlevels register label hdelta
  | same instruction =>
    -- The stored patterns may differ already, so the same change may still meet different ones.
    cases instruction with
    | setHeader register delta => exact hstore _ (.refl delta)
    | setTrailer register delta => exact hstore _ (.refl delta)
    | shift register delta label => exact scan_indifferent hlevels register label (.refl delta)
    | _ => exact execute_paired_of_plain sameMeaning_drivesAlike rfl hlimit

/-- Programs of equivalent instructions stay in lockstep, instruction by instruction. -/
theorem executeFrom_indifferent (hlevels : terms.sameLevels = true)
    {program program' : List Instruction}
    (h : List.Forall₂ Instruction.Equivalent program program')
    (hlimit : terms.sameClock = true ∨ ∀ instruction ∈ program, instruction.IsUnlimited)
    (index : Nat) :
    Paired terms (Session.SameMeaning terms) (fun _ _ => True) (executeFrom index program)
      (executeFrom index program') := by
  induction h generalizing index with
  | nil => exact paired_pure trivial
  | cons hinstruction h ih =>
    obtain ⟨hfirst, hrest⟩ := unlimited_cons.mp hlimit
    refine paired_bind (paired_note _ _) fun _ _ _ => ?_
    exact paired_bind (execute_indifferent hlevels hinstruction hfirst) fun _ _ _ =>
      ih hrest (index + 1)

/-- So do whole runs of them, with the same summary in the end. -/
theorem run_indifferent (hlevels : terms.sameLevels = true) (config : PlayerConfig)
    {program program' : List Instruction}
    (h : List.Forall₂ Instruction.Equivalent program program')
    (hlimit : terms.sameClock = true ∨ ∀ instruction ∈ program, instruction.IsUnlimited) :
    Lockstep terms (fun outcome outcome' => outcome.summary? = outcome'.summary?)
      (RunOutcome.Overflows terms) (run config program) (run config program') :=
  run_lockstep_of sameMeaning_reportsAlike (initial_sameMeaning config) <|
    paired_bind (onTap_paired sameMeaning_drivesAlike TapDriver.reset_paired) fun _ _ _ =>
      executeFrom_indifferent hlevels h hlimit 0

/-- Two programs that differ in bits without meaning only, on one bus and under one policy, make the
same calls and are given the same answers. Their runs end in the same way, in the same state, after
the same number of clocks, and with faults that have the same labels and data, in the same order. -/
theorem meaningless_bits_ignored (config : PlayerConfig) {program program' : List Instruction}
    (hprograms : List.Forall₂ Instruction.Equivalent program program') (bench : Bench β τ)
    (clock : τ)
    (hcomparable : Comparable program bench.clock clock ((run config program).play bench).1
      ((run config program').play { bench with clock }).1) :
    onBus ((run config program').transcript { bench with clock }) =
        onBus ((run config program).transcript bench) ∧
      ((run config program').play { bench with clock }).1.summary? =
        ((run config program).play bench).1.summary? := by
  obtain ⟨terms, hlevels, hsame, hlimit, hkept, hkept'⟩ := hcomparable.exists_terms true
  have htwin : bench.Twin terms { bench with clock } := ⟨rfl, fun h => (hsame.mp h).symm⟩
  have hplay := (run_indifferent hlevels config hprograms hlimit).play_twins hlevels htwin
  obtain ⟨hsummary, hcalls, -⟩ := hplay.resolve_right (not_or.mpr ⟨hkept, hkept'⟩)
  exact ⟨hcalls.symm, hsummary.symm⟩

/-- The unused bits of partial bytes are set, a zero byte of the mask is left out, and so is the
mask of the bits sent. The second scan sends and compares what the first has left. -/
theorem meaningless_bits_ignored_inverting_bus :
    let bench : Bench SimulatedBus IdealClock := { bus := { answers := .invert }, clock := {} }
    let config : PlayerConfig := { continueOnFault := true }
    let delta : Pattern := {
      length := 12
      tdi := some [0x02, 0x34]
      tdo := some [0x02, 0x34]
      mask := some [0x00, 0xFF]
      smask := some [0x01] }
    let delta' : Pattern := {
      length := 12
      tdi := some [0xA2, 0x34]
      tdo := some [0xF2, 0x34]
      mask := some [0xFF] }
    let again := Instruction.shift .data { length := 12, tdo := some [0x01] } none
    let program := [Instruction.setHeader .data { length := 3, tdi := some [0x05] },
      .shift .data delta (some "first"), again]
    let program' := [Instruction.setHeader .data { length := 3, tdi := some [0xFD] },
      .shift .data delta' (some "first"), again]
    onBus ((run config program').transcript bench) = onBus ((run config program).transcript bench) ∧
      ((run config program').play bench).1.summary? = some {
        error? := none
        finalState := .idle
        clockPulses := 50
        records := [("first", "0DCB"), ("unlabeled", "0DCB")] } := by
  intro bench config delta delta' again program program'
  have hheader : Pattern.Equivalent { length := 3, tdi := some [0x05] }
      { length := 3, tdi := some [0xFD] } := {
    length := rfl
    field := by
      intro name hname
      cases name with
      | tdi => exact .inr (.some (by decide))
      | tdo | mask | smask => exact .inl rfl
    smask := .inl rfl }
  have hdelta : delta.Equivalent delta' := {
    length := rfl
    field := by
      intro name hname
      cases name with
      | tdi | tdo | mask => exact .inr (.some (by decide))
      | smask => exact absurd rfl hname
    smask := .inr (by
      rintro bytes (⟨⟨⟩⟩ | ⟨⟨⟩⟩)
      decide) }
  have hprograms : List.Forall₂ Instruction.Equivalent program program' :=
    .cons (.setHeader .data hheader) (.cons (.shift .data (some "first") hdelta)
      (.cons (.same again) .nil))
  obtain ⟨hcalls, hsummary⟩ :=
    meaningless_bits_ignored config hprograms bench bench.clock (.inl rfl)
  exact ⟨hcalls, hsummary.trans (by decide +kernel)⟩

end Player

end JtagPlayer
