import JtagPlayer.Proofs.Comparing
import JtagPlayer.Proofs.Sampling
import JtagPlayer.Proofs.Shifting

/-!
# The faults of a run

A `Scan` is what a scan has brought to light: the patterns that were sent, and a sample for each
clock that found the device in the shift state. It mismatches if some selected bit of the payload
came back other than expected. `Player.records_eq` says that the faults of a run are those of its
mismatching scans, in order and one for each, with the numbers that came back as their data, and
that a run which stops at faults stops at the first of them.
-/

namespace JtagPlayer

open JtagPlayer.Action

/-- What a scan has brought to light. -/
structure Scan where
  label : Option String
  /-- The stored patterns after the change. -/
  segments : Segments
  /-- The pulses that found the device in the shift state, each with the level sampled after it. -/
  samples : List (Pulse × Bool)

namespace Scan

/-- The bits that were sent. -/
def sent (scan : Scan) : List Bool :=
  scan.samples.map fun sample => sample.1.edge.tdi

/-- The levels that came back. -/
def received (scan : Scan) : List Bool :=
  scan.samples.map Prod.snd

/-- The level that came back when a bit of the payload was sent. -/
def answer? (scan : Scan) (index : Nat) : Option Bool :=
  scan.received[scan.segments.header.length.toNat + index]?

/-- A bit of the payload that the mask selects came back other than expected. -/
def Mismatches (scan : Scan) : Prop :=
  ∃ tdo ∈ scan.segments.payload.tdo, ∃ index, index < scan.segments.payload.length.toNat ∧
    scan.segments.payload.selects index = true ∧
      ∃ level ∈ scan.answer? index, level ≠ (numberOfBytes tdo).testBit index

instance (scan : Scan) : Decidable scan.Mismatches :=
  inferInstanceAs (Decidable (∃ tdo ∈ scan.segments.payload.tdo,
    ∃ index, index < scan.segments.payload.length.toNat ∧
      scan.segments.payload.selects index = true ∧
        ∃ level ∈ scan.answer? index, level ≠ (numberOfBytes tdo).testBit index))

/-- The levels that came back for the payload. -/
def answers (scan : Scan) : List Bool :=
  (scan.received.drop scan.segments.header.length.toNat).take scan.segments.payload.length.toNat

/-- The label and the data of the fault that a mismatching scan is recorded as. -/
def record? (scan : Scan) : Option (String × String) :=
  if scan.Mismatches then
    some (scan.label.getD Fault.unlabeled,
      Hex.ofNumber (2 * ((scan.segments.payload.length.toNat + 7) / 8)) (numberOfBits scan.answers))
  else none

end Scan

namespace Scan

variable {scan : Scan} {header payload trailer : List Bool}

/-- Without samples there is nothing to mismatch. -/
theorem not_mismatches_of_samples_eq_nil (h : scan.samples = []) : ¬ scan.Mismatches := by
  rintro ⟨tdo, -, index, -, -, level, hlevel, -⟩
  rw [answer?, received, h] at hlevel
  cases hlevel

/-- The levels that came back for the payload stand behind those for the header. -/
theorem answer?_eq (hreceived : scan.received = header ++ (payload ++ trailer))
    (hheader : header.length = scan.segments.header.length.toNat)
    (hpayload : payload.length = scan.segments.payload.length.toNat) {index : Nat}
    (hindex : index < scan.segments.payload.length.toNat) :
    scan.answer? index = some (payload.getD index false) := by
  have hlt : index < payload.length := by
    rw [hpayload]
    exact hindex
  rw [answer?, hreceived, ← hheader, List.getElem?_append_right (Nat.le_add_right _ _),
    Nat.add_sub_cancel_left, List.getElem?_append_left hlt, List.getD_eq_getElem?_getD,
    List.getElem?_eq_getElem hlt, Option.getD_some]

theorem answers_eq (hreceived : scan.received = header ++ (payload ++ trailer))
    (hheader : header.length = scan.segments.header.length.toNat)
    (hpayload : payload.length = scan.segments.payload.length.toNat) :
    scan.answers = payload := by
  rw [answers, hreceived, ← hheader, List.drop_left, ← hpayload, List.take_left]

/-- A scan mismatches if the comparison of its bytes does not accept them. -/
theorem mismatches_iff (hreceived : scan.received = header ++ (payload ++ trailer))
    (hheader : header.length = scan.segments.header.length.toNat)
    (hpayload : payload.length = scan.segments.payload.length.toNat)
    (hfull : scan.segments.payload.IsFull) :
    scan.Mismatches ↔ ¬ scan.segments.payload.accepts (Pattern.bytesOf payload) = true := by
  rw [Pattern.accepts_iff hfull hpayload]
  constructor
  · rintro ⟨tdo, htdo, index, hindex, hselects, level, hlevel, hne⟩ haccepts
    rw [answer?_eq hreceived hheader hpayload hindex] at hlevel
    cases hlevel
    exact hne (haccepts tdo htdo index hindex hselects).symm
  · intro hrefused
    simp only [Classical.not_forall] at hrefused
    obtain ⟨tdo, htdo, index, hindex, hselects, hne⟩ := hrefused
    refine ⟨tdo, htdo, index, hindex, hselects, _, answer?_eq hreceived hheader hpayload hindex, ?_⟩
    exact fun heq => hne heq.symm

end Scan

/-- The label and the data of a fault. -/
def Fault.record (fault : Fault) : String × String :=
  (fault.label, fault.data)

/-- A mismatching scan is recorded as the fault that the comparison makes. -/
theorem Scan.record?_eq {scan : Scan} {header payload trailer : List Bool}
    (hreceived : scan.received = header ++ (payload ++ trailer))
    (hheader : header.length = scan.segments.header.length.toNat)
    (hpayload : payload.length = scan.segments.payload.length.toNat)
    (hfull : scan.segments.payload.IsFull) :
    scan.record? =
      if scan.segments.payload.accepts (Pattern.bytesOf payload) then none
      else some (Fault.ofScan scan.label scan.segments.payload
        (Pattern.bytesOf payload)).record := by
  have hdata : Hex.encode (Pattern.bytesOf payload) =
      Hex.ofNumber (2 * ((scan.segments.payload.length.toNat + 7) / 8))
        (numberOfBits scan.answers) := by
    rw [Hex.encode_eq_ofNumber, Pattern.length_bytesOf, Pattern.numberOfBytes_bytesOf, hpayload,
      answers_eq hreceived hheader hpayload]
  have hmismatches := mismatches_iff hreceived hheader hpayload hfull
  unfold record?
  by_cases haccepts : scan.segments.payload.accepts (Pattern.bytesOf payload) = true
  · rw [if_pos haccepts, if_neg fun h => hmismatches.mp h haccepts]
  · rw [if_neg haccepts, if_pos (hmismatches.mpr haccepts), ← hdata]
    rfl

/-- The scan of a register that was sent to its end, with the levels sampled meanwhile. -/
def Scan.complete (register : Register) (label : Option String) (segments : Segments)
    (levels : List Bool) : Scan where
  label := label
  segments := segments
  samples :=
    ((TapDriver.shiftEdges true segments.bits).map (Pulse.mk register.shiftState)).zip levels

theorem Scan.received_complete {register : Register} {label : Option String} {segments : Segments}
    {levels : List Bool} (h : levels.length = segments.bits.length) :
    (complete register label segments levels).received = levels := by
  have hle : levels.length ≤ ((TapDriver.shiftEdges true segments.bits).map
      (Pulse.mk register.shiftState)).length := by
    simp [h]
  rw [received, complete, List.map_snd_zip hle]

theorem Scan.sent_complete {register : Register} {label : Option String} {segments : Segments}
    {levels : List Bool} (h : levels.length = segments.bits.length) :
    (complete register label segments levels).sent = segments.bits := by
  have hsplit : (fun sample : Pulse × Bool => sample.1.edge.tdi) =
      (fun pulse : Pulse => pulse.edge.tdi) ∘ Prod.fst := rfl
  have hle : ((TapDriver.shiftEdges true segments.bits).map
      (Pulse.mk register.shiftState)).length ≤ levels.length := by
    simp [h]
  rw [sent, complete, hsplit, ← List.map_map, List.map_fst_zip hle, List.map_map]
  exact TapDriver.map_tdi_shiftEdges true segments.bits

/-- The samples of the pulses that found the device in the shift state of a register. -/
def sampled (register : Register) (samples : List (Pulse × Bool)) : List (Pulse × Bool) :=
  samples.filter fun sample => sample.1.state = register.shiftState

namespace Player

/-- The scan of a stage, if its instruction is one and the change to the payload is accepted. The
device is the one that the stage finds. -/
def Stage.scan? (device : Device) (stage : Stage) : Option Scan :=
  match stage.instruction with
  | .shift register delta label =>
    match stage.before.registers.update ⟨.payload, register⟩ delta with
    | .ok registers => some {
        label
        segments := registers.segments register
        samples := sampled register (device.samples stage.exchanges) }
    | .error _ => none
  | _ => none

/-- The scans of some stages, the first of which finds the device as given. -/
def scans : Device → List Stage → List Scan
  | _, [] => []
  | device, stage :: stages =>
    (stage.scan? device).toList ++ scans (device.watch stage.exchanges) stages

end Player

theorem Device.samples_append {first : List Exchange} {device : Device}
    (h : (levels first).length = (device.lines.edges first).length) (second : List Exchange) :
    device.samples (first ++ second) =
      device.samples first ++ (device.watch first).samples second := by
  have hlength : (device.state.pulses (device.lines.edges first)).length =
      (levels first).length := by
    rw [TapState.length_pulses, h]
  unfold samples pulses
  rw [Lines.edges_append, TapState.pulses_append, levels_append, List.zip_append hlength, watch_eq]

/-- Pulses in other states are no samples of a register. -/
theorem sampled_eq_nil {register : Register} {device : Device} {exchanges : List Exchange}
    (h : ∀ pulse ∈ device.pulses exchanges, pulse.state ≠ register.shiftState) :
    sampled register (device.samples exchanges) = [] := by
  rw [sampled, List.filter_eq_nil_iff]
  intro sample hsample hstate
  exact h sample.1 (List.of_mem_zip hsample).1 (of_decide_eq_true hstate)

theorem sampled_append (register : Register) (first second : List (Pulse × Bool)) :
    sampled register (first ++ second) = sampled register first ++ sampled register second :=
  List.filter_append ..

namespace TapDriver

variable {device : Device} {driver driver' : TapDriver} {exchanges : List Exchange}

/-- A device whose state the driver knew is where the driver is. -/
theorem state_watch {α : Type} {action : Action TapDriver α} {result : Except Halt α}
    (haction : action.Upholds follows) (h : action.Course driver exchanges result driver')
    (hdevice : device.state = driver.state) : (device.watch exchanges).state = driver'.state := by
  rw [Device.watch_eq, state_of_follows haction h device.lines, hdevice]

/-- The samples of a route come before its target is reached. -/
theorem sampled_routeTo {register : Register}
    (h : (routeTo register.shiftState).Course driver exchanges (.ok ()) driver')
    (hdevice : device.state = driver.state) :
    sampled register (device.samples exchanges) = [] := by
  obtain ⟨word, hroute, hedges, -⟩ := routeTo_ok h
  refine sampled_eq_nil fun pulse hpulse => ?_
  rw [Device.pulses, hedges, hdevice] at hpulse
  exact TapState.route_before_target hroute pulse hpulse

/-- All samples of a scan are samples of the register. -/
theorem sampled_shift {register : Register} {bits : List Bool}
    (hedges : ∀ lines : Lines, lines.edges exchanges = shiftEdges true bits)
    (hdevice : device.state = register.shiftState) :
    sampled register (device.samples exchanges) =
      ((shiftEdges true bits).map (Pulse.mk register.shiftState)).zip (levels exchanges) := by
  have hsamples : device.samples exchanges =
      ((shiftEdges true bits).map (Pulse.mk register.shiftState)).zip (levels exchanges) := by
    rw [Device.samples, Device.pulses, hedges, hdevice, pulses_shiftEdges]
  rw [sampled, hsamples, List.filter_eq_self]
  intro sample hsample
  obtain ⟨edge, -, hedge⟩ := List.mem_map.mp (List.of_mem_zip hsample).1
  rw [← hedge]
  exact decide_eq_true rfl

/-- Leaving a scan takes no sample of a register. -/
theorem sampled_leaveFor {register : Register} {target : TapState} {result : Except Halt Unit}
    (h : (leaveFor target).Course driver exchanges result driver')
    (hstate : driver.state = register.shiftState.next true)
    (hdevice : device.state = driver.state) :
    sampled register (device.samples exchanges) = [] := by
  refine sampled_eq_nil fun pulse hpulse hshift => ?_
  rw [Device.pulses, hdevice] at hpulse
  exact (leaveFor_still h hstate).1 device.lines pulse hpulse ⟨register, hshift⟩

end TapDriver

namespace Player

variable {session session' : Session} {exchanges : List Exchange} {result : Except Halt Unit}

/-- Notes are no samples. -/
theorem samples_updateNote (registers : Registers) (name : RegisterName) (device : Device)
    (rest : List Exchange) :
    device.samples (updateNote registers name :: rest) = device.samples rest :=
  rfl

theorem samples_comparison (name : RegisterName) (label : Option String) (pattern : Pattern)
    (observed : List UInt8) (device : Device) (rest : List Exchange) :
    device.samples (comparison name label pattern observed ++ rest) = device.samples rest := by
  unfold comparison
  split <;> rfl

/-- What a scan samples of its register is what was sampled while its bits were sent. -/
theorem sampled_scan {register : Register} {segments : Segments} {label : Option String}
    {registers : Registers} {routing shifting leaving : List Exchange} {samples : Samples}
    {left : Except Halt Unit} {driver driver' driver'' : TapDriver} {target : TapState}
    (hroute : (TapDriver.routeTo register.shiftState).Course session.tap routing (.ok ()) driver)
    (hshift : segments.shift.Course driver shifting (.ok samples) driver')
    (hleave : (TapDriver.leaveFor target).Course driver' leaving left driver'')
    (hbits : segments.bits ≠ []) (hrouting : Flawless routing) (hshifting : Flawless shifting)
    {device : Device} (hdevice : device.state = session.tap.state) :
    sampled register (device.samples (updateNote registers ⟨.payload, register⟩ ::
        (routing ++ (shifting ++ (comparison ⟨.payload, register⟩ label segments.payload
          samples.payload ++ leaving))))) =
      ((TapDriver.shiftEdges true segments.bits).map (Pulse.mk register.shiftState)).zip
        (levels shifting) := by
  obtain ⟨word, -, -, hstate⟩ := TapDriver.routeTo_ok hroute
  obtain ⟨hedges, hexit⟩ := TapDriver.shift_ok hshift hstate hbits
  have hrouted := TapDriver.state_watch
    (TapDriver.routeTo_upholds TapDriver.follows_obeys _) hroute hdevice
  have hshifted := TapDriver.state_watch
    (Segments.shift_upholds TapDriver.follows_obeys _) hshift hrouted
  have hbalanced := TapDriver.routeTo_upholds TapDriver.balanced_obeys _ hroute hrouting
  have hbalanced' := Segments.shift_upholds TapDriver.balanced_obeys _ hshift hshifting
  rw [samples_updateNote, Device.samples_append (hbalanced _), Device.samples_append (hbalanced' _),
    samples_comparison, sampled_append, sampled_append, TapDriver.sampled_routeTo hroute hdevice,
    TapDriver.sampled_shift hedges (hrouted.trans hstate),
    TapDriver.sampled_leaveFor hleave hexit hshifted, List.nil_append, List.append_nil]

/-- A stage adds the fault of its scan if that mismatches, and nothing else; all bits of its scan
were sent if there were any samples; and it goes well only if its scan does not mismatch or faults
are only recorded. -/
structure Judges (device : Device) (stage : Stage) : Prop where
  records : stage.after.report.faults.map Fault.record =
    stage.before.report.faults.map Fault.record ++
      ((stage.scan? device).bind Scan.record?).toList
  sent : ∀ scan ∈ stage.scan? device, scan.samples = [] ∨ scan.sent = scan.segments.digits
  passed : stage.result = .ok () →
    stage.before.continueOnFault = true ∨ ∀ scan ∈ stage.scan? device, ¬ scan.Mismatches

/-- A stage without a scan adds no fault. -/
theorem judges_of_no_scan {device : Device} {stage : Stage} (hscan : stage.scan? device = none)
    (hreport : stage.after.report = stage.before.report) : Judges device stage where
  records := by
    rw [hscan, hreport]
    exact (List.append_nil _).symm
  sent scan hmem := by
    rw [hscan] at hmem
    cases hmem
  passed _ := .inr fun scan hmem => by
    rw [hscan] at hmem
    cases hmem

/-- A comparison adds the fault of a scan that is not accepted. -/
theorem records_judge (label : Option String) (pattern : Pattern) (observed : List UInt8)
    (session : Session) :
    (judge label pattern observed session).report.faults.map Fault.record =
      session.report.faults.map Fault.record ++
        (if pattern.accepts observed then none
          else some (Fault.ofScan label pattern observed).record).toList := by
  unfold judge
  split
  · exact (List.append_nil _).symm
  · rw [Session.addFault, FaultReport.faults_push, List.map_append]
    rfl

/-- The scan of a stage that ended before any bit of it was sent. -/
theorem judges_of_unsampled {device : Device} {stage : Stage} {scan : Scan}
    (hscan : stage.scan? device = some scan) (hsamples : scan.samples = [])
    (hreport : stage.after.report = stage.before.report) : Judges device stage where
  records := by
    have hmatches := Scan.not_mismatches_of_samples_eq_nil hsamples
    rw [hscan, hreport, Option.bind_some, Scan.record?, if_neg hmatches]
    exact (List.append_nil _).symm
  sent other hmem := by
    rw [hscan] at hmem
    cases hmem
    exact .inl hsamples
  passed _ := .inr fun other hmem => by
    rw [hscan] at hmem
    cases hmem
    exact Scan.not_mismatches_of_samples_eq_nil hsamples

/-- The scan of a stage that went all the way. -/
theorem scan?_shifted {register : Register} {delta : Pattern}
    {registers : Registers} {routing shifting leaving : List Exchange} {samples : Samples}
    {left : Except Halt Unit} {driver driver' driver'' : TapDriver} {target : TapState}
    (hupdate : session.registers.update ⟨.payload, register⟩ delta = .ok registers)
    (hroute : (TapDriver.routeTo register.shiftState).Course session.tap routing (.ok ()) driver)
    (hshift : (registers.segments register).shift.Course driver shifting (.ok samples) driver')
    (hleave : (TapDriver.leaveFor target).Course driver' leaving left driver'')
    (hrouting : Flawless routing) (hshifting : Flawless shifting) {device : Device}
    (hdevice : device.state = session.tap.state) (label : Option String)
    (outcome : Except Halt Unit) (after : Session) :
    Stage.scan? device ⟨.shift register delta label, session,
        updateNote registers ⟨.payload, register⟩ :: (routing ++ (shifting ++
          (comparison ⟨.payload, register⟩ label (registers.segments register).payload
            samples.payload ++ leaving))), outcome, after⟩ =
      some (.complete register label (registers.segments register) (levels shifting)) := by
  have hbits := Registers.bits_ne_nil_of_update hupdate
  simp only [Stage.scan?, hupdate]
  rw [sampled_scan hroute hshift hleave hbits hrouting hshifting hdevice]
  rfl

theorem judges_of_scan {register : Register} {delta : Pattern} {label : Option String}
    (h : ScanCourse register delta label session exchanges result session')
    (hresult : result ≠ .error .deadlineOverflow) (hfull : session.registers.IsFull)
    (hflawless : Flawless exchanges) {device : Device}
    (hdevice : device.state = session.tap.state) :
    Judges device ⟨.shift register delta label, session, exchanges, result, session'⟩ := by
  cases h with
  | refused hupdate => exact judges_of_no_scan (by simp [Stage.scan?, hupdate]) rfl
  | @unrouted registers routing reason driver hupdate hroute =>
    obtain rfl : routing = [] := TapDriver.routeTo_eq_nil hroute (flawless_cons.mp hflawless).2
      fun hreason => hresult (congrArg Except.error hreason)
    have hscan : Stage.scan? device ⟨.shift register delta label, session,
        [updateNote registers ⟨.payload, register⟩], .error reason,
        { session with registers, tap := driver }⟩ =
          some ⟨label, registers.segments register, []⟩ := by
      simp only [Stage.scan?, hupdate]
      rfl
    exact judges_of_unsampled hscan rfl rfl
  | @unshifted registers routing shifting reason driver driver' hupdate hroute hshift =>
    simp only [flawless_cons, flawless_append] at hflawless
    have hsteady := (registers.segments register).shift_emits.steady hshift hflawless.2.2
    exact absurd (congrArg Except.error hsteady) hresult
  | @shifted registers routing shifting leaving samples left driver driver' driver'' hupdate hroute
      hshift hleave =>
    simp only [flawless_cons, flawless_append] at hflawless
    obtain ⟨-, hrouting, hshifting, -⟩ := hflawless
    have hscan := scan?_shifted hupdate hroute hshift hleave hrouting hshifting hdevice label
    -- What was sampled falls into the three segments, and the payload is what was compared.
    obtain ⟨header, payload, trailer, hlevels, hheader, hpayload, -, rfl⟩ :=
      Segments.shift_received hshift hshifting
    have hlength : (levels shifting).length = (registers.segments register).bits.length := by
      rw [Segments.shift_upholds TapDriver.balanced_obeys _ hshift hshifting {},
        (registers.segments register).shift_emits.complete hshift, TapDriver.length_shiftEdges]
    have hreceived : (Scan.complete register label (registers.segments register)
        (levels shifting)).received = header ++ (payload ++ trailer) :=
      (Scan.received_complete hlength).trans hlevels
    have hfull' := Registers.update_isFull hfull hupdate
    have hpayloadFull : (registers.segments register).payload.IsFull := hfull' ⟨.payload, register⟩
    refine ⟨?_, fun scan hmem => ?_, fun hok => ?_⟩
    · rw [hscan, Option.bind_some, Scan.record?_eq hreceived hheader hpayload hpayloadFull]
      exact records_judge _ _ _ _
    · rw [hscan] at hmem
      cases hmem
      rw [Scan.sent_complete hlength]
      exact .inr (Registers.bits_segments hfull' register)
    · rw [hscan]
      cases left with
      | error reason => cases hok
      | ok u =>
        rcases or_of_verdict_eq_ok hok with haccepts | hcontinue
        · refine .inr fun scan hmem => ?_
          cases hmem
          rw [Scan.mismatches_iff hreceived hheader hpayload hpayloadFull]
          exact not_not_intro haccepts
        · exact .inl hcontinue

/-- The report stays as it is. -/
def keepsReport : Law Session := fun session _ _ session' => session'.report = session.report

theorem keepsReport_obeys : ObeysPlain keepsReport where
  refl _ := rfl
  fail _ _ := rfl
  quiet _ _ _ _ := rfl
  trans hfirst hsecond := hsecond.trans hfirst
  clock _ _ _ _ _ _ _ := rfl
  setEndState := by
    intro session updated register state hupdated
    obtain ⟨-, endData, endInstruction, rfl⟩ := Session.setEndState_eq_ok hupdated
    rfl
  update := by
    intro session updated name delta hupdated
    obtain ⟨registers, -, rfl⟩ := Session.update_eq_ok hupdated
    rfl

/-- Only scans change the report. -/
theorem report_eq {instruction : Instruction}
    (h : (execute instruction).Course session exchanges result session')
    (hscan : ∀ register delta label, instruction ≠ .shift register delta label) :
    session'.report = session.report :=
  execute_upholds_of keepsReport_obeys instruction
    (fun hz _ => setFrequency_upholds keepsReport_obeys.toComposes (fun _ _ => rfl) hz)
    (fun register delta label heq => absurd heq (hscan register delta label))
    (fun test _ => runTest_upholds_of_clock keepsReport_obeys (fun _ => rfl) test) h

/-- The policy stays as it is, and stored patterns stay full. -/
theorem policy_and_full {instruction : Instruction}
    (h : (execute instruction).Course session exchanges result session') :
    session'.continueOnFault = session.continueOnFault ∧
      (session.registers.IsFull → session'.registers.IsFull) := by
  have hobeys : Obeys fun session _ _ session' =>
      session'.continueOnFault = session.continueOnFault ∧
        (session.registers.IsFull → session'.registers.IsFull) := {
    refl := fun _ => ⟨rfl, id⟩
    fail := fun _ _ => ⟨rfl, id⟩
    quiet := fun _ _ _ _ => ⟨rfl, id⟩
    trans := fun hfirst hsecond =>
      ⟨hsecond.1.trans hfirst.1, fun hfull => hsecond.2 (hfirst.2 hfull)⟩
    clock := fun _ _ _ _ _ _ _ => ⟨rfl, id⟩
    delay := fun _ _ => ⟨rfl, id⟩
    setEndState := by
      intro session updated register state hupdated
      obtain ⟨-, endData, endInstruction, rfl⟩ := Session.setEndState_eq_ok hupdated
      exact ⟨rfl, id⟩
    update := by
      intro session updated name delta hupdated
      obtain ⟨registers, hregisters, rfl⟩ := Session.update_eq_ok hupdated
      exact ⟨rfl, fun hfull => Registers.update_isFull hfull hregisters⟩
    addFault := fun _ _ => ⟨rfl, id⟩ }
  exact execute_upholds hobeys (fun _ => ⟨rfl, id⟩) instruction h

theorem execute_judges {instruction : Instruction}
    (h : (execute instruction).Course session exchanges result session')
    (hresult : result ≠ .error .deadlineOverflow) (hfull : session.registers.IsFull)
    (hflawless : Flawless exchanges) {device : Device}
    (hdevice : device.state = session.tap.state) :
    Judges device ⟨instruction, session, exchanges, result, session'⟩ := by
  cases instruction with
  | shift register delta label =>
    exact judges_of_scan (scan_course h) hresult hfull hflawless hdevice
  | _ => exact judges_of_no_scan rfl (report_eq h (by simp))

/-- What a stage with at most one scan contributes to a list. -/
theorem filterMap_toList {α β : Type} (f : α → Option β) (x? : Option α) :
    x?.toList.filterMap f = (x?.bind f).toList := by
  cases x? with
  | none => rfl
  | some x =>
    rw [Option.toList_some, Option.bind_some, List.filterMap_cons, List.filterMap_nil]
    cases f x <;> rfl

/-- The faults of some stages are those of their mismatching scans, and only the last scan
mismatches if faults are not merely recorded. -/
theorem Unfolds.judges {program : List Instruction} {stages : List Stage}
    (h : Unfolds program session stages result session')
    (hresult : result ≠ .error .deadlineOverflow) (hfull : session.registers.IsFull) {index : Nat}
    (hflawless : Flawless (said index stages)) {device : Device}
    (hdevice : device.state = session.tap.state) :
    session'.report.faults.map Fault.record = session.report.faults.map Fault.record ++
        (scans device stages).filterMap Scan.record? ∧
      (∀ scan ∈ scans device stages, scan.samples = [] ∨ scan.sent = scan.segments.digits) ∧
      (session.continueOnFault = false →
        ∀ scan ∈ (scans device stages).dropLast, ¬ scan.Mismatches) := by
  -- The device is always where the driver is, and the stored patterns are always full.
  induction h generalizing index device with
  | done session =>
    refine ⟨(List.append_nil _).symm, ?_, ?_⟩ <;> simp [scans]
  | @stops instruction program session exchanges reason session' hstage =>
    have hjudges := execute_judges hstage hresult hfull (by simp_all [said]) hdevice
    rw [scans, scans, List.append_nil, filterMap_toList]
    refine ⟨hjudges.records, fun scan hmem => ?_, fun _ scan hmem => ?_⟩
    · exact hjudges.sent scan (Option.mem_toList.mp hmem)
    · cases hscan :
          Stage.scan? device ⟨instruction, session, exchanges, .error reason, session'⟩ with
      | none =>
        rw [hscan] at hmem
        cases hmem
      | some _ =>
        rw [hscan] at hmem
        cases hmem
  | @goesOn instruction program session exchanges middle stages result session' hstage hrest ih =>
    have hflawless' : Flawless exchanges ∧ Flawless (said (index + 1) stages) := by
      simp_all [said]
    have hjudges := execute_judges hstage (by simp) hfull hflawless'.1 hdevice
    obtain ⟨hpolicy, hfull'⟩ := policy_and_full hstage
    have hdevice' : (device.watch exchanges).state = middle.tap.state := by
      rw [Device.watch_eq, execute_follows hstage device.lines, hdevice]
    obtain ⟨hrecords, hsent, hpassed⟩ := ih hresult (hfull' hfull) hflawless'.2 hdevice'
    rw [scans, List.filterMap_append, filterMap_toList]
    refine ⟨?_, fun scan hmem => ?_, fun hstops scan hmem => ?_⟩
    · rw [hrecords, hjudges.records, List.append_assoc]
    · rcases List.mem_append.mp hmem with hearly | hlate
      · exact hjudges.sent scan (Option.mem_toList.mp hearly)
      · exact hsent scan hlate
    · have hfirst : ∀ scan ∈ Stage.scan? device ⟨instruction, session, exchanges, .ok (), middle⟩,
          ¬ scan.Mismatches := by
        rcases hjudges.passed rfl with hcontinue | hfirst
        · rw [hstops] at hcontinue
          cases hcontinue
        · exact hfirst
      -- If no scan follows, the scan of this stage is the last one and is left out.
      rw [List.dropLast_append] at hmem
      split at hmem
      · exact hfirst scan (Option.mem_toList.mp (List.dropLast_subset _ hmem))
      · rcases List.mem_append.mp hmem with hearly | hlate
        · exact hfirst scan (Option.mem_toList.mp hearly)
        · exact hpassed (hpolicy.trans hstops) scan hlate

theorem RunCourse.judges {config : PlayerConfig} {program : List Instruction}
    {performance : Performance} {outcome : RunOutcome} {report : RunReport}
    (h : RunCourse config program performance exchanges outcome)
    (hreport : outcome.report? = some report) (hflawless : Flawless exchanges) (device : Device) :
    report.faults.faults.map Fault.record =
        (scans (device.watch performance.prelude) performance.stages).filterMap Scan.record? ∧
      (∀ scan ∈ scans (device.watch performance.prelude) performance.stages,
        scan.samples = [] ∨ scan.sent = scan.segments.digits) ∧
      (config.continueOnFault = false →
        ∀ scan ∈ (scans (device.watch performance.prelude) performance.stages).dropLast,
          ¬ scan.Mismatches) := by
  cases h with
  | unstarted start instant error =>
    cases hreport
    refine ⟨rfl, ?_, ?_⟩ <;> simp [scans]
  | unready hreset hfinish =>
    obtain ⟨elapsed, rfl⟩ := hfinish.report_eq hreport
    obtain ⟨driver, -, rfl⟩ := onTap_course.mp hreset
    refine ⟨rfl, ?_, ?_⟩ <;> simp [scans]
  | @ready start resetting session stages result session' closing outcome hreset hstages hfinish =>
    obtain ⟨elapsed, rfl⟩ := hfinish.report_eq hreport
    obtain ⟨-, hregisters, hstate, hedges⟩ := reset_ok hreset
    have hresult : result ≠ .error .deadlineOverflow := by
      rintro rfl
      cases hfinish
      cases hreport
    have hflawless' : Flawless (said 0 stages) := by
      simp_all
    have hfull : session.registers.IsFull := by
      rw [hregisters]
      exact Registers.isFull_default
    have hdevice : (device.watch (opening program start (.ok ()) ++ resetting)).state =
        session.tap.state := by
      rw [Device.watch_eq, Lines.edges_append_of_isIdle _ (isIdle_opening program start _), hedges,
        TapState.follow_replicate_high, hstate]
    obtain ⟨driver, -, rfl⟩ := onTap_course.mp hreset
    exact hstages.judges hresult hfull hflawless' hdevice

/-- If no operation on the bus fails, the faults of a run are those of its mismatching scans, in
order and one for each, with the number that came back as their data. A scan that took any samples
took one for each bit of its patterns. A run that stops at faults goes through no scan after a
mismatching one. -/
theorem records_eq {β τ : Type} [Bus β] [Clock τ] (bench : Bench β τ) (device : Device)
    (config : PlayerConfig) (program : List Instruction) {report : RunReport}
    (hflawless : Flawless ((run config program).transcript bench))
    (hreport : ((run config program).play bench).1.report? = some report) :
    let performance := performance config program bench
    let scans := scans (device.watch performance.prelude) performance.stages
    report.faults.faults.map Fault.record = scans.filterMap Scan.record? ∧
      (∀ scan ∈ scans, scan.samples = [] ∨ scan.sent = scan.segments.digits) ∧
      (config.continueOnFault = false → ∀ scan ∈ scans.dropLast, ¬ scan.Mismatches) :=
  (run_course config program bench).judges hreport hflawless device

/-- Three scans on a bus that returns the opposite of what is sent. The second passes because of its
mask, and faults are only recorded. -/
theorem records_eq_inverting_bus :
    let bench : Bench SimulatedBus IdealClock := { bus := { answers := .invert }, clock := {} }
    let program : List Instruction := [
      .setHeader .data { length := 3, tdi := some [6] },
      .shift .data { length := 10, tdi := some [2, 0xA5], tdo := some [2, 0xA5] } (some "first"),
      .shift .data { length := 10, tdo := some [1, 0xA5], mask := some [3, 0] } (some "second"),
      .shift .data { length := 10, tdo := some [2, 0x5A] } none]
    let config : PlayerConfig := { continueOnFault := true }
    let performance := performance config program bench
    let scans := scans (({} : Device).watch performance.prelude) performance.stages
    Flawless ((run config program).transcript bench) ∧
      (∃ report, ((run config program).play bench).1.report? = some report ∧
        report.faults.faults.map Fault.record = scans.filterMap Scan.record?) ∧
      scans.filterMap Scan.record? = [("first", "015A"), ("unlabeled", "015A")] := by
  intro bench program config performance scans
  have hflawless : Flawless ((run config program).transcript bench) := by decide +kernel
  have hsome : ((run config program).play bench).1.report?.isSome = true := by decide +kernel
  obtain ⟨report, hreport⟩ := Option.isSome_iff_exists.mp hsome
  have hrecords := records_eq bench {} config program hflawless hreport
  exact ⟨hflawless, ⟨report, hreport, hrecords.1⟩, by decide +kernel⟩

end Player

end JtagPlayer
