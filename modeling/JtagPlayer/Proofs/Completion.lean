import JtagPlayer.Proofs.Failure
import JtagPlayer.Proofs.Faults

/-!
# The faults of a run that may be cut short

A scan counts if all of its bits were sent and sampled, whatever happens afterwards, and not at all
if one is missing. `Player.RunCourse.faults_eq` says so of every run, on any bus and under either
policy: its faults are those of its complete scans, in order.

That a scan which stops early has taken fewer samples than it has bits is a matter of counting,
`TapDriver.Takes`.
-/

namespace JtagPlayer

open JtagPlayer.Action

namespace TapDriver

variable {α β : Type}

/-- The number of samples that an action is meant to take. It takes fewer if it stops early. -/
structure Takes (count : Nat) (action : Action TapDriver α) : Prop where
  complete : ∀ {driver exchanges x driver'}, action.Course driver exchanges (.ok x) driver' →
    (levels exchanges).length = count
  stopped : ∀ {driver exchanges reason driver'},
    action.Course driver exchanges (.error reason) driver' → (levels exchanges).length < count

theorem takes_bind {first second : Nat} {action : Action TapDriver α}
    {f : α → Action TapDriver β} (hfirst : Takes first action) (hsecond : ∀ x, Takes second (f x)) :
    Takes (first + second) (action >>= f) where
  complete := by
    intro driver exchanges y driver' hcourse
    rcases course_bind.mp hcourse with
      ⟨early, late, x, middle, haction, hrest, rfl⟩ | ⟨reason, -, hresult⟩
    · rw [levels_append, List.length_append, hfirst.complete haction, (hsecond x).complete hrest]
    · cases hresult
  stopped := by
    intro driver exchanges reason driver' hcourse
    rcases course_bind.mp hcourse with
      ⟨early, late, x, middle, haction, hrest, rfl⟩ | ⟨reason, hstop, -⟩
    · have hfew := (hsecond x).stopped hrest
      rw [levels_append, List.length_append, hfirst.complete haction]
      omega
    · have hfew := hfirst.stopped hstop
      omega

/-- What cannot stop and samples nothing may follow. -/
theorem takes_then {count : Nat} {action : Action TapDriver α} {f : α → Action TapDriver β}
    (haction : Takes count action)
    (hf : ∀ x {driver exchanges result driver'}, (f x).Course driver exchanges result driver' →
      levels exchanges = [] ∧ ∃ y, result = .ok y) : Takes count (action >>= f) where
  complete := by
    intro driver exchanges y driver' hcourse
    rcases course_bind.mp hcourse with
      ⟨early, late, x, middle, hfirst, hrest, rfl⟩ | ⟨reason, -, hresult⟩
    · rw [levels_append, (hf x hrest).1, List.append_nil, haction.complete hfirst]
    · cases hresult
  stopped := by
    intro driver exchanges reason driver' hcourse
    rcases course_bind.mp hcourse with
      ⟨early, late, x, middle, hfirst, hrest, rfl⟩ | ⟨reason, hstop, -⟩
    · obtain ⟨-, y, hresult⟩ := hf x hrest
      cases hresult
    · exact haction.stopped hstop

theorem levels_setUp_pause (tms tdi : Bool) (driver : TapDriver) (rest : List Exchange) :
    levels (setUp tms tdi ++ (driver.pause ++ rest)) = levels rest := by
  rw [levels_append, levels_append, levels_pause]
  rfl

theorem clock_takes (tms tdi : Bool) : Takes 1 (clock tms tdi) where
  complete := by
    intro driver exchanges level driver' hcourse
    have hclock := clock_course hcourse
    generalize hresult : (Except.ok level : Except Halt Bool) = result at hclock
    cases hclock with
    | sampled instant sample hdue =>
      rw [levels_setUp_pause]
      rfl
    | _ => cases hresult
  stopped := by
    intro driver exchanges reason driver' hcourse
    have hclock := clock_course hcourse
    generalize hresult : (Except.error reason : Except Halt Bool) = result at hclock
    cases hclock with
    | tmsFails | tdiFails | lowFails | overdue => exact Nat.one_pos
    | riseFails error hdue =>
      rw [levels_setUp_pause]
      exact Nat.one_pos
    | sampleFails instant error hdue =>
      rw [levels_setUp_pause]
      exact Nat.one_pos
    | sampled => cases hresult

theorem shiftBits_takes (leave : Bool) (bits received : List Bool) :
    Takes bits.length (shiftBits leave bits received) := by
  induction bits generalizing received with
  | nil =>
    constructor
    · intro driver exchanges x driver' hcourse
      obtain ⟨rfl, -, -⟩ := course_pure.mp hcourse
      rfl
    · intro driver exchanges reason driver' hcourse
      obtain ⟨-, hresult, -⟩ := course_pure.mp hcourse
      cases hresult
  | cons bit bits ih =>
    rw [List.length_cons, Nat.add_comm]
    exact takes_bind (clock_takes _ bit) fun _ => ih _

theorem shiftPattern_takes (leave : Bool) (pattern : Pattern) :
    Takes pattern.bits.length (shiftPattern leave pattern) := by
  rw [shiftPattern_eq]
  refine takes_then (shiftBits_takes leave _ _) fun x => ?_
  intro driver exchanges result driver' hcourse
  obtain ⟨rfl, rfl, -⟩ := course_pure.mp hcourse
  exact ⟨rfl, _, rfl⟩

end TapDriver

/-- A scan takes a sample for each of its bits. -/
theorem Segments.shift_takes (segments : Segments) :
    TapDriver.Takes segments.bits.length segments.shift := by
  rw [bits, List.length_append, List.length_append]
  refine TapDriver.takes_bind (TapDriver.shiftPattern_takes _ _) fun header => ?_
  refine TapDriver.takes_bind (TapDriver.shiftPattern_takes _ _) fun payload => ?_
  refine TapDriver.takes_then (TapDriver.shiftPattern_takes _ _) fun trailer => ?_
  intro driver exchanges result driver' hcourse
  obtain ⟨⟨⟩, rest, rfl, hdone⟩ := course_ask_bind.mp hcourse
  obtain ⟨rfl, rfl, -⟩ := course_pure.mp hdone
  exact ⟨rfl, _, rfl⟩

/-- What a scan returns for its payload are the bytes that hold a bit for each one sent. -/
theorem Segments.shift_payload {segments : Segments} {samples : Samples}
    {driver driver' : TapDriver} {exchanges : List Exchange}
    (h : segments.shift.Course driver exchanges (.ok samples) driver') :
    ∃ received, samples.payload = Pattern.bytesOf received ∧
      received.length = segments.payload.length.toNat := by
  have hflawless := TapDriver.flawless_of_ok (segments.shift_upholds TapDriver.cut_obeys) h
  obtain ⟨_, payload, _, -, -, hpayload, -, rfl⟩ := shift_received h hflawless
  exact ⟨payload, rfl, hpayload⟩

namespace Scan

/-- All bits of the scan were sent and sampled. -/
def IsComplete (scan : Scan) : Prop :=
  scan.samples.length = scan.segments.bits.length

instance (scan : Scan) : Decidable scan.IsComplete :=
  inferInstanceAs (Decidable (scan.samples.length = scan.segments.bits.length))

/-- What came back for the payload. -/
def observed (scan : Scan) : List UInt8 :=
  Pattern.bytesOf scan.answers

/-- The fault that a scan adds to a report: that of a complete scan whose payload did not come back
as expected. -/
def fault? (scan : Scan) : Option Fault :=
  if scan.IsComplete ∧ scan.segments.payload.accepts scan.observed = false then
    some (.ofScan scan.label scan.segments.payload scan.observed)
  else none

theorem fault?_eq_none {scan : Scan} (h : scan.samples.length < scan.segments.bits.length) :
    scan.fault? = none :=
  if_neg fun hfault => absurd hfault.1 (Nat.ne_of_lt h)

end Scan

namespace Player

variable {session session' : Session} {exchanges : List Exchange} {result : Except Halt Unit}

/-- A route to the shift state that stops has taken no sample there. -/
theorem sampled_unrouted {register : Register} {driver driver' : TapDriver}
    {result : Except Halt Unit} {device : Device}
    (h : (TapDriver.routeTo register.shiftState).Course driver exchanges result driver')
    (hdevice : device.state = driver.state) :
    sampled register (device.samples exchanges) = [] := by
  refine sampled_eq_nil fun pulse hpulse => ?_
  rw [Device.pulses, hdevice] at hpulse
  rcases TapDriver.routeTo_edges h device.lines with hnil | ⟨word, hroute, hbegins⟩
  · rw [hnil] at hpulse
    cases hpulse
  · exact TapState.route_before_target hroute pulse
      ((TapState.pulses_prefix hbegins _).mem hpulse)

/-- A scan that stops while its bits are sent is incomplete. -/
theorem length_sampled_unshifted {register : Register} {segments : Segments}
    {routing shifting : List Exchange} {reason : Halt} {driver driver' : TapDriver}
    {device : Device} (registers : Registers)
    (hroute : (TapDriver.routeTo register.shiftState).Course session.tap routing (.ok ()) driver)
    (hshift : segments.shift.Course driver shifting (.error reason) driver')
    (hdevice : device.state = session.tap.state) :
    (sampled register (device.samples (updateNote registers ⟨.payload, register⟩ ::
      (routing ++ shifting)))).length < segments.bits.length := by
  have hrouting := TapDriver.flawless_of_ok (TapDriver.routeTo_upholds TapDriver.cut_obeys _) hroute
  have hbalanced := TapDriver.routeTo_upholds TapDriver.balanced_obeys _ hroute hrouting
  rw [samples_updateNote, Device.samples_append (hbalanced _), sampled_append,
    TapDriver.sampled_routeTo hroute hdevice, List.nil_append]
  calc (sampled register ((device.watch routing).samples shifting)).length
    _ ≤ ((device.watch routing).samples shifting).length := List.length_filter_le ..
    _ ≤ (levels shifting).length := by
      rw [Device.samples, List.length_zip]
      exact Nat.min_le_right ..
    _ < segments.bits.length := segments.shift_takes.stopped hshift

/-- The fault of the scan that a stage went through is what the stage adds to the report. -/
theorem faults_of_scan {register : Register} {delta : Pattern} {label : Option String}
    (h : ScanCourse register delta label session exchanges result session') {device : Device}
    (hdevice : device.state = session.tap.state) :
    session'.report.faults = session.report.faults ++
      ((Stage.scan? device ⟨.shift register delta label, session, exchanges, result,
        session'⟩).bind Scan.fault?).toList := by
  cases h with
  | refused hupdate =>
    simp only [Stage.scan?, hupdate]
    exact (List.append_nil _).symm
  | @unrouted registers routing reason driver hupdate hroute =>
    have hsamples : sampled register (device.samples (updateNote registers ⟨.payload, register⟩ ::
        routing)) = [] := by
      rw [samples_updateNote, sampled_unrouted hroute hdevice]
    have hnone : Scan.fault? ⟨label, registers.segments register, []⟩ = none :=
      Scan.fault?_eq_none (List.length_pos_iff.mpr (Registers.bits_ne_nil_of_update hupdate))
    simp only [Stage.scan?, hupdate, hsamples, Option.bind_some, hnone]
    exact (List.append_nil _).symm
  | @unshifted registers routing shifting reason driver driver' hupdate hroute hshift =>
    have hfew := length_sampled_unshifted registers hroute hshift hdevice
    simp only [Stage.scan?, hupdate, Option.bind_some]
    rw [Scan.fault?_eq_none hfew]
    exact (List.append_nil _).symm
  | @shifted registers routing shifting leaving samples left driver driver' driver'' hupdate hroute
      hshift hleave =>
    have hrouting := TapDriver.flawless_of_ok
      (TapDriver.routeTo_upholds TapDriver.cut_obeys _) hroute
    have hshifting := TapDriver.flawless_of_ok
      (Segments.shift_upholds TapDriver.cut_obeys _) hshift
    rw [scan?_shifted hupdate hroute hshift hleave hrouting hshifting hdevice label,
      Option.bind_some]
    -- What was sampled falls into the three segments, and the payload is what was compared.
    obtain ⟨header, payload, trailer, hlevels, hheader, hpayload, -, rfl⟩ :=
      Segments.shift_received hshift hshifting
    have hlength := (registers.segments register).shift_takes.complete hshift
    have hreceived : (Scan.complete register label (registers.segments register)
        (levels shifting)).received = levels shifting := Scan.received_complete hlength
    have hcomplete : (Scan.complete register label (registers.segments register)
        (levels shifting)).IsComplete := by
      rw [Scan.IsComplete, ← List.length_map Prod.snd]
      exact (congrArg List.length hreceived).trans hlength
    have hanswers : (Scan.complete register label (registers.segments register)
        (levels shifting)).answers = payload :=
      Scan.answers_eq (hreceived.trans hlevels) hheader hpayload
    rw [Scan.fault?, Scan.observed, hanswers, judge]
    by_cases haccepts : (registers.segments register).payload.accepts (Pattern.bytesOf payload)
    · rw [if_pos haccepts, if_neg fun hfault => absurd haccepts (by
        rw [Bool.not_eq_true]; exact hfault.2)]
      exact (List.append_nil _).symm
    · rw [if_neg haccepts, if_pos ⟨hcomplete, Bool.not_eq_true _ ▸ haccepts⟩]
      rfl

theorem execute_faults {instruction : Instruction}
    (h : (execute instruction).Course session exchanges result session') {device : Device}
    (hdevice : device.state = session.tap.state) :
    session'.report.faults = session.report.faults ++
      ((Stage.scan? device ⟨instruction, session, exchanges, result, session'⟩).bind
        Scan.fault?).toList := by
  cases instruction with
  | shift register delta label => exact faults_of_scan (scan_course h) hdevice
  | _ =>
    rw [report_eq h (by simp)]
    exact (List.append_nil _).symm

/-- The faults of some stages are those of their complete scans. -/
theorem Unfolds.faults_eq {program : List Instruction} {stages : List Stage}
    (h : Unfolds program session stages result session') {device : Device}
    (hdevice : device.state = session.tap.state) :
    session'.report.faults = session.report.faults ++
      (scans device stages).filterMap Scan.fault? := by
  -- The device is always where the driver is.
  induction h generalizing device with
  | done session => exact (List.append_nil _).symm
  | stops hstage =>
    rw [scans, scans, List.append_nil, filterMap_toList]
    exact execute_faults hstage hdevice
  | @goesOn instruction program session exchanges middle stages result session' hstage hrest ih =>
    have hdevice' : (device.watch exchanges).state = middle.tap.state := by
      rw [Device.watch_eq, execute_follows hstage device.lines, hdevice]
    rw [scans, List.filterMap_append, filterMap_toList, ih hdevice', execute_faults hstage hdevice,
      List.append_assoc]

/-- The faults of a run are those of its complete scans, in order. -/
theorem RunCourse.faults_eq {config : PlayerConfig} {program : List Instruction}
    {performance : Performance} {outcome : RunOutcome} {report : RunReport}
    (h : RunCourse config program performance exchanges outcome)
    (hreport : outcome.report? = some report) (device : Device) :
    report.faults.faults = (scans (device.watch performance.prelude)
      performance.stages).filterMap Scan.fault? := by
  cases h with
  | unstarted start instant error =>
    cases hreport
    rfl
  | unready hreset hfinish =>
    obtain ⟨elapsed, rfl⟩ := hfinish.report_eq hreport
    obtain ⟨driver, -, rfl⟩ := onTap_course.mp hreset
    rfl
  | @ready start resetting session stages result session' closing outcome hreset hstages hfinish =>
    obtain ⟨elapsed, rfl⟩ := hfinish.report_eq hreport
    obtain ⟨-, -, hstate, hedges⟩ := reset_ok hreset
    have hdevice : (device.watch (opening program start (.ok ()) ++ resetting)).state =
        session.tap.state := by
      rw [Device.watch_eq, Lines.edges_append_of_isIdle _ (isIdle_opening program start _), hedges,
        TapState.follow_replicate_high, hstate]
    have hfaults := hstages.faults_eq hdevice
    obtain ⟨driver, -, rfl⟩ := onTap_course.mp hreset
    exact hfaults

end Player

end JtagPlayer
