import JtagPlayer.Bus.Simulated
import JtagPlayer.Proofs.Emission
import JtagPlayer.Proofs.Stages

/-!
# The driver never loses track of the device

A driver knows the device by what it has sent only, and any operation on the bus may fail halfway
through a clock. `TapDriver.follows` is the law that the driver's state and count of pulses move on
exactly with the edges that the device sees, and `TapDriver.follows_obeys` says that everything a
driver does obeys it, wherever it stops.

The device may be in any state when a run begins. The first five edges of a run have TMS high and
bring every controller to the reset state, so after five edges `Player.tracks_device` knows the
device's state as well.
-/

namespace JtagPlayer

open JtagPlayer.Action

namespace TapDriver

/-- The driver moves on with the edges that the device sees. -/
def follows : Law TapDriver := fun driver exchanges _ driver' =>
  ∀ lines : Lines, driver'.state = driver.state.follow (lines.edges exchanges) ∧
    driver'.pulses = driver.pulses + (lines.edges exchanges).length

theorem clock_follows (tms tdi : Bool) : (clock tms tdi).Upholds follows := by
  intro driver exchanges result driver' hcourse lines
  rcases clock_edges hcourse lines with ⟨hedges, hstate, hpulses⟩ | ⟨hedges, hstate, hpulses, -⟩
  · rw [hedges, hstate, hpulses]
    exact ⟨rfl, rfl⟩
  · rw [hedges, hstate, hpulses]
    exact ⟨rfl, rfl⟩

theorem follows_obeys : Obeys follows where
  refl driver lines := ⟨rfl, rfl⟩
  fail driver error lines := ⟨rfl, rfl⟩
  quiet := by
    intro driver c answer hquiet lines
    rw [Lines.edges_cons_of_isIdle lines (Lines.isIdle_of_isQuiet hquiet answer)]
    exact ⟨rfl, rfl⟩
  trans := by
    intro driver middle driver' first second reason hfirst hsecond lines
    obtain ⟨hstate, hpulses⟩ := hfirst lines
    obtain ⟨hstate', hpulses'⟩ := hsecond (lines.watch first)
    rw [Lines.edges_append]
    refine ⟨?_, ?_⟩
    · rw [TapState.follow_append, ← hstate, hstate']
    · rw [List.length_append, ← Nat.add_assoc, ← hpulses, hpulses']
  clock := clock_follows

theorem delay_follows (driver : TapDriver) (delay : Option Nat) :
    follows driver [] none { driver with delay } :=
  fun _ => ⟨rfl, rfl⟩

/-- The operations of a driver. -/
inductive Operation where
  | clock (tms tdi : Bool)
  | clockWord (word : List Bool)
  | reset
  | routeTo (target : TapState)
  | stepTo (target : TapState)
  | setFrequency (hz : Float)

/-- Carries out an operation. -/
def Operation.perform : Operation → Action TapDriver Unit
  | .clock tms tdi => do
    let _ ← TapDriver.clock tms tdi
    Pure.pure ()
  | .clockWord word => TapDriver.clockWord word
  | .reset => TapDriver.reset
  | .routeTo target => TapDriver.routeTo target
  | .stepTo target => TapDriver.stepTo target
  | .setFrequency hz => TapDriver.setFrequency hz

/-- Carries out operations one after the other and goes on after those that fail. Nothing can follow
a wait for a time that no clock reaches. -/
def performAll : List Operation → TapDriver → Dialogue (Except Halt Unit × TapDriver)
  | [], driver => .done (.ok (), driver)
  | operation :: operations, driver => do
    match ← operation.perform driver with
    | (.error .deadlineOverflow, driver) => .done (.error .deadlineOverflow, driver)
    | (_, driver) => performAll operations driver

section Operations

variable {law : Law TapDriver}

theorem perform_upholds (h : Obeys law)
    (hdelay : ∀ (driver : TapDriver) delay, law driver [] none { driver with delay })
    (operation : Operation) : operation.perform.Upholds law := by
  cases operation with
  | clock tms tdi =>
    exact upholds_bind h.toComposes (h.clock tms tdi) fun _ => upholds_pure h.toComposes ()
  | clockWord word => exact clockWord_upholds h word
  | reset => exact reset_upholds h
  | routeTo target => exact routeTo_upholds h target
  | stepTo target => exact stepTo_upholds h target
  | setFrequency hz => exact setFrequency_upholds h.toComposes hdelay hz

/-- A series of operations obeys a law that makes no difference between the end of an operation and
its failure, so that what comes after a failure can go on from there. -/
theorem performAll_upholds (h : Obeys law)
    (hdelay : ∀ (driver : TapDriver) delay, law driver [] none { driver with delay })
    (hforgives : ∀ driver exchanges error driver',
      law driver exchanges (some (.failed error)) driver' → law driver exchanges none driver')
    (operations : List Operation) : Action.Upholds law (performAll operations) := by
  induction operations with
  | nil => exact upholds_pure h.toComposes ()
  | cons operation operations ih =>
    intro driver exchanges result driver' hcourse
    obtain ⟨first, second, ⟨outcome, middle⟩, hfirst, hsecond, rfl⟩ :=
      Dialogue.course_bind.mp hcourse
    have hlaw := perform_upholds h hdelay operation hfirst
    match outcome with
    | .error .deadlineOverflow =>
      obtain ⟨rfl, hresult⟩ := Dialogue.course_done.mp hsecond
      cases hresult
      rw [List.append_nil]
      exact hlaw
    | .error (.failed error) => exact h.trans (hforgives _ _ error _ hlaw) (ih hsecond)
    | .ok () => exact h.trans hlaw (ih hsecond)

end Operations

theorem performAll_follows (operations : List Operation) :
    Action.Upholds follows (performAll operations) :=
  performAll_upholds follows_obeys delay_follows (fun _ _ _ _ => id) operations

end TapDriver

namespace TapState

/-- Five edges with TMS high lead to the reset state from everywhere. -/
theorem follow_replicate_high (state : TapState) :
    state.follow (List.replicate 5 (Edge.quiet true)) = reset := by
  cases state <;> rfl

/-- After five edges with TMS high nothing is left of where a controller began. -/
theorem follow_eq_of_prefix {edges : List Edge}
    (h : List.replicate 5 (Edge.quiet true) <+: edges) (state other : TapState) :
    state.follow edges = other.follow edges := by
  obtain ⟨rest, rfl⟩ := h
  rw [follow_append, follow_append, follow_replicate_high, follow_replicate_high]

end TapState

namespace Player

/-- Neither the beginning of a run nor its end drives a line. -/
theorem isIdle_opening (program : List Instruction) (start : Nat) (answer : Except IoError Unit) :
    ∀ exchange ∈ opening program start answer, Lines.IsIdle exchange := by
  simp [opening, Lines.IsIdle]

theorem Finish.isIdle {start : Nat} {session : Session} {result : Except Halt Unit}
    {exchanges : List Exchange} {outcome : RunOutcome}
    (h : Finish start session result exchanges outcome) :
    ∀ exchange ∈ exchanges, Lines.IsIdle exchange := by
  cases h <;> simp [Lines.IsIdle]

/-- The edges of a run that could begin are those of its reset and of its stages. -/
theorem edges_run {program : List Instruction} {start : Nat} {inner closing : List Exchange}
    (hclosing : ∀ exchange ∈ closing, Lines.IsIdle exchange) (lines : Lines) :
    lines.edges (opening program start (.ok ()) ++ (inner ++ closing)) = lines.edges inner := by
  rw [Lines.edges_append_of_isIdle lines (isIdle_opening program start _), Lines.edges_append,
    Lines.edges_eq_nil_of_isIdle _ hclosing, List.append_nil]

/-- The law for the driver of a session. -/
theorem follows_obeys : Obeys (lawOfTap TapDriver.follows) :=
  Obeys.ofTap TapDriver.follows_obeys TapDriver.delay_follows

theorem reset_follows : (onTap TapDriver.reset).Upholds (lawOfTap TapDriver.follows) :=
  onTap_upholds_lawOfTap (TapDriver.reset_upholds TapDriver.follows_obeys)

/-- What a report says of the device comes from the edges of the run, the first five of which have
TMS high. -/
theorem RunCourse.report_of_edges {config : PlayerConfig} {program : List Instruction}
    {performance : Performance} {exchanges : List Exchange} {outcome : RunOutcome}
    {report : RunReport} (h : RunCourse config program performance exchanges outcome)
    (hreport : outcome.report? = some report) (lines : Lines) :
    report.clockPulses = (lines.edges exchanges).length ∧
      report.finalState = TapState.reset.follow (lines.edges exchanges) ∧
      (5 ≤ (lines.edges exchanges).length →
        List.replicate 5 (Edge.quiet true) <+: lines.edges exchanges) := by
  cases h with
  | unstarted start instant error =>
    cases hreport
    have hedges : lines.edges (opening program start (.error error) ++
        [⟨.note (.notInitialized error), ()⟩, ⟨.now, instant⟩]) = [] := rfl
    rw [hedges]
    exact ⟨rfl, rfl, fun hfive => absurd hfive (by decide)⟩
  | @unready start resetting reason session closing outcome hreset hfinish =>
    obtain ⟨elapsed, rfl⟩ := hfinish.report_eq hreport
    obtain ⟨driver, hdriver, rfl⟩ := course_on.mp hreset
    obtain ⟨hstate, hpulses⟩ := reset_follows hreset lines
    rw [edges_run hfinish.isIdle]
    refine ⟨hpulses.trans (Nat.zero_add _), hstate, fun hfive => ?_⟩
    have hbegins := TapDriver.reset_emits.begins hdriver lines
    have hlength : (lines.edges resetting).length =
        (List.replicate 5 (Edge.quiet true)).length := by
      have hle := hbegins.length_le
      rw [List.length_replicate] at hle ⊢
      omega
    exact hbegins.eq_of_length hlength ▸ List.prefix_rfl
  | @ready start resetting middle stages result session' closing outcome hreset hstages hfinish =>
    obtain ⟨elapsed, rfl⟩ := hfinish.report_eq hreport
    obtain ⟨driver, hdriver, -⟩ := course_on.mp hreset
    have hlaw := hstages.upholds follows_obeys (fun session lines => ⟨rfl, rfl⟩) 0
    obtain ⟨hstate, hpulses⟩ := follows_obeys.trans (reset_follows hreset) hlaw lines
    rw [← List.append_assoc resetting, edges_run hfinish.isIdle]
    refine ⟨hpulses.trans (Nat.zero_add _), hstate, fun hfive => ?_⟩
    rw [Lines.edges_append, TapDriver.reset_emits.complete hdriver lines]
    exact List.prefix_append _ _

/-- The driver never loses track of the device. Whatever the bus and the clock do, and whatever the
levels and the state of the device are at first: a report counts the edges that the device has seen,
and from the fifth edge on its final state is the state of the device. After any operations on a
driver that knows the state of its device it still does, also if some of them failed, and it has
counted the edges. -/
theorem tracks_device {β τ : Type} [Bus β] [Clock τ] (bench : Bench β τ) (device : Device) :
    (∀ config program report, ((run config program).play bench).1.report? = some report →
      report.clockPulses = (device.pulses ((run config program).transcript bench)).length ∧
        (5 ≤ report.clockPulses →
          report.finalState = (device.watch ((run config program).transcript bench)).state)) ∧
    (∀ operations (driver : TapDriver), driver.state = device.state →
      ((TapDriver.performAll operations driver).play bench).1.2.state =
          (device.watch ((TapDriver.performAll operations driver).transcript bench)).state ∧
        ((TapDriver.performAll operations driver).play bench).1.2.pulses = driver.pulses +
          (device.pulses ((TapDriver.performAll operations driver).transcript bench)).length) := by
  refine ⟨fun config program report hreport => ?_, fun operations driver hdriver => ?_⟩
  · obtain ⟨hpulses, hstate, hreset⟩ :=
      (run_course config program bench).report_of_edges hreport device.lines
    rw [Device.pulses, TapState.length_pulses, Device.watch_eq]
    refine ⟨hpulses, fun hfive => ?_⟩
    rw [hstate]
    exact TapState.follow_eq_of_prefix (hreset (hpulses ▸ hfive)) _ _
  · have hcourse := Dialogue.course_transcript (TapDriver.performAll operations driver) bench
    obtain ⟨hstate, hpulses⟩ := TapDriver.performAll_follows operations hcourse device.lines
    rw [Device.pulses, TapState.length_pulses, Device.watch_eq, ← hdriver]
    exact ⟨hstate, hpulses⟩

/-- A scan during which a sample fails, and two operations of which the first is impossible. -/
theorem tracks_device_failing_sample :
    let bench : Bench SimulatedBus IdealClock := { bus := { failingRead := some 9 }, clock := {} }
    let device : Device := { lines := { tck := true }, state := .drUpdate }
    let program := [Instruction.shift .data { length := 4, tdi := some [5] } none]
    let driver : TapDriver := { state := .drUpdate, spinThreshold := 0 }
    (∃ report, ((run {} program).play bench).1.report? = some report ∧ report.clockPulses = 10 ∧
      report.finalState = (device.watch ((run {} program).transcript bench)).state) ∧
    ((TapDriver.performAll [.stepTo .irShift, .clock true false] driver).play bench).1.2.state =
      (device.watch ((TapDriver.performAll [.stepTo .irShift, .clock true false]
        driver).transcript bench)).state := by
  intro bench device program driver
  have htracks := tracks_device bench device
  have hreport : (((run {} program).play bench).1.report?.map RunReport.clockPulses) = some 10 := by
    decide +kernel
  obtain ⟨report, hsome, hpulses⟩ := Option.map_eq_some_iff.mp hreport
  refine ⟨⟨report, hsome, hpulses, ?_⟩, (htracks.2 _ driver rfl).1⟩
  exact (htracks.1 {} program report hsome).2 (by rw [hpulses]; decide)

end Player

end JtagPlayer
