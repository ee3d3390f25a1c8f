import JtagPlayer.Proofs.Device
import JtagPlayer.Tap.Driver

/-!
# What a single clock can do

A clock makes up to seven exchanges, and each of the five on the bus may be the one that fails.
`TapDriver.ClockCourse` lists the ways in which it can go, and `TapDriver.clock_course` says that
there are no others. `TapDriver.clock_edges` and `TapDriver.clock_flawless` draw from it what the
device sees and what remains if nothing fails: the wait for a rising edge that is due later than any
instant.
-/

namespace JtagPlayer

open JtagPlayer.Action

namespace TapDriver

/-- When the next rising edge is due, if it has to be waited for. -/
def dueAt (driver : TapDriver) : Option Nat :=
  match driver.delay, driver.lastRise with
  | some delay, some rise => some (rise + delay)
  | _, _ => none

/-- The next rising edge is due later than any instant. -/
def EdgeOverdue (driver : TapDriver) : Prop :=
  ∃ deadline ∈ driver.dueAt, Instant.limit ≤ deadline

/-- The wait before a rising edge. -/
def pause (driver : TapDriver) : List Exchange :=
  match driver.dueAt with
  | some deadline => [⟨.wait deadline driver.spinThreshold, ()⟩]
  | none => []

/-- It leaves the bus alone. -/
theorem isQuiet_of_mem_pause (driver : TapDriver) :
    ∀ exchange ∈ driver.pause, exchange.call.IsQuiet := by
  unfold pause
  split <;> simp [Call.IsQuiet]

theorem isIdle_of_mem_pause (driver : TapDriver) :
    ∀ exchange ∈ driver.pause, Lines.IsIdle exchange :=
  fun exchange hmem => Lines.isIdle_of_isQuiet (driver.isQuiet_of_mem_pause exchange hmem) _

/-- It samples nothing. -/
theorem levels_pause (driver : TapDriver) : levels driver.pause = [] := by
  unfold pause
  split <;> rfl

/-- It cannot fail. -/
theorem flawless_pause (driver : TapDriver) : Flawless driver.pause :=
  fun exchange hmem => Exchange.succeeds_of_isQuiet (driver.isQuiet_of_mem_pause exchange hmem)

/-- Both levels are set up and the clock line is low. -/
def setUp (tms tdi : Bool) : List Exchange :=
  [⟨.write .tms tms, .ok ()⟩, ⟨.write .tdi tdi, .ok ()⟩, ⟨.write .tck false, .ok ()⟩]

/-- The failure of an operation on the bus stops a clock. -/
def hardware (error : IoError) : Except Halt Bool :=
  .error (.failed (.hardware error))

/-- The ways in which a clock can go. -/
inductive ClockCourse (tms tdi : Bool) (driver : TapDriver) :
    List Exchange → Except Halt Bool → TapDriver → Prop where
  | tmsFails (error) :
      ClockCourse tms tdi driver [⟨.write .tms tms, .error error⟩] (hardware error) driver
  | tdiFails (error) :
      ClockCourse tms tdi driver
        [⟨.write .tms tms, .ok ()⟩, ⟨.write .tdi tdi, .error error⟩] (hardware error) driver
  | lowFails (error) :
      ClockCourse tms tdi driver
        [⟨.write .tms tms, .ok ()⟩, ⟨.write .tdi tdi, .ok ()⟩, ⟨.write .tck false, .error error⟩]
        (hardware error) driver
  | overdue (hdue : driver.EdgeOverdue) :
      ClockCourse tms tdi driver (setUp tms tdi) (.error .deadlineOverflow) driver
  | riseFails (error) (hdue : ¬ driver.EdgeOverdue) :
      ClockCourse tms tdi driver
        (setUp tms tdi ++ (driver.pause ++ [⟨.write .tck true, .error error⟩]))
        (hardware error) driver
  | sampleFails (instant error) (hdue : ¬ driver.EdgeOverdue) :
      ClockCourse tms tdi driver
        (setUp tms tdi ++ (driver.pause ++
          [⟨.write .tck true, .ok ()⟩, ⟨.now, instant⟩, ⟨.read .tdo, .error error⟩]))
        (hardware error) (driver.afterEdge tms instant)
  | sampled (instant level) (hdue : ¬ driver.EdgeOverdue) :
      ClockCourse tms tdi driver
        (setUp tms tdi ++ (driver.pause ++
          [⟨.write .tck true, .ok ()⟩, ⟨.now, instant⟩, ⟨.read .tdo, .ok level⟩]))
        (.ok level) (driver.afterEdge tms instant)

variable {tms tdi : Bool} {driver driver' : TapDriver} {exchanges : List Exchange}

/-- A rising edge is waited for, unless it is overdue. -/
theorem waitForEdge_course {result : Except Halt Unit}
    (h : waitForEdge.Course driver exchanges result driver') :
    driver' = driver ∧
      ((driver.EdgeOverdue ∧ result = .error .deadlineOverflow ∧ exchanges = []) ∨
      (¬ driver.EdgeOverdue ∧ result = .ok () ∧ exchanges = driver.pause)) := by
  change Dialogue.Course (waitForEdge driver) exchanges (result, driver') at h
  unfold waitForEdge at h
  split at h
  · rename_i delay rise hdelay hrise
    have hdueAt : driver.dueAt = some (rise + delay) := by rw [dueAt, hdelay, hrise]
    obtain ⟨rfl, ⟨hlt, rfl, rfl⟩ | ⟨hge, rfl, rfl⟩⟩ := course_waitFor.mp h
    · refine ⟨rfl, .inr ⟨?_, rfl, by rw [pause, hdueAt]⟩⟩
      intro hdue
      obtain ⟨deadline, hdeadline, hlimit⟩ := hdue
      cases hdueAt.symm.trans hdeadline
      omega
    · exact ⟨rfl, .inl ⟨⟨rise + delay, hdueAt, hge⟩, rfl, rfl⟩⟩
  · rename_i hnone
    have hdueAt : driver.dueAt = none := by
      unfold dueAt
      split
      · rename_i delay rise hdelay hrise
        exact absurd hrise (hnone delay rise hdelay)
      · rfl
    obtain ⟨rfl, rfl, rfl⟩ := course_pure.mp h
    refine ⟨rfl, .inr ⟨?_, rfl, by rw [pause, hdueAt]⟩⟩
    intro hdue
    obtain ⟨deadline, hdeadline, -⟩ := hdue
    cases hdueAt.symm.trans hdeadline

/-- A write that fails stops what was to follow. -/
theorem write_bind_course {α : Type} {line : Line} {level : Bool} {f : Action TapDriver α}
    {result : Except Halt α}
    (h : Course (do Action.write line level; f) driver exchanges result driver') :
    (∃ error, exchanges = [⟨.write line level, .error error⟩] ∧
      result = .error (.failed (.hardware error)) ∧ driver' = driver) ∨
    (∃ rest, f.Course driver rest result driver' ∧
      exchanges = ⟨.write line level, .ok ()⟩ :: rest) := by
  rcases course_bind.mp h with ⟨first, rest, x, middle, hfirst, hrest, rfl⟩ | ⟨reason, hstop, rfl⟩
  · obtain ⟨answer, rfl, hanswer, rfl⟩ := course_write.mp hfirst
    cases answer with
    | error error => cases hanswer
    | ok u => exact .inr ⟨rest, hrest, rfl⟩
  · obtain ⟨answer, rfl, hanswer, rfl⟩ := course_write.mp hstop
    cases answer with
    | error error =>
      cases hanswer
      exact .inl ⟨error, rfl, rfl, rfl⟩
    | ok u => cases hanswer

/-- What a clock does after its rising edge. -/
def completeClock (tms : Bool) : Action TapDriver Bool := do
  let instant ← Action.now
  Action.modify (afterEdge tms instant)
  Action.read .tdo

/-- After its rising edge a clock counts, whether or not the answer can be sampled. -/
theorem completeClock_course {result : Except Halt Bool}
    (h : (completeClock tms).Course driver exchanges result driver') :
    ∃ instant, driver' = driver.afterEdge tms instant ∧
      ((∃ error, exchanges = [⟨.now, instant⟩, ⟨.read .tdo, .error error⟩] ∧
        result = hardware error) ∨
      (∃ level, exchanges = [⟨.now, instant⟩, ⟨.read .tdo, .ok level⟩] ∧
        result = .ok level)) := by
  obtain ⟨instant, rest, rfl, hrest⟩ := course_ask_bind.mp h
  obtain ⟨answer, rfl, rfl, rfl⟩ := course_read.mp (course_modify_bind.mp hrest)
  refine ⟨instant, rfl, ?_⟩
  cases answer with
  | error error => exact .inl ⟨error, rfl, rfl⟩
  | ok level => exact .inr ⟨level, rfl, rfl⟩

/-- There are no other ways. -/
theorem clock_course {result : Except Halt Bool}
    (h : (clock tms tdi).Course driver exchanges result driver') :
    ClockCourse tms tdi driver exchanges result driver' := by
  rcases write_bind_course h with ⟨error, rfl, rfl, rfl⟩ | ⟨afterTms, htms, rfl⟩
  · exact .tmsFails error
  rcases write_bind_course htms with ⟨error, rfl, rfl, rfl⟩ | ⟨afterTdi, htdi, rfl⟩
  · exact .tdiFails error
  rcases write_bind_course htdi with ⟨error, rfl, rfl, rfl⟩ | ⟨afterLow, hlow, rfl⟩
  · exact .lowFails error
  rcases course_bind.mp hlow with
    ⟨first, rest, x, middle, hwait, hrise, rfl⟩ | ⟨reason, hwait, rfl⟩
  · obtain ⟨rfl, ⟨-, hx, -⟩ | ⟨hdue, -, rfl⟩⟩ := waitForEdge_course hwait
    · cases hx
    rcases write_bind_course hrise with ⟨error, rfl, rfl, rfl⟩ | ⟨afterRise, hcomplete, rfl⟩
    · exact .riseFails error hdue
    obtain ⟨instant, rfl, ⟨error, rfl, rfl⟩ | ⟨level, rfl, rfl⟩⟩ := completeClock_course hcomplete
    · exact .sampleFails instant error hdue
    · exact .sampled instant level hdue
  · obtain ⟨rfl, ⟨hdue, hx, rfl⟩ | ⟨-, hx, -⟩⟩ := waitForEdge_course hwait
    · cases hx
      exact .overdue hdue
    · cases hx

/-- The device sees the edge of a clock, or nothing of a clock that stops before its edge. What the
driver knows afterwards is the same. -/
theorem clock_edges {result : Except Halt Bool}
    (h : (clock tms tdi).Course driver exchanges result driver') (lines : Lines) :
    (lines.edges exchanges = [⟨tms, tdi⟩] ∧ driver'.state = driver.state.next tms ∧
      driver'.pulses = driver.pulses + 1) ∨
    (lines.edges exchanges = [] ∧ driver'.state = driver.state ∧
      driver'.pulses = driver.pulses ∧ ∃ reason, result = .error reason) := by
  have hpause : ∀ (lines : Lines) rest, lines.edges (driver.pause ++ rest) = lines.edges rest :=
    fun lines rest => lines.edges_append_of_isIdle driver.isIdle_of_mem_pause rest
  have hsetUp : ∀ rest, lines.edges (setUp tms tdi ++ rest) =
      ({ tck := false, tms, tdi } : Lines).edges rest := fun rest => by
    simp [setUp, Lines.edges, Lines.rises, Lines.after, Lines.drive]
  cases clock_course h with
  | tmsFails | tdiFails | lowFails | overdue => exact .inr ⟨rfl, rfl, rfl, _, rfl⟩
  | riseFails error hdue =>
    refine .inr ⟨?_, rfl, rfl, _, rfl⟩
    rw [hsetUp, hpause]
    rfl
  | sampleFails instant error hdue =>
    refine .inl ⟨?_, rfl, rfl⟩
    rw [hsetUp, hpause]
    rfl
  | sampled instant level hdue =>
    refine .inl ⟨?_, rfl, rfl⟩
    rw [hsetUp, hpause]
    rfl

/-- If no operation on the bus fails, a clock returns the one level that it has sampled, unless its
edge is overdue. -/
theorem clock_flawless {result : Except Halt Bool}
    (h : (clock tms tdi).Course driver exchanges result driver') (hflawless : Flawless exchanges)
    (lines : Lines) :
    (∃ level, result = .ok level ∧ levels exchanges = [level] ∧
      lines.edges exchanges = [⟨tms, tdi⟩]) ∨
    (result = .error .deadlineOverflow ∧ levels exchanges = [] ∧ lines.edges exchanges = []) := by
  have hedges := clock_edges h lines
  cases clock_course h with
  | tmsFails | tdiFails | lowFails | riseFails | sampleFails =>
    simp [Exchange.Succeeds] at hflawless
  | overdue hdue => exact .inr ⟨rfl, rfl, rfl⟩
  | sampled instant level hdue =>
    rcases hedges with ⟨hedges, -, -⟩ | ⟨-, -, -, reason, hreason⟩
    · refine .inl ⟨level, rfl, ?_, hedges⟩
      rw [levels_append, levels_append, levels_pause]
      rfl
    · cases hreason

end TapDriver

end JtagPlayer
