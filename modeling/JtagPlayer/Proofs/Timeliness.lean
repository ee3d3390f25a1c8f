import JtagPlayer.Proofs.Abandonment

/-!
# Runs that are never abandoned

A player reads the clock at every rising edge and at the beginning of every idle period, and all
that it waits for are the durations that its program gives it, counted from such a reading. If
`bound` nanoseconds are left after each reading and no accepted duration is longer, no wait can be
overdue: `TapDriver.keepsTimely` is the law, and `Player.not_abandoned_of_isBrief` says what follows
for runs.
-/

namespace JtagPlayer

open JtagPlayer.Action

/-- Wherever the clock is read, `bound` nanoseconds are left before the last instant. -/
def LeavesRoom (bound : Nat) (exchanges : List Exchange) : Prop :=
  ∀ instant : Nat, (⟨.now, instant⟩ : Exchange) ∈ exchanges → instant + bound < Instant.limit

theorem leavesRoom_append {bound : Nat} {first second : List Exchange} :
    LeavesRoom bound (first ++ second) ↔ LeavesRoom bound first ∧ LeavesRoom bound second := by
  simp [LeavesRoom, or_imp, forall_and]

/-- The durations that an instruction is given are no longer than `bound`, if they are accepted. -/
def Instruction.IsBrief (bound : Nat) : Instruction → Prop
  | .setFrequency hz => ∀ delay, TapDriver.delayOf hz = .ok (some delay) → delay ≤ bound
  | .runTest test => ∀ minTime, Duration.ofSeconds? test.minTime = some minTime → minTime ≤ bound
  | _ => True

namespace TapDriver

variable {driver driver' : TapDriver} {exchanges : List Exchange}

/-- The clock rate is not too low for an edge to be due in time. -/
structure IsTimely (bound : Nat) (driver : TapDriver) : Prop where
  delay : ∀ delay, driver.delay = some delay → delay ≤ bound
  lastRise : ∀ rise, driver.lastRise = some rise → rise + bound < Instant.limit

/-- A timely driver never waits for an instant that does not exist. -/
theorem IsTimely.not_edgeOverdue {bound : Nat} (h : driver.IsTimely bound) :
    ¬ driver.EdgeOverdue := by
  intro hdue
  obtain ⟨deadline, hdeadline, hlimit⟩ := hdue
  cases hdelay : driver.delay with
  | none => simp [dueAt, hdelay] at hdeadline
  | some delay =>
    cases hrise : driver.lastRise with
    | none => simp [dueAt, hdelay, hrise] at hdeadline
    | some rise =>
      have heq : rise + delay = deadline := by simpa [dueAt, hdelay, hrise] using hdeadline
      have hle := h.delay delay hdelay
      have hlt := h.lastRise rise hrise
      omega

/-- A timely driver remains timely where the clock leaves room. -/
def keepsTimely (bound : Nat) : Law TapDriver := fun driver exchanges _ driver' =>
  LeavesRoom bound exchanges → driver.IsTimely bound → driver'.IsTimely bound

/-- A driver stays timely from clock to clock, as the last edge comes at an instant that leaves room
for the delay. -/
theorem keepsTimely_obeys (bound : Nat) : Obeys (keepsTimely bound) where
  refl _ _ h := h
  fail _ _ _ h := h
  quiet _ _ _ _ _ h := h
  trans := by
    intro driver middle driver' first second reason hfirst hsecond hroom htimely
    obtain ⟨hroom, hroom'⟩ := leavesRoom_append.mp hroom
    exact hsecond hroom' (hfirst hroom htimely)
  clock tms tdi driver exchanges result driver' hcourse := by
    intro hroom htimely
    cases clock_course hcourse with
    | tmsFails | tdiFails | lowFails | overdue | riseFails => exact htimely
    | sampleFails instant | sampled instant =>
      refine ⟨htimely.delay, fun rise hrise => ?_⟩
      cases hrise
      exact hroom instant (by simp)

/-- A new clock rate keeps a driver timely if its delay is brief. -/
theorem setFrequency_timely {bound : Nat} {hz : Float}
    (hbrief : ∀ delay, delayOf hz = .ok (some delay) → delay ≤ bound) :
    (setFrequency hz).Upholds (keepsTimely bound) := by
  intro driver exchanges result driver' hcourse
  rcases course_bind.mp hcourse with
    ⟨first, rest, delay, middle, hdelay, hmodify, rfl⟩ | ⟨reason, hstop, rfl⟩
  · obtain ⟨rfl, hresult, rfl⟩ := course_ofParameter.mp hdelay
    obtain ⟨rfl, rfl, rfl⟩ := course_modify.mp hmodify
    intro hroom htimely
    refine ⟨fun span hspan => hbrief span ?_, htimely.lastRise⟩
    cases hz : delayOf hz with
    | error error =>
      rw [hz] at hresult
      cases hresult
    | ok given =>
      rw [hz] at hresult
      cases hresult
      exact congrArg Except.ok hspan
  · obtain ⟨rfl, -, rfl⟩ := course_ofParameter.mp hstop
    exact fun _ htimely => htimely

end TapDriver

namespace Player

variable {session session' : Session} {exchanges : List Exchange}

/-- An instruction that is brief leaves a timely driver timely. -/
theorem execute_timely {bound : Nat} {instruction : Instruction}
    (hbrief : instruction.IsBrief bound) :
    (execute instruction).Upholds (lawOfTap (TapDriver.keepsTimely bound)) := by
  have hobeys := ObeysPlain.ofTap (TapDriver.keepsTimely_obeys bound)
  refine execute_upholds_of hobeys instruction ?_ ?_ ?_
  · intro hz hfrequency
    subst hfrequency
    refine upholds_bind hobeys.toComposes
      (onTap_upholds_lawOfTap (TapDriver.setFrequency_timely hbrief)) fun _ => ?_
    exact upholds_get_then fun session => upholds_note hobeys.toComposes _
  · intro register delta label _
    exact scan_upholds hobeys (fun _ _ _ h => h) register delta label
  · intro test _
    exact runTest_upholds_of_clock hobeys (fun _ _ h => h) test

/-- A stage of a timely driver is not overdue. -/
theorem not_isOverdue_of_timely {bound : Nat} {instruction : Instruction}
    {result : Except Halt Unit} (h : (execute instruction).Course session exchanges result session')
    (hbrief : instruction.IsBrief bound) (hroom : LeavesRoom bound exchanges)
    (htimely : session.tap.IsTimely bound) :
    ¬ (⟨instruction, session, exchanges, result, session'⟩ : Stage).IsOverdue := by
  intro hoverdue
  rcases hoverdue with
    ⟨-, hdue⟩ | ⟨test, hinstruction, -, -, start, minTime, hstart, hminTime, hlimit⟩
  · exact (execute_timely hbrief h hroom htimely).not_edgeOverdue hdue
  · cases hinstruction
    have hle := hbrief minTime hminTime
    have hlt : start + bound < Instant.limit := hroom start (List.mem_of_mem_head? hstart)
    omega

/-- In a program of brief instructions no stage ends overdue, by induction on the stages with the
driver timely before each. -/
theorem Unfolds.not_isOverdue {bound : Nat} {program : List Instruction} {stages : List Stage}
    {result : Except Halt Unit} (h : Unfolds program session stages result session')
    (hbrief : ∀ instruction ∈ program, instruction.IsBrief bound) (index : Nat)
    (hroom : LeavesRoom bound (said index stages)) (htimely : session.tap.IsTimely bound) :
    ∀ stage ∈ stages, ¬ stage.IsOverdue := by
  induction h generalizing index with
  | done session => simp
  | @stops instruction program session exchanges reason session' hstage =>
    have hroom' : LeavesRoom bound exchanges := fun instant hinstant =>
      hroom instant (by simp [said, hinstant])
    have hfirst := not_isOverdue_of_timely hstage (hbrief instruction (by simp)) hroom' htimely
    simpa using hfirst
  | @goesOn instruction program session exchanges middle stages result session' hstage hrest ih =>
    have hroom' : LeavesRoom bound exchanges := fun instant hinstant =>
      hroom instant (by simp [said, hinstant])
    have hfirst := not_isOverdue_of_timely hstage (hbrief instruction (by simp)) hroom' htimely
    have hmiddle := execute_timely (hbrief instruction (by simp)) hstage hroom' htimely
    have hlater := ih (fun other hother => hbrief other (by simp [hother])) (index + 1)
      (fun instant hinstant => hroom instant (by simp [said, hinstant])) hmiddle
    simpa [hfirst] using hlater

/-- A run of brief instructions whose instants leave room is never overdue. -/
theorem RunCourse.not_isOverdue {bound : Nat} {config : PlayerConfig} {program : List Instruction}
    {performance : Performance} {outcome : RunOutcome}
    (h : RunCourse config program performance exchanges outcome)
    (hbrief : ∀ instruction ∈ program, instruction.IsBrief bound)
    (hroom : LeavesRoom bound exchanges) : ∀ stage ∈ performance.stages, ¬ stage.IsOverdue := by
  cases h with
  | unstarted | unready => simp
  | @ready start resetting session stages result session' closing outcome hreset hstages hfinish =>
    have hroom' : LeavesRoom bound resetting ∧ LeavesRoom bound (said 0 stages) := by
      simp_all [leavesRoom_append]
    have hinitial : (Session.initial config).tap.IsTimely bound := ⟨nofun, nofun⟩
    have hready := onTap_upholds_lawOfTap
      (TapDriver.reset_upholds (TapDriver.keepsTimely_obeys bound)) hreset hroom'.1 hinitial
    exact hstages.not_isOverdue hbrief 0 hroom'.2 hready

/-- Where all durations are short enough for the readings of the clock, no run is abandoned, and the
bus is released as often as it was acquired. -/
theorem not_abandoned_of_isBrief {β τ : Type} [Bus β] [Clock τ] (bench : Bench β τ)
    (config : PlayerConfig) (program : List Instruction) {bound : Nat}
    (hbrief : ∀ instruction ∈ program, instruction.IsBrief bound)
    (hroom : LeavesRoom bound ((run config program).transcript bench)) :
    ((run config program).play bench).1 ≠ .abandoned ∧
      releases ((run config program).transcript bench) =
        acquisitions ((run config program).transcript bench) := by
  have hcourse := run_course config program bench
  obtain ⟨habandoned, -, hreleases⟩ := hcourse.abandons
  have hends : ((run config program).play bench).1 ≠ .abandoned := by
    intro houtcome
    obtain ⟨stage, hstage, hoverdue⟩ := habandoned.mp houtcome
    exact hcourse.not_isOverdue hbrief hroom stage hstage hoverdue
  exact ⟨hends, (hreleases hends).2⟩

end Player

end JtagPlayer
