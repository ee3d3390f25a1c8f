import JtagPlayer.Proofs.Chronicle
import JtagPlayer.Proofs.Settings
import JtagPlayer.Proofs.Stopping
import JtagPlayer.Proofs.Tracking
import Mathlib.Data.List.Chain

/-!
# How far rising edges are apart

Three different times belong to a rising edge: when the write that makes it began and was over, and
the reading that the driver takes afterwards and counts its delay from. The reading is not before
the end of the write, `TapDriver.Spaces`, and the write of the next edge does not begin before the
wait for it is over. So two edges are as far apart as the delay asks for, whatever goes wrong in
between: `TapDriver.spaces` is the law, for as long as the delay stays the same.

A driver whose delay changes goes through several `Leg`s, one for each operation or instruction.
`Player.edges_apart` says that all edges of a driver are apart by the delay in force at the later
one.
-/

namespace JtagPlayer

open JtagPlayer.Action

/-- The later edge begins no sooner after the end of the earlier one than the delay in force at the
later one allows. -/
def TimedEdge.Apart (earlier later : TimedEdge) : Prop :=
  ∀ delay, later.delay = some delay → earlier.ended + delay ≤ later.began

namespace TapDriver

/-- The edges that a driver has given so far are apart, and it remembers a time not before the end
of the last one. -/
structure Spaces (driver : TapDriver) (edges : List TimedEdge) : Prop where
  apart : edges.IsChain TimedEdge.Apart
  remembers : ∀ edge ∈ edges.getLast?, ∃ rise, driver.lastRise = some rise ∧ edge.ended ≤ rise

theorem spaces_nil (driver : TapDriver) : driver.Spaces [] where
  apart := .nil
  remembers := nofun

/-- The next edge of a driver that spaces its edges, if it is waited for and its time is taken. -/
theorem Spaces.push {driver : TapDriver} {edges : List TimedEdge} (h : driver.Spaces edges)
    {edge : TimedEdge} (hdelay : edge.delay = driver.delay)
    (hdue : ∀ deadline ∈ driver.dueAt, deadline ≤ edge.began) {instant : Nat}
    (hended : edge.ended ≤ instant) (tms : Bool) :
    (driver.afterEdge tms instant).Spaces (edges ++ [edge]) where
  apart := by
    refine List.isChain_append.mpr ⟨h.apart, .singleton edge, ?_⟩
    intro earlier hearlier later hlater delay hlaterDelay
    cases hlater
    obtain ⟨rise, hrise, hle⟩ := h.remembers earlier hearlier
    have hdeadline := hdue (rise + delay) (by rw [dueAt, ← hdelay, hlaterDelay, hrise]; rfl)
    omega
  remembers last hlast := by
    rw [List.getLast?_concat] at hlast
    cases hlast
    exact ⟨instant, rfl, hended⟩

/-- Wherever the edges that the driver has given before are apart, those that it gives during these
exchanges are as well, if its delay stays what it is. -/
def KeepsApart (driver : TapDriver) (exchanges : List Exchange) (driver' : TapDriver) : Prop :=
  ∀ moments, moments.map Moment.exchange = exchanges → Chronological moments →
    ∀ (lines : Lines) (edges : List TimedEdge), driver.Spaces edges →
      driver'.Spaces (edges ++ lines.timedEdges driver.delay moments)

/-- The delay stays what it is, and the edges are apart. -/
def spaces : Law TapDriver := fun driver exchanges _ driver' =>
  driver'.delay = driver.delay ∧ driver.KeepsApart exchanges driver'

/-- Exchanges that make no edge keep the edges apart, also if the delay changes meanwhile. -/
theorem keepsApart_of_still {driver driver' : TapDriver} {exchanges : List Exchange}
    (h : ∀ lines : Lines, lines.edges exchanges = []) (hrise : driver'.lastRise = driver.lastRise) :
    driver.KeepsApart exchanges driver' := by
  intro moments hmoments _ lines edges hedges
  rw [Lines.timedEdges_eq_nil (by rw [hmoments, h]), List.append_nil]
  exact ⟨hedges.apart, hrise ▸ hedges.remembers⟩

theorem spaces_of_still {driver : TapDriver} {exchanges : List Exchange} {reason : Option Halt}
    (h : ∀ lines : Lines, lines.edges exchanges = []) : spaces driver exchanges reason driver :=
  ⟨rfl, keepsApart_of_still h rfl⟩

/-- The edges stay apart over two stretches, the first of which does not change the delay. -/
theorem KeepsApart.append {driver middle driver' : TapDriver} {first second : List Exchange}
    (hfirst : driver.KeepsApart first middle) (hdelay : middle.delay = driver.delay)
    (hsecond : middle.KeepsApart second driver') :
    driver.KeepsApart (first ++ second) driver' := by
  intro moments hmoments htimes lines edges hedges
  obtain ⟨before, after, rfl, hbefore, hafter⟩ := List.map_eq_append_iff.mp hmoments
  obtain ⟨htimes, htimes'⟩ := chronological_append htimes
  have hmiddle := hfirst before hbefore htimes lines edges hedges
  have hspaces := hsecond after hafter htimes' (lines.watch first) _ hmiddle
  rw [hdelay] at hspaces
  rw [Lines.timedEdges_append, hbefore, ← List.append_assoc]
  exact hspaces

/-- The moments of the wait for a rising edge, and of nothing if there is none. -/
theorem deadline_le_of_pause {driver : TapDriver} {pausing later : List Moment}
    (hpausing : pausing.map Moment.exchange = driver.pause)
    (htimes : Chronological (pausing ++ later)) {deadline : Nat}
    (hdue : driver.dueAt = some deadline) :
    ∀ moment ∈ later, deadline ≤ moment.began := by
  rw [pause, hdue] at hpausing
  obtain ⟨wait, rest, rfl, hwait, hrest⟩ := List.map_eq_cons_iff.mp hpausing
  obtain rfl := List.map_eq_nil_iff.mp hrest
  have hended := (htimes.timely wait (by simp)).exchange
  rw [hwait] at hended
  intro moment hmem
  exact Nat.le_trans hended ((List.pairwise_cons.mp htimes.ordered).1 moment hmem)

/-- A clock that gives its edge does not begin it before it is due, and takes its time when it is
over. -/
theorem timedEdges_rise {driver : TapDriver} {tms tdi : Bool} {instant : Nat}
    {answer : Except IoError Bool} {moments : List Moment}
    (hmoments : moments.map Moment.exchange = setUp tms tdi ++ (driver.pause ++
      [⟨.write .tck true, .ok ()⟩, ⟨.now, instant⟩, ⟨.read .tdo, answer⟩]))
    (htimes : Chronological moments) (lines : Lines) :
    ∃ edge : TimedEdge, lines.timedEdges driver.delay moments = [edge] ∧
      edge.delay = driver.delay ∧ (∀ deadline ∈ driver.dueAt, deadline ≤ edge.began) ∧
      edge.ended ≤ instant := by
  obtain ⟨settingUp, later, rfl, hsetUp, hlater⟩ := List.map_eq_append_iff.mp hmoments
  obtain ⟨pausing, later, rfl, hpausing, hlater⟩ := List.map_eq_append_iff.mp hlater
  obtain ⟨rise, later, rfl, hrise, hlater⟩ := List.map_eq_cons_iff.mp hlater
  obtain ⟨look, later, rfl, hlook, hlater⟩ := List.map_eq_cons_iff.mp hlater
  have htimes' := (chronological_append htimes).2
  have hlooked := ((chronological_append htimes').2.timely look (by simp)).exchange
  have hordered := (List.pairwise_cons.mp (chronological_append htimes').2.ordered).1 look (by simp)
  rw [hlook] at hlooked
  have hsettingUp : lines.edges (settingUp.map Moment.exchange) = [] := by rw [hsetUp]; rfl
  have hpaused : ∀ lines : Lines, lines.edges (pausing.map Moment.exchange) = [] :=
    fun lines => hpausing ▸ lines.edges_eq_nil_of_isIdle driver.isIdle_of_mem_pause
  have hlast : ∀ lines : Lines, lines.edges ((look :: later).map Moment.exchange) = [] := by
    intro lines
    rw [List.map_cons, hlater, hlook]
    rfl
  refine ⟨⟨⟨tms, tdi⟩, driver.delay, rise.began, rise.ended⟩, ?_, rfl, ?_,
    Nat.le_trans hordered hlooked.1⟩
  · rw [Lines.timedEdges_append, Lines.timedEdges_append, Lines.timedEdges_eq_nil hsettingUp,
      Lines.timedEdges_eq_nil (hpaused _), hsetUp, hpausing, Lines.timedEdges,
      Lines.timedEdges_eq_nil (hlast _), hrise,
      Lines.watch_eq_of_isIdle _ driver.isIdle_of_mem_pause]
    rfl
  · intro deadline hdeadline
    exact deadline_le_of_pause hpausing htimes' hdeadline rise (by simp)

theorem clock_spaces (tms tdi : Bool) : (clock tms tdi).Upholds spaces := by
  intro driver exchanges result driver' hcourse
  have hedges := fun lines => clock_edges hcourse lines
  cases clock_course hcourse with
  | tmsFails | tdiFails | lowFails | overdue | riseFails =>
    refine spaces_of_still fun lines => ?_
    rcases hedges lines with ⟨-, -, hpulses⟩ | ⟨hnone, -⟩
    · omega
    · exact hnone
  | sampleFails instant | sampled instant =>
    refine ⟨rfl, fun moments hmoments htimes lines edges hspaces => ?_⟩
    obtain ⟨edge, hedge, hdelay, hdue, hended⟩ := timedEdges_rise hmoments htimes lines
    rw [hedge]
    exact hspaces.push hdelay hdue hended tms

theorem spaces_obeys : Obeys spaces where
  refl _ := spaces_of_still fun _ => rfl
  fail _ _ := spaces_of_still fun _ => rfl
  quiet _ _ answer hquiet :=
    spaces_of_still fun lines =>
      Lines.edges_cons_of_isIdle lines (Lines.isIdle_of_isQuiet hquiet answer) []
  trans hfirst hsecond :=
    ⟨hsecond.1.trans hfirst.1, hfirst.2.append hfirst.1 hsecond.2⟩
  clock := clock_spaces

/-- Every operation keeps the edges apart, and only a change of the clock rate changes the delay. -/
theorem perform_keepsApart (operation : Operation) {driver driver' : TapDriver}
    {exchanges : List Exchange} {result : Except Halt Unit}
    (h : operation.perform.Course driver exchanges result driver') :
    driver.KeepsApart exchanges driver' := by
  cases operation with
  | setFrequency hz =>
    change (setFrequency hz driver).Course exchanges (result, driver') at h
    rw [setFrequency_eq] at h
    cases hdelay : delayOf hz with
    | error error | ok delay =>
      rw [hdelay] at h
      obtain ⟨rfl, hends⟩ := Dialogue.course_done.mp h
      cases hends
      exact keepsApart_of_still (fun _ => rfl) rfl
  | clock tms tdi =>
    exact (upholds_bind spaces_obeys.toComposes (clock_spaces tms tdi)
      (fun _ => upholds_pure spaces_obeys.toComposes ()) h).2
  | clockWord word => exact (clockWord_upholds spaces_obeys word h).2
  | reset => exact (reset_upholds spaces_obeys h).2
  | routeTo target => exact (routeTo_upholds spaces_obeys target h).2
  | stepTo target => exact (stepTo_upholds spaces_obeys target h).2

end TapDriver

section Legs

variable {σ β τ : Type} [Bus β] [Clock τ]

/-- The legs of some steps on a bench. Each begins where the one before it ended, as long as there
is a reason to go on. The driver is a part of the state that the steps work on. -/
def legs (tap : σ → TapDriver) (goesOn : Except Halt Unit → Bool) :
    List (Action σ Unit) → σ → Bench β τ → List Leg
  | [], _, _ => []
  | step :: steps, s, bench =>
    let played := (step s).play bench
    { delay := (tap s).delay, moments := (step s).history bench } ::
      if goesOn played.1.1 then legs tap goesOn steps played.1.2 played.2 else []

/-- If every step keeps the edges apart, they are apart over all legs. -/
theorem spaces_legs {tap : σ → TapDriver} {goesOn : Except Halt Unit → Bool}
    {steps : List (Action σ Unit)}
    (hsteps : ∀ step ∈ steps, ∀ ⦃s exchanges result s'⦄, step.Course s exchanges result s' →
      (tap s).KeepsApart exchanges (tap s'))
    (s : σ) (bench : Bench β τ) (lines : Lines) {edges : List TimedEdge}
    (hedges : (tap s).Spaces edges) :
    (edges ++ lines.edgesOf (legs tap goesOn steps s bench)).IsChain TimedEdge.Apart := by
  induction steps generalizing s bench lines edges with
  | nil =>
    rw [legs, Lines.edgesOf, List.append_nil]
    exact hedges.apart
  | cons step steps ih =>
    have hcourse := Dialogue.course_transcript (step s) bench
    have hspaces := hsteps step (by simp) hcourse _ (Dialogue.map_exchange_history (step s) bench)
      (Dialogue.chronological_history (step s) bench).1 lines edges hedges
    rw [legs, Lines.edgesOf, ← List.append_assoc]
    split
    · exact ih (fun other hother => hsteps other (by simp [hother])) _ _ _ hspaces
    · rw [Lines.edgesOf, List.append_nil]
      exact hspaces.apart

/-- No edges have been given before the first leg. -/
theorem isChain_legs {tap : σ → TapDriver} {goesOn : Except Halt Unit → Bool}
    {steps : List (Action σ Unit)}
    (hsteps : ∀ step ∈ steps, ∀ ⦃s exchanges result s'⦄, step.Course s exchanges result s' →
      (tap s).KeepsApart exchanges (tap s'))
    (s : σ) (bench : Bench β τ) (lines : Lines) :
    (lines.edgesOf (legs tap goesOn steps s bench)).IsChain TimedEdge.Apart :=
  spaces_legs hsteps s bench lines (TapDriver.spaces_nil (tap s))

end Legs

namespace TapDriver

variable {β τ : Type} [Bus β] [Clock τ]

/-- Operations go on until a deadline lies beyond the last instant. -/
def goesOn : Except Halt Unit → Bool
  | .error .deadlineOverflow => false
  | _ => true

/-- The legs of some operations are what they say. -/
theorem exchanges_legs (operations : List Operation) (driver : TapDriver) (bench : Bench β τ) :
    (legs id goesOn (operations.map Operation.perform) driver bench).flatMap Leg.exchanges =
      (performAll operations driver).transcript bench := by
  induction operations generalizing driver bench with
  | nil => rfl
  | cons operation operations ih =>
    rw [List.map_cons, legs, List.flatMap_cons, Leg.exchanges, Dialogue.map_exchange_history]
    show _ = Dialogue.transcript (Dialogue.bind (operation.perform driver) _) bench
    rw [Dialogue.transcript_bind]
    congr 1
    generalize (operation.perform driver).play bench = played
    obtain ⟨⟨outcome, driver'⟩, bench'⟩ := played
    match outcome with
    | .error .deadlineOverflow => rfl
    | .error (.failed error) => exact ih driver' bench'
    | .ok () => exact ih driver' bench'

end TapDriver

namespace Player

variable {session session' : Session} {exchanges : List Exchange} {result : Except Halt Unit}

/-- Every instruction keeps the edges apart, and only a change of the clock rate changes the
delay. -/
theorem execute_keepsApart {instruction : Instruction}
    (h : (execute instruction).Course session exchanges result session') :
    session.tap.KeepsApart exchanges session'.tap := by
  by_cases hfrequency : ∃ hz, instruction = .setFrequency hz
  · obtain ⟨hz, rfl⟩ := hfrequency
    rcases setFrequency_course h with ⟨error, -, rfl, -, rfl⟩ | ⟨delay, -, rfl, -, rfl⟩
    · exact TapDriver.keepsApart_of_still (fun _ => rfl) rfl
    · exact TapDriver.keepsApart_of_still (fun _ => rfl) rfl
  · have hobeys := ObeysPlain.ofTap TapDriver.spaces_obeys
    refine (execute_upholds_of hobeys instruction ?_ ?_ ?_ h).2
    · exact fun hz heq => absurd ⟨hz, heq⟩ hfrequency
    · intro register delta label _
      exact scan_upholds hobeys (fun session _ => TapDriver.spaces_obeys.refl session.tap) register
        delta label
    · intro test _
      exact runTest_upholds_of_clock hobeys
        (fun session => TapDriver.spaces_of_still fun _ => rfl) test

/-- An instruction with its announcement. -/
def announced (index : Nat) (instruction : Instruction) : Action Session Unit := do
  Action.note (.instruction instruction.name index)
  execute instruction

/-- The instructions of a program, the first of which is number `index`. -/
def steps : Nat → List Instruction → List (Action Session Unit)
  | _, [] => []
  | index, instruction :: program => announced index instruction :: steps (index + 1) program

theorem steps_keepApart {index : Nat} {program : List Instruction} {step : Action Session Unit}
    (hstep : step ∈ steps index program)
    (h : step.Course session exchanges result session') :
    session.tap.KeepsApart exchanges session'.tap := by
  induction program generalizing index with
  | nil => cases hstep
  | cons instruction program ih =>
    rcases List.mem_cons.mp hstep with rfl | hlater
    · obtain ⟨⟨⟩, rest, rfl, hexecute⟩ := course_ask_bind.mp h
      have hnote : session.tap.KeepsApart [announcement index instruction] session.tap :=
        TapDriver.keepsApart_of_still (fun _ => rfl) rfl
      exact hnote.append rfl (execute_keepsApart hexecute)
    · exact ih hlater

section Bench

variable {β τ : Type} [Bus β] [Clock τ]

/-- The legs of steps that go on only if they end well are what is said in these steps. -/
theorem exchanges_legs_cons (step : Action Session Unit) {rest : Action Session Unit}
    {steps : List (Action Session Unit)}
    (hrest : ∀ session (bench : Bench β τ),
      (legs Session.tap Except.isOk steps session bench).flatMap Leg.exchanges =
        (rest session).transcript bench) (session : Session) (bench : Bench β τ) :
    (legs Session.tap Except.isOk (step :: steps) session bench).flatMap Leg.exchanges =
      ((step >>= fun _ => rest) session).transcript bench := by
  rw [legs, List.flatMap_cons, Leg.exchanges, Dialogue.map_exchange_history]
  rcases hplayed : ((step session).play bench).1 with ⟨_ | _, middle⟩
  · rw [transcript_bind_of_error hplayed]
    exact List.append_nil _
  · rw [transcript_bind_of_ok hplayed]
    exact congrArg _ (hrest middle _)

theorem exchanges_steps (index : Nat) (program : List Instruction) (session : Session)
    (bench : Bench β τ) :
    (legs Session.tap Except.isOk (steps index program) session bench).flatMap Leg.exchanges =
      (executeFrom index program session).transcript bench := by
  induction program generalizing index session bench with
  | nil => rfl
  | cons instruction program ih => exact exchanges_legs_cons _ (ih (index + 1)) session bench

/-- The legs of a run: the reset of the device and one leg for each instruction. -/
def runLegs (config : PlayerConfig) (program : List Instruction) (bench : Bench β τ) : List Leg :=
  match acquired program bench with
  | (.error _, _) => []
  | (.ok (), ready) =>
    legs Session.tap Except.isOk (onTap TapDriver.reset :: steps 0 program) (.initial config) ready

/-- All edges of a run belong to one of its legs. -/
theorem edges_runLegs (config : PlayerConfig) (program : List Instruction) (bench : Bench β τ)
    (lines : Lines) :
    (lines.edgesOf (runLegs config program bench)).map TimedEdge.edge =
      lines.edges ((run config program).transcript bench) := by
  have hrun := run_acquired config program bench
  rw [Lines.map_edge_edgesOf, runLegs]
  generalize (bench.answer .now).1 = start at hrun
  generalize acquired program bench = answered at hrun ⊢
  obtain ⟨_ | _, ready⟩ := answered
  · rw [hrun.2]
    rfl
  · have hlegs := exchanges_legs_cons (onTap TapDriver.reset) (exchanges_steps 0 program)
      (.initial config) ready
    have hclosing := finish_course (Dialogue.course_transcript (finish start
      ((executeAll program (.initial config)).play ready).1.2
      ((executeAll program (.initial config)).play ready).1.1)
      ((executeAll program (.initial config)).play ready).2)
    rw [hrun.2, (runAcquired_ok config program start ready).2, edges_run hclosing.isIdle]
    exact congrArg _ hlegs

/-- Rising edges are spaced. On every bus and every clock, and whatever fails: all edges that the
device sees during a run, or during operations on one driver, are apart. An edge for which a delay
is in force begins no sooner than that after the end of the one before it. A wait does not end
before its deadline. -/
theorem edges_apart (bench : Bench β τ) (lines : Lines) :
    (∀ config program,
      let edges := lines.edgesOf (runLegs config program bench)
      edges.map TimedEdge.edge = lines.edges ((run config program).transcript bench) ∧
        edges.IsChain TimedEdge.Apart) ∧
    (∀ operations spinThreshold,
      let driver : TapDriver := { spinThreshold }
      let edges := lines.edgesOf
        (legs id TapDriver.goesOn (operations.map TapDriver.Operation.perform) driver bench)
      edges.map TimedEdge.edge =
          lines.edges ((TapDriver.performAll operations driver).transcript bench) ∧
        edges.IsChain TimedEdge.Apart) ∧
    ∀ deadline spinThreshold (clock : τ),
      deadline ≤ Clock.now (Clock.waitUntil deadline spinThreshold clock) := by
  refine ⟨fun config program => ⟨edges_runLegs config program bench lines, ?_⟩,
    fun operations spinThreshold => ⟨?_, ?_⟩, Clock.le_now_waitUntil⟩
  · rw [runLegs]
    split
    · exact .nil
    · refine isChain_legs (fun step hstep => ?_) _ _ lines
      intro session exchanges result session' hcourse
      rcases List.mem_cons.mp hstep with rfl | hlater
      · obtain ⟨driver, hreset, rfl⟩ := onTap_course.mp hcourse
        exact (TapDriver.reset_upholds TapDriver.spaces_obeys hreset).2
      · exact steps_keepApart hlater hcourse
  · rw [Lines.map_edge_edgesOf, TapDriver.exchanges_legs]
  · refine isChain_legs (fun step hstep => ?_) _ bench lines
    intro driver exchanges result driver' hcourse
    obtain ⟨operation, -, rfl⟩ := List.mem_map.mp hstep
    exact TapDriver.perform_keepsApart operation hcourse

end Bench

end Player

end JtagPlayer
