import JtagPlayer.Bus.Pins
import JtagPlayer.Proofs.Responding
import JtagPlayer.Proofs.Stopping
import Mathlib.Data.List.Forall2

/-!
# Playing over pins

A `PinBus` drives the lines of a bus through four pins. It parks them at a low level when it is
acquired and when it is released, so between two runs its lines are not at the levels at which the
bus itself would have been left. This makes no difference to the device: the clock line is lowered
first, so parking makes no edge, and a run has itself driven whatever it relies on.

`Player.pins_transparent` compares a series of runs over the pins of a bus with the same series on
the bus. The bus never fails and answers by a rule, as a `Responding` bus does.
-/

namespace JtagPlayer

/-- A bus that never fails if its outputs are driven and its input is sampled. -/
structure Reliable (β : Type) [Bus β] : Prop where
  acquire : ∀ bus : β, (Bus.acquire bus).1 = .ok ()
  write : ∀ (bus : β) line level, line ≠ .tdo → (Bus.write line level bus).1 = .ok ()
  read : ∀ bus : β, ∃ level, (Bus.read .tdo bus).1 = .ok level

namespace Reliable

variable {α β τ : Type} [Bus β] [Clock τ]

theorem succeeds (h : Reliable β) (bench : Bench β τ) {c : Call} (hproper : c.IsProper) :
    Exchange.Succeeds ⟨c, (bench.answer c).1⟩ := by
  cases c with
  | acquire => exact Exchange.succeeds_acquire.mpr (h.acquire bench.bus)
  | write line level => exact Exchange.succeeds_write.mpr (h.write bench.bus line level hproper)
  | read line =>
    obtain rfl : line = .tdo := hproper
    exact Exchange.succeeds_read.mpr (h.read bench.bus)
  | release | now | wait | note => trivial

theorem flawless (h : Reliable β) (dialogue : Dialogue α) (bench : Bench β τ)
    (hproper : ∀ exchange ∈ dialogue.transcript bench, exchange.call.IsProper) :
    Flawless (dialogue.transcript bench) := by
  induction dialogue generalizing bench with
  | done result => exact flawless_nil
  | call c next ih =>
    obtain ⟨hfirst, hrest⟩ := List.forall_mem_cons.mp hproper
    exact flawless_cons.mpr ⟨h.succeeds bench hfirst, ih _ _ hrest⟩

end Reliable

/-- A bus that answers by rule and never fails. When it is acquired or released the lines may be
brought to any level, without an edge. -/
structure Responding (β : Type) [Bus β] (respond : Response) where
  /-- What the bus has been through. -/
  wires : β → Wires
  acquire : ∀ bus, (Bus.acquire bus).1 = .ok () ∧
    ∃ lines, wires (Bus.acquire bus).2 = { wires bus with lines }
  write : ∀ bus line level, line ≠ .tdo → (Bus.write line level bus).1 = .ok () ∧
    wires (Bus.write line level bus).2 = (wires bus).watch [⟨.write line level, .ok ()⟩]
  read : ∀ bus, (Bus.read .tdo bus).1 = .ok ((wires bus).answer respond) ∧
    wires (Bus.read .tdo bus).2 =
      (wires bus).watch [⟨.read .tdo, .ok ((wires bus).answer respond)⟩]
  release : ∀ bus, ∃ lines, wires (Bus.release bus) = { wires bus with lines }

/-- A bus that is nothing but wires with a rule. -/
structure RuleBus (respond : Response) where
  wires : Wires := {}
  deriving DecidableEq

namespace RuleBus

variable {respond : Response}

instance : Bus (RuleBus respond) where
  acquire bus := (.ok (), bus)
  write line level bus := (.ok (), ⟨bus.wires.watch [⟨.write line level, .ok ()⟩]⟩)
  read line bus :=
    let level := bus.wires.answer respond
    (.ok level, ⟨bus.wires.watch [⟨.read line, .ok level⟩]⟩)
  release bus := bus

def responding : Responding (RuleBus respond) respond where
  wires := RuleBus.wires
  acquire bus := ⟨rfl, bus.wires.lines, rfl⟩
  write _ _ _ _ := ⟨rfl, rfl⟩
  read _ := ⟨rfl, rfl⟩
  release bus := ⟨bus.wires.lines, rfl⟩

end RuleBus

namespace Responding

variable {α β β' τ : Type} [Bus β] [Bus β'] [Clock τ] {respond : Response}

/-- It is a bus that answers by rule. -/
def responsive (h : Responding β respond) : Responsive β respond where
  Shows bus wires := h.wires bus = wires
  acquire := by
    rintro bus wires rfl
    exact (h.acquire bus).2
  write := by
    rintro bus wires rfl line level hline
    exact ⟨_, rfl, fun _ => (h.write bus line level hline).2⟩
  read := by
    rintro bus wires rfl
    refine ⟨_, rfl, fun level hlevel => ?_⟩
    obtain ⟨hanswer, hwires⟩ := h.read bus
    obtain rfl := Except.ok.inj (hanswer.symm.trans hlevel)
    exact ⟨rfl, hwires⟩
  release := by
    rintro bus wires rfl
    exact h.release bus

/-- It never fails. -/
theorem reliable (h : Responding β respond) : Reliable β :=
  ⟨fun bus => (h.acquire bus).1, fun bus line level hline => (h.write bus line level hline).1,
    fun bus => ⟨_, (h.read bus).1⟩⟩

theorem flawless (h : Responding β respond) (dialogue : Dialogue α) (bench : Bench β τ)
    (hproper : ∀ exchange ∈ dialogue.transcript bench, exchange.call.IsProper) :
    Flawless (dialogue.transcript bench) :=
  h.reliable.flawless dialogue bench hproper

/-- Pins that are driven low, one after the other, are driven. -/
theorem lower_eq (h : Responding β respond) (lines : List Line) (hlines : .tdo ∉ lines)
    (pins : LinePins β) :
    (PinBus.lower lines pins).1 = .ok () ∧
      h.wires (PinBus.lower lines pins).2.bus =
        (h.wires pins.bus).watch (lines.map fun line => ⟨.write line false, .ok ()⟩) := by
  induction lines generalizing pins with
  | nil =>
    refine ⟨rfl, ?_⟩
    simp [PinBus.lower, Wires.watch, Lines.watch, levels]
  | cons line lines ih =>
    obtain ⟨hline, hrest⟩ := not_or.mp (mt List.mem_cons.mpr hlines)
    obtain ⟨hanswer, hwires⟩ := h.write pins.bus line false (Ne.symm hline)
    have hdriven : PinBank.drive line false pins =
        (true, (⟨(Bus.write line false pins.bus).2⟩ : LinePins β)) := by
      simp [PinBank.drive, hanswer, Except.isOk, Except.toBool]
    rw [PinBus.lower, hdriven, List.map_cons, ← List.singleton_append, Wires.watch_append, ← hwires]
    exact ih hrest _

/-- Parking lowers the clock line first and makes no edge. -/
theorem park_eq (h : Responding β respond) (bus : PinBus (LinePins β)) :
    bus.park.1 = .ok () ∧
      h.wires bus.park.2.pins.bus = { h.wires bus.pins.bus with lines := {} } := by
  obtain ⟨hanswer, hwires⟩ := h.lower_eq [.tck, .tms, .tdi] (by decide) bus.pins
  refine ⟨hanswer, hwires.trans ?_⟩
  simp [Wires.watch, Lines.watch, Lines.after, Lines.drive, Lines.edges, Lines.rises, levels,
    Exchange.level?]

/-- The pins of a bus that answers by rule and never fails make another one. -/
def pins (h : Responding β respond) : Responding (PinBus (LinePins β)) respond where
  wires bus := h.wires bus.pins.bus
  acquire bus := ⟨(h.park_eq bus).1, {}, (h.park_eq bus).2⟩
  write bus line level hline := by
    obtain ⟨hanswer, hwires⟩ := h.write bus.pins.bus line level hline
    have hwrite : Bus.write line level bus =
        (.ok (), (⟨⟨(Bus.write line level bus.pins.bus).2⟩⟩ : PinBus (LinePins β))) := by
      show PinBus.write line level bus = _
      simp [PinBus.write, PinBank.drive, hline, hanswer, Except.isOk, Except.toBool]
    rw [hwrite]
    exact ⟨rfl, hwires⟩
  read bus := by
    obtain ⟨hanswer, hwires⟩ := h.read bus.pins.bus
    have hread : Bus.read .tdo bus = (.ok ((h.wires bus.pins.bus).answer respond),
        (⟨⟨(Bus.read .tdo bus.pins.bus).2⟩⟩ : PinBus (LinePins β))) := by
      show PinBus.read .tdo bus = _
      simp [PinBus.read, PinBank.sample, hanswer, Except.toOption]
    rw [hread]
    exact ⟨rfl, hwires⟩
  release bus := ⟨{}, (h.park_eq bus).2⟩

/-- A run takes such a bus on by its edges and the levels that are sampled. -/
theorem wires_play (h : Responding β respond) (config : PlayerConfig) (program : List Instruction)
    (bench : Bench β τ) :
    let exchanges := (Player.run config program).transcript bench
    let later := ((Player.run config program).play bench).2
    (h.wires later.bus).edges = (h.wires bench.bus).edges ++ ({} : Lines).edges exchanges ∧
      (h.wires later.bus).samples = (h.wires bench.bus).samples ++ levels exchanges := by
  intro exchanges later
  have hprepares := (Player.run_course config program bench).prepared {}
  have hreaches : h.responsive.Reaches (h.wires bench.bus) [] bench.bus :=
    ⟨_, rfl, Wires.tracks_self _⟩
  obtain ⟨wires, rfl, htracks⟩ := hreaches.play _ hprepares (h.flawless _ _ hprepares.isProper)
  exact ⟨htracks.edges, htracks.samples⟩

/-- Two such buses that have been through the same go through the same in a run, whatever the levels
of their lines, and the runs end alike. -/
theorem run_alike (h : Responding β respond) (h' : Responding β' respond) {bench : Bench β τ}
    {bench' : Bench β' τ} (hedges : (h'.wires bench'.bus).edges = (h.wires bench.bus).edges)
    (hsamples : (h'.wires bench'.bus).samples = (h.wires bench.bus).samples)
    (config : PlayerConfig) (program : List Instruction) :
    let played := (Player.run config program).play bench
    let played' := (Player.run config program).play bench'
    Player.Comparable program bench.clock bench'.clock played.1 played'.1 →
      (h'.wires played'.2.bus).edges = (h.wires played.2.bus).edges ∧
      (h'.wires played'.2.bus).samples = (h.wires played.2.bus).samples ∧
      played.1.Alike ⟨false, true⟩ played'.1 ∧
      (bench'.clock = bench.clock → played'.1 = played.1 ∧ played'.2.clock = played.2.clock) := by
  intro played played' hcomparable
  have hproper := ((Player.run_course config program bench).prepared {}).isProper
  have hproper' := ((Player.run_course config program bench').prepared {}).isProper
  have hshows : h.responsive.Shows bench.bus (h.wires bench.bus) := rfl
  have hshows' : h'.responsive.Shows bench'.bus (h'.wires bench'.bus) := rfl
  obtain ⟨hcalls, halike, hsame⟩ := Player.responding_alike hshows hshows'
    (Wires.answersAlike_of_eq hedges.symm hsamples.symm respond) config program
    (h.flawless _ _ hproper) (h'.flawless _ _ hproper') hcomparable
  obtain ⟨hmade, hsampled⟩ := h.wires_play config program bench
  obtain ⟨hmade', hsampled'⟩ := h'.wires_play config program bench'
  refine ⟨?_, ?_, halike, hsame⟩
  · rw [hmade, hmade', hedges, ← Lines.edges_onBus, hcalls, Lines.edges_onBus]
  · rw [hsampled, hsampled', hsamples, ← levels_onBus, hcalls, levels_onBus]

end Responding

variable {β τ : Type} [Bus β] [Clock τ] {respond : Response}

/-- The bench on which the bus is played over its pins, with a clock that may be set differently. -/
def Bench.onPins (bench : Bench β τ) (clock : τ) : Bench (PinBus (LinePins β)) τ where
  bus := ⟨⟨bench.bus⟩⟩
  clock := clock
  log := bench.log

namespace Player

/-- Plays programs one after the other. For each it tells how the run ended and what it left. -/
def runs (config : PlayerConfig) : List (List Instruction) → Bench β τ →
    List (RunOutcome × Bench β τ)
  | [], _ => []
  | program :: programs, bench =>
    let played := (run config program).play bench
    played :: runs config programs played.2

/-- A run on a bus and one over its pins, by what the bus has been through and what is reported. The
outputs are low after a run over the pins, unless it was abandoned. -/
structure Mirrors (h : Responding β respond) (played : RunOutcome × Bench β τ)
    (played' : RunOutcome × Bench (PinBus (LinePins β)) τ) : Prop where
  edges : (h.wires played'.2.bus.pins.bus).edges = (h.wires played.2.bus).edges
  samples : (h.wires played'.2.bus.pins.bus).samples = (h.wires played.2.bus).samples
  outcome : played.1.Alike ⟨false, true⟩ played'.1
  parked : played'.1 ≠ .abandoned → (h.wires played'.2.bus.pins.bus).lines = {}

/-- A run that acquires the bus releases it in the end, unless it is abandoned. -/
theorem run_released {config : PlayerConfig} {program : List Instruction} {bench : Bench β τ}
    (hacquired : (Bus.acquire bench.bus).1 = .ok ())
    (hends : ((run config program).play bench).1 ≠ .abandoned) :
    ∃ bus, ((run config program).play bench).2.bus = Bus.release bus := by
  have hplay : (run config program).play bench =
      (runAcquired config program (bench.answer .now).1 (.ok ())).play
        (acquired program bench).2 := by
    rw [← hacquired]
    rfl
  rw [hplay, (runAcquired_ok config program _ (acquired program bench).2).1] at hends ⊢
  generalize (executeAll program (.initial config)).play (acquired program bench).2 = played at *
  obtain ⟨⟨result, session⟩, bench⟩ := played
  match result with
  | .error .deadlineOverflow => exact absurd rfl hends
  | .error (.failed _) | .ok () => exact ⟨bench.bus, rfl⟩

/-- Over the pins, the lines are parked then. -/
theorem lines_of_run_onPins (h : Responding β respond) (config : PlayerConfig)
    (program : List Instruction) (bench : Bench (PinBus (LinePins β)) τ)
    (hends : ((run config program).play bench).1 ≠ .abandoned) :
    (h.wires ((run config program).play bench).2.bus.pins.bus).lines = {} := by
  obtain ⟨bus, hbus⟩ := run_released (h.pins.acquire bench.bus).1 hends
  rw [hbus]
  exact congrArg Wires.lines (h.park_eq bus).2

/-- Two series of runs on clocks of their own can be compared as their runs can. -/
def ComparableRuns {β' : Type} (programs : List (List Instruction)) (clock clock' : τ)
    (played : List (RunOutcome × Bench β τ)) (played' : List (RunOutcome × Bench β' τ)) : Prop :=
  clock' = clock ∨ (∀ program ∈ programs, ∀ instruction ∈ program, instruction.IsUnlimited) ∧
    (∀ run ∈ played, run.1 ≠ .abandoned) ∧ ∀ run ∈ played', run.1 ≠ .abandoned

omit [Bus β] [Clock τ] in
/-- Comparable series begin with comparable runs and go on to be comparable. -/
theorem ComparableRuns.cons {β' : Type} {program : List Instruction}
    {programs : List (List Instruction)} {clock clock' : τ} {run : RunOutcome × Bench β τ}
    {run' : RunOutcome × Bench β' τ} {played : List (RunOutcome × Bench β τ)}
    {played' : List (RunOutcome × Bench β' τ)}
    (h : ComparableRuns (program :: programs) clock clock' (run :: played) (run' :: played'))
    (hclock : clock' = clock → run'.2.clock = run.2.clock) :
    Comparable program clock clock' run.1 run'.1 ∧
      ComparableRuns programs run.2.clock run'.2.clock played played' := by
  rcases h with hsame | ⟨hlimit, hends, hends'⟩
  · exact ⟨.inl hsame, .inl (hclock hsame)⟩
  · simp only [List.forall_mem_cons] at hlimit hends hends'
    exact ⟨.inr ⟨hlimit.1, hends.1, hends'.1⟩, .inr ⟨hlimit.2, hends.2, hends'.2⟩⟩

/-- Series of runs on a bus and over its pins mirror each other if they begin with the same edges
and samples. -/
theorem runs_mirror (h : Responding β respond) (config : PlayerConfig)
    (programs : List (List Instruction)) {bench : Bench β τ}
    {bench' : Bench (PinBus (LinePins β)) τ}
    (hedges : (h.wires bench'.bus.pins.bus).edges = (h.wires bench.bus).edges)
    (hsamples : (h.wires bench'.bus.pins.bus).samples = (h.wires bench.bus).samples)
    (hcomparable : ComparableRuns programs bench.clock bench'.clock (runs config programs bench)
      (runs config programs bench')) :
    List.Forall₂ (Mirrors h) (runs config programs bench) (runs config programs bench') ∧
      (bench'.clock = bench.clock →
        (runs config programs bench').map Prod.fst =
          (runs config programs bench).map Prod.fst) := by
  induction programs generalizing bench bench' with
  | nil => exact ⟨.nil, fun _ => rfl⟩
  | cons program programs ih =>
    have halike := h.run_alike h.pins hedges hsamples config program
    obtain ⟨hfirst, hrest⟩ := hcomparable.cons fun heq => ((halike (.inl heq)).2.2.2 heq).2
    obtain ⟨hedges', hsamples', houtcome, hclock⟩ := halike hfirst
    obtain ⟨hmirrors, hsame⟩ := ih hedges' hsamples' hrest
    have hparked := lines_of_run_onPins h config program bench'
    refine ⟨.cons ⟨hedges', hsamples', houtcome, hparked⟩ hmirrors, fun heq => ?_⟩
    obtain ⟨hplayed, hclock'⟩ := hclock heq
    exact List.cons_eq_cons.mpr ⟨hplayed, hsame hclock'⟩

/-- The pins of a bus are as good as the bus. Programs that are played one after the other over the
pins make the same edges, are given the same samples and report the same as on the bus itself,
although its lines are parked before and after each run and those of the bus are not. If the clocks
are the same they also take the same time. Parking makes no edge. -/
theorem pins_transparent (h : Responding β respond) (bench : Bench β τ) (clock : τ)
    (config : PlayerConfig) (programs : List (List Instruction))
    (hcomparable : ComparableRuns programs bench.clock clock (runs config programs bench)
      (runs config programs (bench.onPins clock))) :
    List.Forall₂ (Mirrors h) (runs config programs bench)
        (runs config programs (bench.onPins clock)) ∧
      (clock = bench.clock → (runs config programs (bench.onPins clock)).map Prod.fst =
        (runs config programs bench).map Prod.fst) ∧
      ∀ bus : PinBus (LinePins β), (Bus.acquire bus).1 = .ok () ∧
        (h.wires (Bus.acquire bus).2.pins.bus).edges = (h.wires bus.pins.bus).edges ∧
        (h.wires (Bus.release bus).pins.bus).edges = (h.wires bus.pins.bus).edges := by
  have hedges : (h.wires (bench.onPins clock).bus.pins.bus).edges = (h.wires bench.bus).edges := rfl
  obtain ⟨hmirrors, hsame⟩ := runs_mirror h config programs hedges rfl hcomparable
  refine ⟨hmirrors, hsame, fun bus => ?_⟩
  obtain ⟨hanswer, hwires⟩ := h.park_eq bus
  have hedges := congrArg Wires.edges hwires
  exact ⟨hanswer, hedges, hedges⟩

/-- A rule that looks at everything. Both programs leave the clock line of the bus high, though not
that of the pins, and the scan of the second one comes back with the same mismatch. -/
theorem pins_transparent_two_programs :
    let respond : Response := fun tdi edges samples =>
      (tdi ^^ (edges.length % 3 == 0)) ^^ (samples % 5 == 1)
    let bench : Bench (RuleBus respond) IdealClock := { bus := {}, clock := {} }
    let config : PlayerConfig := { continueOnFault := true }
    let programs := [
      [Instruction.shift .data { length := 5, tdi := some [9], tdo := some [9] } (some "first")],
      [Instruction.goToState .idle none,
        .shift .instruction { length := 8, tdi := some [165], tdo := some [165] } (some "second")]]
    List.Forall₂ (Mirrors RuleBus.responding) (runs config programs bench)
        (runs config programs (bench.onPins {})) ∧
      (runs config programs bench).map (fun played => played.2.bus.wires.lines.tck) =
        [true, true] ∧
      (runs config programs bench).map (fun played => played.1.report?.map fun report =>
        report.faults.faults.map Fault.record) = [some [], some [("second", "3F")]] := by
  intro respond bench config programs
  refine ⟨(pins_transparent RuleBus.responding bench {} config programs
    (.inr ⟨by decide, by decide +kernel, by decide +kernel⟩)).1, by decide +kernel, ?_⟩
  decide +kernel

end Player

end JtagPlayer
