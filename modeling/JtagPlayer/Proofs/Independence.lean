import JtagPlayer.Bus.Loopback
import JtagPlayer.Proofs.Responding

/-!
# Runs that do not disturb each other

A run may be cut off by a failing operation at any point. It then leaves the lines at any levels and
the device in any state, whatever clock rate, headers, end states and faults it has come to. Nothing
of this reaches the next run of the same player: each run begins with a session of its own, resets
the device, and has itself driven whatever it relies on.

`Player.runs_independent` says so for buses that return the level of the data line, such as the
`LoopbackBus`, even if they fail on occasion, such as a `Sabotaged` one. After any other run, a run
in which nothing fails makes the same edges and gives the same report as on a fresh bus of any such
kind.
-/

namespace JtagPlayer

/-- The response of a bus that returns the level of the data line. -/
def Response.echo : Response := fun tdi _ _ => tdi

/-- All histories are the same to it. -/
theorem Wires.answersAlike_echo (wires wires' : Wires) : wires.AnswersAlike .echo wires' :=
  fun _ _ _ => rfl

/-- A bus without a device returns what it is sent. Of its lines only that of the data counts. -/
def LoopbackBus.echoes : Responsive LoopbackBus .echo where
  Shows bus wires := wires.lines.tdi = bus.tdi
  acquire hshows := ⟨_, hshows⟩
  write hshows line level _ := by
    refine ⟨_, ?_, fun _ => rfl⟩
    cases line with
    | tdi => rfl
    | tck | tms | tdo => exact hshows
  read {bus wires} hshows := by
    refine ⟨wires.watch [⟨.read .tdo, .ok bus.tdi⟩], hshows, fun level hlevel => ?_⟩
    obtain rfl : bus.tdi = level := Except.ok.inj hlevel
    exact ⟨hshows.symm, rfl⟩
  release hshows := ⟨_, hshows⟩

/-- An operation on a sabotaged bus is that of the bus, or fails and changes nothing. -/
theorem Sabotaged.operate_cases {α β : Type} (sabotaged : Sabotaged β) (c : Call)
    (operation : β → Except IoError α × β) :
    (∃ error, (sabotaged.operate c operation).1 = .error error ∧
      (sabotaged.operate c operation).2.bus = sabotaged.bus) ∨
    ((sabotaged.operate c operation).1 = (operation sabotaged.bus).1 ∧
      (sabotaged.operate c operation).2.bus = (operation sabotaged.bus).2) := by
  unfold operate
  split
  · split
    · exact .inl ⟨_, rfl, rfl⟩
    · exact .inr ⟨rfl, rfl⟩
  · exact .inr ⟨rfl, rfl⟩

/-- So a bus on which an operation fails still answers by its rule. -/
def Sabotaged.responsive {β : Type} [Bus β] {respond : Response} (h : Responsive β respond) :
    Responsive (Sabotaged β) respond where
  Shows sabotaged wires := h.Shows sabotaged.bus wires
  acquire hshows := h.acquire hshows
  write {sabotaged wires} hshows line level hline := by
    rcases sabotaged.operate_cases (.write line level) (Bus.write line level) with
      ⟨error, hanswer, hbus⟩ | ⟨hanswer, hbus⟩
    · exact ⟨wires, hbus.symm ▸ hshows, fun hok => nomatch hanswer.symm.trans hok⟩
    · obtain ⟨wires', hshows', hsucceeds⟩ := h.write hshows line level hline
      exact ⟨wires', hbus.symm ▸ hshows', fun hok => hsucceeds (hanswer.symm.trans hok)⟩
  read {sabotaged wires} hshows := by
    rcases sabotaged.operate_cases (.read .tdo) (Bus.read .tdo) with
      ⟨error, hanswer, hbus⟩ | ⟨hanswer, hbus⟩
    · exact ⟨wires, hbus.symm ▸ hshows, fun level hok => nomatch hanswer.symm.trans hok⟩
    · obtain ⟨wires', hshows', hsucceeds⟩ := h.read hshows
      exact ⟨wires', hbus.symm ▸ hshows',
        fun level hok => hsucceeds level (hanswer.symm.trans hok)⟩
  release hshows := h.release hshows

namespace Player

variable {β β' τ : Type} [Bus β] [Bus β'] [Clock τ]

/-- A run in which nothing fails does not depend on the run before it, however that one ended. On a
bus that returns the level of the data line it makes the same edges as on a fresh bus of such a
kind, whatever the levels of the lines before, and reports the same. If it begins at the same time
it takes the same time. -/
theorem runs_independent {echo : Responsive β .echo} {echo' : Responsive β' .echo}
    {bench : Bench β τ} {fresh : Bench β' τ} {wires wires' : Wires}
    (hbench : echo.Shows bench.bus wires) (hfresh : echo'.Shows fresh.bus wires')
    (config : PlayerConfig) (earlier program : List Instruction) :
    let later := ((run config earlier).play bench).2
    let exchanges := (run config program).transcript later
    let exchanges' := (run config program).transcript fresh
    let outcome := ((run config program).play later).1
    let outcome' := ((run config program).play fresh).1
    Flawless exchanges → Flawless exchanges' →
      Comparable program later.clock fresh.clock outcome outcome' →
        (∀ lines lines' : Lines, lines'.edges exchanges' = lines.edges exchanges) ∧
        outcome.Alike ⟨false, true⟩ outcome' ∧
        (fresh.clock = later.clock → outcome' = outcome) := by
  intro later exchanges exchanges' outcome outcome' hflawless hflawless' hcomparable
  obtain ⟨left, hlater⟩ := echo.exists_shows (run config earlier) hbench
    ((run_course config earlier bench).prepared {}).isProper
  obtain ⟨hcalls, halike, hsame⟩ := responding_alike hlater hfresh (left.answersAlike_echo wires')
    config program hflawless hflawless' hcomparable
  refine ⟨fun lines lines' => ?_, halike, fun hclock => (hsame hclock).1⟩
  rw [(run_course config program later).edges_eq lines lines', ← lines'.edges_onBus,
    ← lines'.edges_onBus exchanges, hcalls]

/-- The first run has changed its end states and stored a header and is cut off in its second scan,
with all lines high. The second one, whose scan mismatches, goes as it would alone. -/
theorem runs_independent_of_cut :
    let bus : Sabotaged LoopbackBus :=
      { bus := {}, sabotage := { kind := .reads, number := 27, error := ⟨.other, "stuck"⟩ } }
    let bench : Bench (Sabotaged LoopbackBus) IdealClock := { bus, clock := {} }
    let fresh : Bench LoopbackBus IdealClock := { bus := {}, clock := {} }
    let config : PlayerConfig := { continueOnFault := true }
    let earlier := [
      Instruction.setEndState .data .drPause, .setHeader .data { length := 3, tdi := some [7] },
      .shift .data { length := 2, tdi := some [1], tdo := some [2] } (some "first"),
      .shift .data { length := 8, tdi := some [255] } (some "second")]
    let program := [
      Instruction.shift .data { length := 4, tdi := some [5], tdo := some [4] } (some "third")]
    let later := ((run config earlier).play bench).2
    ((run config earlier).play bench).1.error? = some (.hardware ⟨.other, "stuck"⟩) ∧
      (later.bus.bus.tck = true ∧ later.bus.bus.tdi = true) ∧
      ({} : Lines).edges ((run config program).transcript fresh) =
        ({ tck := true, tms := true, tdi := true } : Lines).edges
          ((run config program).transcript later) ∧
      ((run config program).play later).1.Alike ⟨false, true⟩
        ((run config program).play fresh).1 := by
  intro bus bench fresh config earlier program later
  have hbench : (Sabotaged.responsive LoopbackBus.echoes).Shows bench.bus {} := rfl
  have hfresh : LoopbackBus.echoes.Shows fresh.bus {} := rfl
  obtain ⟨hedges, halike, -⟩ := runs_independent hbench hfresh config earlier program
    (by decide +kernel) (by decide +kernel)
    (.inr ⟨by decide, by decide +kernel, by decide +kernel⟩)
  exact ⟨by decide +kernel, by decide +kernel, hedges _ _, halike⟩

end Player

end JtagPlayer
