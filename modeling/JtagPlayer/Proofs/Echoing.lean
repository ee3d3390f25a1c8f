import JtagPlayer.Bus.Loopback
import JtagPlayer.Proofs.Sampling
import JtagPlayer.Proofs.Shifting

/-!
# Samples that are what was sent

A bus without a device never fails, and every sample is the level of its data line.
`Lines.Echo` says the latter of a series of exchanges. A clock samples after its rising edge and
leaves the data line alone meanwhile, so the samples are the data bits of the edges, and a scan gets
back the bits that it sends: `Segments.shift_echoed`.
-/

namespace JtagPlayer

open JtagPlayer.Action

/-- Every sample is the level of the data line at its time. -/
def Lines.Echo : Lines → List Exchange → Prop
  | _, [] => True
  | lines, exchange :: rest =>
    (∀ level, exchange.level? = some level → level = lines.tdi) ∧ (lines.after exchange).Echo rest

theorem Lines.echo_append {lines : Lines} {first second : List Exchange} :
    lines.Echo (first ++ second) ↔ lines.Echo first ∧ (lines.watch first).Echo second := by
  induction first generalizing lines with
  | nil => simp [Echo, watch]
  | cons exchange first ih =>
    rw [List.cons_append, Echo, Echo, ih, and_assoc]
    exact Iff.rfl

namespace LoopbackBus

variable {τ : Type} [Clock τ] {bench : Bench LoopbackBus τ} {lines : Lines}

/-- Whatever is asked of the bus, it does not fail, returns the level of its data line, and knows
the level of that line afterwards. -/
theorem answer_echoes (h : lines.tdi = bench.bus.tdi) (c : Call) :
    Exchange.Succeeds ⟨c, (bench.answer c).1⟩ ∧
      (∀ level, Exchange.level? ⟨c, (bench.answer c).1⟩ = some level → level = lines.tdi) ∧
      (lines.after ⟨c, (bench.answer c).1⟩).tdi = (bench.answer c).2.bus.tdi := by
  cases c with
  | write line level => cases line <;> exact ⟨trivial, nofun, by first | exact h | rfl⟩
  | read line =>
    refine ⟨trivial, fun level hlevel => ?_, h⟩
    cases line with
    | tdo => exact (Option.some.inj hlevel).symm.trans h.symm
    | tck | tms | tdi => cases hlevel
  | acquire | release | now | wait | note => exact ⟨trivial, nofun, h⟩

/-- So no dialogue sees it fail or gets back anything but what it sent. -/
theorem transcript_echoes {α : Type} (dialogue : Dialogue α) (h : lines.tdi = bench.bus.tdi) :
    Flawless (dialogue.transcript bench) ∧ lines.Echo (dialogue.transcript bench) := by
  induction dialogue generalizing bench lines with
  | done result => exact ⟨flawless_nil, trivial⟩
  | call c next ih =>
    obtain ⟨hsucceeds, hlevel, hafter⟩ := answer_echoes h c
    obtain ⟨hflawless, hecho⟩ := ih _ hafter
    exact ⟨flawless_cons.mpr ⟨hsucceeds, hflawless⟩, hlevel, hecho⟩

end LoopbackBus

namespace TapDriver

/-- Samples that are what was sent are the data bits of the edges. -/
def echoes : Law TapDriver := fun _ exchanges _ _ =>
  Flawless exchanges → ∀ lines : Lines, lines.Echo exchanges →
    levels exchanges = (lines.edges exchanges).map Edge.tdi

/-- The data line keeps its level from the set-up of a clock to its sample. -/
theorem clock_echoes (tms tdi : Bool) : (clock tms tdi).Upholds echoes := by
  intro driver exchanges result driver' hcourse hflawless lines hecho
  rcases clock_flawless hcourse hflawless lines with
    ⟨level, hlevel, hlevels, hedges⟩ | ⟨-, hlevels, hedges⟩
  · rw [hlevels, hedges]
    subst hlevel
    cases clock_course hcourse with
    | sampled instant level hdue =>
      obtain ⟨-, hlate⟩ := Lines.echo_append.mp hecho
      obtain ⟨-, hsample⟩ := Lines.echo_append.mp hlate
      rw [Lines.watch_eq_of_isIdle _ driver.isIdle_of_mem_pause] at hsample
      exact congrArg (fun level => [level]) (hsample.2.2.1 level rfl)
  · rw [hlevels, hedges]
    rfl

theorem echoes_obeys : Obeys echoes where
  refl _ _ _ _ := rfl
  fail _ _ _ _ _ := rfl
  quiet := by
    intro driver c answer hquiet _ lines _
    rw [Lines.edges_cons_of_isIdle lines (Lines.isIdle_of_isQuiet hquiet answer),
      levels_cons_of_isQuiet hquiet]
    rfl
  trans := by
    intro driver middle driver' first second reason hfirst hsecond hflawless lines hecho
    obtain ⟨hflawless, hflawless'⟩ := flawless_append.mp hflawless
    obtain ⟨hecho, hecho'⟩ := Lines.echo_append.mp hecho
    rw [levels_append, Lines.edges_append, List.map_append, hfirst hflawless lines hecho,
      hsecond hflawless' (lines.watch first) hecho']
  clock := clock_echoes

end TapDriver

/-- What comes back for the payload of a scan are its own bits. -/
theorem Segments.shift_echoed {segments : Segments} {samples : Samples}
    {driver driver' : TapDriver} {exchanges : List Exchange}
    (h : segments.shift.Course driver exchanges (.ok samples) driver')
    (hflawless : Flawless exchanges) {lines : Lines} (hecho : lines.Echo exchanges) :
    samples.payload = Pattern.bytesOf segments.payload.bits := by
  have hlevels := segments.shift_upholds TapDriver.echoes_obeys h hflawless lines hecho
  rw [segments.shift_emits.complete h, TapDriver.map_tdi_shiftEdges, bits] at hlevels
  obtain ⟨header, payload, trailer, hreceived, hheader, hpayload, -, rfl⟩ :=
    shift_received h hflawless
  rw [hreceived] at hlevels
  obtain ⟨-, hrest⟩ := List.append_inj hlevels (by rw [hheader, Pattern.length_bits])
  obtain ⟨hbits, -⟩ := List.append_inj hrest (by rw [hpayload, Pattern.length_bits])
  rw [hbits]

end JtagPlayer
