import JtagPlayer.Proofs.Emission
import JtagPlayer.Proofs.Law

/-!
# What comes back from a scan

As long as no operation on the bus fails, every clock gives one edge to the device and takes one
level from it, so `Device.samples` can put the pulses and the levels side by side.
`Segments.shift_received` says that a scan returns the levels that were sampled meanwhile, segment
after segment.
-/

namespace JtagPlayer

open JtagPlayer.Action

/-- The pulses that some exchanges give to a device, each with the level that was sampled after
it. -/
def Device.samples (device : Device) (exchanges : List Exchange) : List (Pulse × Bool) :=
  (device.pulses exchanges).zip (levels exchanges)

namespace TapDriver

variable {driver driver' : TapDriver} {exchanges : List Exchange}

/-- There are as many samples as edges. -/
def balanced : Law TapDriver := fun _ exchanges _ _ =>
  Flawless exchanges → ∀ lines : Lines, (levels exchanges).length = (lines.edges exchanges).length

theorem clock_balanced (tms tdi : Bool) : (clock tms tdi).Upholds balanced := by
  intro driver exchanges result driver' hcourse hflawless lines
  rcases clock_flawless hcourse hflawless lines with
    ⟨level, -, hlevels, hedges⟩ | ⟨-, hlevels, hedges⟩
  · rw [hlevels, hedges]
    rfl
  · rw [hlevels, hedges]
    rfl

theorem balanced_obeys : Obeys balanced where
  refl _ _ _ := rfl
  fail _ _ _ _ := rfl
  quiet := by
    intro driver c answer hquiet _ lines
    rw [Lines.edges_cons_of_isIdle lines (Lines.isIdle_of_isQuiet hquiet answer),
      levels_cons_of_isQuiet hquiet]
    rfl
  trans := by
    intro driver middle driver' first second reason hfirst hsecond hflawless lines
    obtain ⟨hflawless, hflawless'⟩ := flawless_append.mp hflawless
    rw [levels_append, Lines.edges_append, List.length_append, List.length_append,
      hfirst hflawless lines, hsecond hflawless' (lines.watch first)]
  clock := clock_balanced

/-- The answers to some bits are the levels sampled meanwhile, latest first. -/
theorem shiftBits_received {leave : Bool} {bits received answers : List Bool}
    (h : (shiftBits leave bits received).Course driver exchanges (.ok answers) driver')
    (hflawless : Flawless exchanges) :
    answers = (levels exchanges).reverse ++ received ∧
      (levels exchanges).length = bits.length := by
  induction bits generalizing driver exchanges received with
  | nil =>
    obtain ⟨rfl, hanswers, -⟩ := course_pure.mp h
    cases hanswers
    exact ⟨rfl, rfl⟩
  | cons bit bits ih =>
    rcases course_bind.mp h with
      ⟨first, rest, level, middle, hclock, hrest, rfl⟩ | ⟨reason, -, hresult⟩
    · obtain ⟨hflawless, hflawless'⟩ := flawless_append.mp hflawless
      obtain ⟨hanswers, hlength⟩ := ih hrest hflawless'
      rcases clock_flawless hclock hflawless {} with
        ⟨sampled, hlevel, hlevels, -⟩ | ⟨hlevel, -, -⟩
      · cases hlevel
        rw [levels_append, hlevels, hanswers]
        refine ⟨by simp, ?_⟩
        rw [List.length_append, hlength]
        exact Nat.add_comm _ _
      · cases hlevel
    · cases hresult

/-- A pattern returns the bytes that hold the levels sampled meanwhile. -/
theorem shiftPattern_received {leave : Bool} {pattern : Pattern} {bytes : List UInt8}
    (h : (shiftPattern leave pattern).Course driver exchanges (.ok bytes) driver')
    (hflawless : Flawless exchanges) :
    bytes = Pattern.bytesOf (levels exchanges) ∧
      (levels exchanges).length = pattern.length.toNat := by
  rw [shiftPattern_eq] at h
  rcases course_bind.mp h with
    ⟨first, rest, received, middle, hbits, hdone, rfl⟩ | ⟨reason, -, hresult⟩
  · obtain ⟨rfl, hbytes, -⟩ := course_pure.mp hdone
    cases hbytes
    rw [List.append_nil] at hflawless ⊢
    obtain ⟨hreceived, hlength⟩ := shiftBits_received hbits hflawless
    rw [hreceived, List.append_nil, List.reverse_reverse, hlength, Pattern.length_bits]
    exact ⟨rfl, rfl⟩
  · cases hresult

end TapDriver

/-- A scan returns what was sampled meanwhile, segment after segment. -/
theorem Segments.shift_received {segments : Segments} {samples : Samples}
    {driver driver' : TapDriver} {exchanges : List Exchange}
    (h : segments.shift.Course driver exchanges (.ok samples) driver')
    (hflawless : Flawless exchanges) :
    ∃ header payload trailer, levels exchanges = header ++ (payload ++ trailer) ∧
      header.length = segments.header.length.toNat ∧
      payload.length = segments.payload.length.toNat ∧
      trailer.length = segments.trailer.length.toNat ∧
      samples = {
        header := Pattern.bytesOf header
        payload := Pattern.bytesOf payload
        trailer := Pattern.bytesOf trailer } := by
  rcases course_bind.mp h with
    ⟨first, _, header, _, hheader, hpayloads, rfl⟩ | ⟨reason, -, hresult⟩
  · rcases course_bind.mp hpayloads with
      ⟨second, _, payload, _, hpayload, htrailers, rfl⟩ | ⟨reason, -, hresult⟩
    · rcases course_bind.mp htrailers with
        ⟨third, _, trailer, _, htrailer, hnote, rfl⟩ | ⟨reason, -, hresult⟩
      · obtain ⟨⟨⟩, _, rfl, hdone⟩ := course_ask_bind.mp hnote
        obtain ⟨rfl, hsamples, -⟩ := course_pure.mp hdone
        cases hsamples
        simp only [flawless_append] at hflawless
        obtain ⟨hfirst, hsecond, hthird, -⟩ := hflawless
        obtain ⟨rfl, hheaderLength⟩ := TapDriver.shiftPattern_received hheader hfirst
        obtain ⟨rfl, hpayloadLength⟩ := TapDriver.shiftPattern_received hpayload hsecond
        obtain ⟨rfl, htrailerLength⟩ := TapDriver.shiftPattern_received htrailer hthird
        refine ⟨_, _, _, ?_, hheaderLength, hpayloadLength, htrailerLength, rfl⟩
        rw [levels_append, levels_append, levels_append]
        simp [levels, Exchange.level?]
      · cases hresult
    · cases hresult
  · cases hresult

end JtagPlayer
