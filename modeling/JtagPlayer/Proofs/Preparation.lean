import JtagPlayer.Proofs.Sabotage

/-!
# What a player has driven itself

A player cannot know at which levels the lines are when it acquires a bus. It does not need to: it
raises the clock line only after it has driven all three lines itself, and samples only after it has
driven the data line. `Driven` is what it has driven so far, and `Driven.Prepares` says that some
exchanges ask no more than that.

`Player.RunCourse.prepared` says so of every run, whatever fails. It follows that the edges of a run
are the same whatever the levels before it, which is `Player.RunCourse.edges_eq`.
-/

namespace JtagPlayer

open JtagPlayer.Action

/-- Calls that drive an output or sample the input, and all that concern no line. -/
def Call.IsProper : Call → Prop
  | .write line _ => line ≠ .tdo
  | .read line => line = .tdo
  | _ => True

/-- The levels to which the lines have been driven since the bus was acquired. -/
structure Driven where
  tck : Option Bool := none
  tms : Option Bool := none
  tdi : Option Bool := none

namespace Driven

def set (driven : Driven) (line : Line) (level : Bool) : Driven :=
  match line with
  | .tck => { driven with tck := some level }
  | .tms => { driven with tms := some level }
  | .tdi => { driven with tdi := some level }
  | .tdo => driven

/-- What is still known after an exchange. Nothing is after an operation that failed. -/
def after (driven : Driven) : Exchange → Driven
  | ⟨.write line level, .ok _⟩ => driven.set line level
  | ⟨.read _, .ok _⟩ | ⟨.now, _⟩ | ⟨.wait _ _, _⟩ | ⟨.note _, _⟩ => driven
  | ⟨.write _ _, .error _⟩ | ⟨.read _, .error _⟩ | ⟨.acquire, _⟩ | ⟨.release, _⟩ => {}

def watch (driven : Driven) (exchanges : List Exchange) : Driven :=
  exchanges.foldl after driven

/-- What a call asks to have been driven before. The data from the device is never driven, and
nothing else is ever sampled. -/
def IsReadyFor (driven : Driven) : Call → Prop
  | .write .tck true => driven.tck.isSome ∧ driven.tms.isSome ∧ driven.tdi.isSome
  | .write .tdo _ => False
  | .read .tdo => driven.tdi.isSome
  | .read _ => False
  | _ => True

/-- Each call of some exchanges finds driven what it asks for. -/
def Prepares : Driven → List Exchange → Prop
  | _, [] => True
  | driven, exchange :: rest =>
    driven.IsReadyFor exchange.call ∧ (driven.after exchange).Prepares rest

@[simp] theorem prepares_nil (driven : Driven) : driven.Prepares [] := trivial

theorem prepares_cons {driven : Driven} {exchange : Exchange} {rest : List Exchange} :
    driven.Prepares (exchange :: rest) ↔
      driven.IsReadyFor exchange.call ∧ (driven.after exchange).Prepares rest := Iff.rfl

/-- Exchanges in a row are prepared for if the first are, and then the second after what has been
driven in the first. -/
theorem prepares_append {driven : Driven} {first second : List Exchange} :
    driven.Prepares (first ++ second) ↔
      driven.Prepares first ∧ (driven.watch first).Prepares second := by
  induction first generalizing driven with
  | nil => exact (and_iff_right trivial).symm
  | cons exchange first ih =>
    rw [List.cons_append, prepares_cons, prepares_cons, ih, and_assoc]
    rfl

/-- A call that does not touch the bus asks for nothing. -/
theorem isReadyFor_of_isQuiet {driven : Driven} {c : Call} (h : c.IsQuiet) :
    driven.IsReadyFor c := by
  cases c with
  | acquire | write | read | release => exact h.elim
  | now | wait | note => trivial

/-- The data from the device is the only line that is ever sampled, and the only one that is not
driven. -/
theorem isProper_of_isReadyFor {driven : Driven} {c : Call} (h : driven.IsReadyFor c) :
    c.IsProper := by
  match c with
  | .write .tck _ | .write .tms _ | .write .tdi _ => exact nofun
  | .read .tdo => rfl
  | .acquire | .release | .now | .wait _ _ | .note _ => trivial
  | .write .tdo _ | .read .tck | .read .tms | .read .tdi => exact h.elim

/-- What is prepared for is proper. -/
theorem Prepares.isProper {driven : Driven} {exchanges : List Exchange}
    (h : driven.Prepares exchanges) : ∀ exchange ∈ exchanges, exchange.call.IsProper := by
  induction exchanges generalizing driven with
  | nil => exact List.forall_mem_nil _
  | cons exchange rest ih =>
    exact List.forall_mem_cons.mpr ⟨isProper_of_isReadyFor h.1, ih h.2⟩

theorem after_of_isQuiet (driven : Driven) {c : Call} (h : c.IsQuiet) (answer : c.Answer) :
    driven.after ⟨c, answer⟩ = driven := by
  cases c with
  | acquire | write | read | release => exact h.elim
  | now | wait | note => rfl

/-- Quiet calls ask for nothing, so what two runs do not share can be left out. -/
theorem prepares_shared {driven : Driven} (terms : Terms) {exchanges : List Exchange} :
    driven.Prepares (terms.shared exchanges) ↔ driven.Prepares exchanges := by
  induction exchanges generalizing driven with
  | nil => rfl
  | cons exchange rest ih =>
    by_cases hshares : terms.Shares exchange.call
    · rw [Terms.shared_cons_of_shares hshares, prepares_cons, prepares_cons, ih]
    · have hquiet := Terms.isQuiet_of_not_shares hshares
      rw [Terms.shared_cons_of_not_shares hshares, prepares_cons, ih,
        driven.after_of_isQuiet hquiet exchange.answer,
        and_iff_right (isReadyFor_of_isQuiet hquiet)]

/-- They drive nothing either. -/
theorem watch_shared (driven : Driven) (terms : Terms) (exchanges : List Exchange) :
    driven.watch (terms.shared exchanges) = driven.watch exchanges := by
  induction exchanges generalizing driven with
  | nil => rfl
  | cons exchange rest ih =>
    by_cases hshares : terms.Shares exchange.call
    · rw [Terms.shared_cons_of_shares hshares]
      exact ih _
    · have hsame := driven.after_of_isQuiet (Terms.isQuiet_of_not_shares hshares) exchange.answer
      rw [Terms.shared_cons_of_not_shares hshares, ih]
      exact congrArg (watch · rest) hsame.symm

/-- The lines are at the levels to which they were driven. -/
structure Fits (driven : Driven) (lines : Lines) : Prop where
  tck : ∀ level ∈ driven.tck, lines.tck = level
  tms : ∀ level ∈ driven.tms, lines.tms = level
  tdi : ∀ level ∈ driven.tdi, lines.tdi = level

/-- Whatever the levels are, nothing is known to be otherwise at first. -/
theorem fits_empty (lines : Lines) : ({} : Driven).Fits lines :=
  ⟨nofun, nofun, nofun⟩

variable {driven : Driven} {lines lines' : Lines}

theorem Fits.set (h : driven.Fits lines) (line : Line) (level : Bool) :
    (driven.set line level).Fits (lines.drive line level) := by
  cases line with
  | tck => exact { h with tck := fun _ hlevel => Option.some.inj hlevel }
  | tms => exact { h with tms := fun _ hlevel => Option.some.inj hlevel }
  | tdi => exact { h with tdi := fun _ hlevel => Option.some.inj hlevel }
  | tdo => exact h

/-- An exchange keeps what is known of the levels true. -/
theorem Fits.after (h : driven.Fits lines) (exchange : Exchange) :
    (driven.after exchange).Fits (lines.after exchange) := by
  obtain ⟨c, answer⟩ := exchange
  cases c with
  | write line level =>
    cases answer with
    | error error => exact fits_empty lines
    | ok u => exact h.set line level
  | read line =>
    cases answer with
    | error error => exact fits_empty lines
    | ok level => exact h
  | acquire | release => exact fits_empty lines
  | now | wait | note => exact h

/-- So does a series of exchanges. -/
theorem Fits.watch (h : driven.Fits lines) (exchanges : List Exchange) :
    (driven.watch exchanges).Fits (lines.watch exchanges) := by
  induction exchanges generalizing driven lines with
  | nil => exact h
  | cons exchange rest ih => exact ih (h.after exchange)

/-- Lines that have been driven to a level are at the same one. -/
theorem Fits.tdi_eq (h : driven.Fits lines) (h' : driven.Fits lines') (htdi : driven.tdi.isSome) :
    lines.tdi = lines'.tdi := by
  obtain ⟨level, hlevel⟩ := Option.isSome_iff_exists.mp htdi
  rw [h.tdi level hlevel, h'.tdi level hlevel]

/-- When the clock line may rise, all levels are known. -/
theorem Fits.lines_eq (h : driven.Fits lines) (h' : driven.Fits lines')
    (hready : driven.IsReadyFor (.write .tck true)) : lines = lines' := by
  obtain ⟨htck, htms, htdi⟩ := hready
  obtain ⟨tck, htck⟩ := Option.isSome_iff_exists.mp htck
  obtain ⟨tms, htms⟩ := Option.isSome_iff_exists.mp htms
  obtain ⟨tdi, htdi⟩ := Option.isSome_iff_exists.mp htdi
  have hlines : ∀ {lines : Lines}, driven.Fits lines → lines = { tck, tms, tdi } := by
    intro lines hfits
    rw [← hfits.tck tck htck, ← hfits.tms tms htms, ← hfits.tdi tdi htdi]
  rw [hlines h, hlines h']

/-- An exchange that is prepared for makes no edge, or finds all lines at the same levels. -/
theorem Fits.edge_or_eq (h : driven.Fits lines) (h' : driven.Fits lines') {exchange : Exchange}
    (hready : driven.IsReadyFor exchange.call) :
    (lines.rises exchange = false ∧ lines'.rises exchange = false) ∨ lines = lines' := by
  obtain ⟨c, answer⟩ := exchange
  match c, answer with
  | .write .tck true, _ => exact .inr (h.lines_eq h' hready)
  | .write .tck false, _ | .write .tms _, _ | .write .tdi _, _ | .write .tdo _, _ =>
    exact .inl ⟨rfl, rfl⟩
  | .acquire, _ | .read _, _ | .release, _ | .now, _ | .wait _ _, _ | .note _, _ =>
    exact .inl ⟨rfl, rfl⟩

/-- Exchanges that are prepared for make the same edges whatever the levels are that do not count
as driven. -/
theorem Prepares.edges_eq {exchanges : List Exchange} (hprepares : driven.Prepares exchanges)
    (h : driven.Fits lines) (h' : driven.Fits lines') :
    lines.edges exchanges = lines'.edges exchanges := by
  induction exchanges generalizing driven lines lines' with
  | nil => rfl
  | cons exchange rest ih =>
    obtain ⟨hready, hrest⟩ := hprepares
    rcases h.edge_or_eq h' hready with ⟨hrises, hrises'⟩ | rfl
    · rw [Lines.edges, Lines.edges, hrises, hrises']
      exact ih hrest (h.after exchange) (h'.after exchange)
    · rfl

end Driven

namespace TapDriver

/-- Nothing need have been driven before. -/
def prepared : Law TapDriver := fun _ exchanges _ _ => ∀ driven : Driven, driven.Prepares exchanges

theorem prepares_pause {driver : TapDriver} {driven : Driven} {rest : List Exchange} :
    driven.Prepares (driver.pause ++ rest) ↔ driven.Prepares rest := by
  unfold pause
  split
  · exact and_iff_right trivial
  · rfl

/-- Once both levels are set up and the clock line is low, all lines have been driven. -/
theorem prepares_setUp {tms tdi : Bool} {driven : Driven} {rest : List Exchange} :
    driven.Prepares (setUp tms tdi ++ rest) ↔
      ({ tck := some false, tms := some tms, tdi := some tdi } : Driven).Prepares rest := by
  simp [setUp, Driven.prepares_cons, Driven.IsReadyFor, Driven.after, Driven.set]

/-- A clock sets up all three lines before it raises the clock line, so that it needs none of them
before. -/
theorem clock_prepared (tms tdi : Bool) : (clock tms tdi).Upholds prepared := by
  intro driver exchanges result driver' hcourse driven
  cases clock_course hcourse with
  | tmsFails | tdiFails | lowFails =>
    simp [Driven.prepares_cons, Driven.IsReadyFor]
  | overdue hdue =>
    rw [← List.append_nil (setUp tms tdi), prepares_setUp]
    trivial
  | riseFails | sampleFails | sampled =>
    rw [prepares_setUp, prepares_pause]
    simp [Driven.prepares_cons, Driven.IsReadyFor, Driven.after, Driven.set]

theorem prepared_obeys : Obeys prepared where
  refl _ _ := trivial
  fail _ _ _ := trivial
  quiet _ _ _ hquiet _ := ⟨Driven.isReadyFor_of_isQuiet hquiet, trivial⟩
  trans hfirst hsecond driven := Driven.prepares_append.mpr ⟨hfirst driven, hsecond _⟩
  clock := clock_prepared

end TapDriver

namespace Player

variable {config : PlayerConfig} {program : List Instruction} {performance : Performance}
  {exchanges : List Exchange} {outcome : RunOutcome}

theorem prepared_obeys : Obeys (lawOfTap TapDriver.prepared) :=
  Obeys.ofTap TapDriver.prepared_obeys fun _ _ _ => trivial

/-- A run has itself driven whatever it relies on, even if an operation fails. -/
theorem RunCourse.prepared (h : RunCourse config program performance exchanges outcome)
    (driven : Driven) : driven.Prepares exchanges := by
  rcases h.inner with ⟨start, instant, error, rfl, -⟩ |
    ⟨start, inner, closing, result, session, rfl, hfinish, hlaws⟩
  · simp [opening, Driven.prepares_cons, Driven.IsReadyFor]
  · have hinner : ∀ driven : Driven, driven.Prepares inner :=
      hlaws prepared_obeys fun _ _ => trivial
    have hclosing : ∀ driven : Driven, driven.Prepares closing := by
      cases hfinish <;> simp [Driven.prepares_cons, Driven.IsReadyFor]
    refine Driven.prepares_append.mpr ⟨?_, Driven.prepares_append.mpr ⟨hinner _, hclosing _⟩⟩
    simp [opening, Driven.prepares_cons, Driven.IsReadyFor]

/-- The edges of a run do not depend on the levels at which it finds the lines. -/
theorem RunCourse.edges_eq (h : RunCourse config program performance exchanges outcome)
    (lines lines' : Lines) : lines.edges exchanges = lines'.edges exchanges :=
  (h.prepared {}).edges_eq (Driven.fits_empty lines) (Driven.fits_empty lines')

end Player

end JtagPlayer
