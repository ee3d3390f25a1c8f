import JtagPlayer.Proofs.Tracking

/-!
# When the mode and data lines change

A clock drives the mode and the data line first, lowers the clock line after that, and leaves it
high. So both lines are set up for an edge while the clock line is still high from the edge before,
and while it is low they do not change. The first edge of a driver is the only one for which they
are set up while the clock line is low, if it is low to begin with.

`Lines.SetsUpAhead` says so of a series of exchanges, and `TapDriver.setsUpAhead_obeys` of all that
a driver does. `Lines.ChangesWhileLow` is the other discipline, by which lines change while the
clock line is low: it holds of those exchanges only in which nothing changes after the first edge.
-/

namespace JtagPlayer

open JtagPlayer.Action

/-- An exchange that drives the mode line or the data line. -/
def Exchange.SetsUp : Exchange → Prop
  | ⟨.write .tms _, _⟩ | ⟨.write .tdi _, _⟩ => True
  | _ => False

namespace Lines

/-- An exchange that brings the mode line or the data line to another level. -/
def Changes (lines : Lines) : Exchange → Prop
  | ⟨.write .tms level, .ok _⟩ => level ≠ lines.tms
  | ⟨.write .tdi level, .ok _⟩ => level ≠ lines.tdi
  | _ => False

instance (lines : Lines) : DecidablePred lines.Changes
  | ⟨.write .tms level, .ok _⟩ => inferInstanceAs (Decidable (level ≠ lines.tms))
  | ⟨.write .tdi level, .ok _⟩ => inferInstanceAs (Decidable (level ≠ lines.tdi))
  | ⟨.write .tms _, .error _⟩ | ⟨.write .tdi _, .error _⟩ => .isFalse id
  | ⟨.write .tck _, _⟩ | ⟨.write .tdo _, _⟩ => .isFalse id
  | ⟨.acquire, _⟩ | ⟨.read _, _⟩ | ⟨.release, _⟩ | ⟨.now, _⟩ | ⟨.wait _ _, _⟩ | ⟨.note _, _⟩ =>
    .isFalse id

theorem Changes.setsUp {lines : Lines} {exchange : Exchange} (h : lines.Changes exchange) :
    exchange.SetsUp := by
  obtain ⟨c, answer⟩ := exchange
  cases c with
  | write line level =>
    cases line with
    | tms | tdi => trivial
    | tck | tdo => exact h
  | _ => exact h

/-- Whenever the mode line or the data line changes, the clock line is low. -/
def ChangesWhileLow : Lines → List Exchange → Prop
  | _, [] => True
  | lines, exchange :: rest =>
    (lines.Changes exchange → lines.tck = false) ∧ (lines.after exchange).ChangesWhileLow rest

instance decidableChangesWhileLow : (lines : Lines) → (exchanges : List Exchange) →
    Decidable (lines.ChangesWhileLow exchanges)
  | _, [] => .isTrue trivial
  | lines, exchange :: rest =>
    have := decidableChangesWhileLow (lines.after exchange) rest
    inferInstanceAs (Decidable ((lines.Changes exchange → lines.tck = false) ∧
      (lines.after exchange).ChangesWhileLow rest))

/-- The same in terms of what was said before each change. -/
theorem changesWhileLow_iff {lines : Lines} {exchanges : List Exchange} :
    lines.ChangesWhileLow exchanges ↔ ∀ front exchange, front ++ [exchange] <+: exchanges →
      (lines.watch front).Changes exchange → (lines.watch front).tck = false := by
  induction exchanges generalizing lines with
  | nil => simp [ChangesWhileLow]
  | cons first rest ih =>
    rw [ChangesWhileLow, ih]
    constructor
    · rintro ⟨hfirst, hrest⟩ front exchange hfront
      cases front with
      | nil =>
        obtain ⟨rfl, -⟩ := List.cons_prefix_cons.mp hfront
        exact hfirst
      | cons other front =>
        obtain ⟨rfl, hlater⟩ := List.cons_prefix_cons.mp hfront
        exact hrest front exchange hlater
    · intro h
      refine ⟨h [] first (List.cons_prefix_cons.mpr ⟨rfl, List.nil_prefix⟩), ?_⟩
      intro front exchange hfront
      exact h (first :: front) exchange (List.cons_prefix_cons.mpr ⟨rfl, hfront⟩)

/-- Whether the clock line was high at first or has risen. -/
def hasRisen (lines : Lines) (exchanges : List Exchange) : Bool :=
  lines.tck || !(lines.edges exchanges).isEmpty

/-- Whenever the mode line or the data line is driven, the clock line is high from the edge before,
and low only if there was none. -/
def SetsUpAhead (lines : Lines) (exchanges : List Exchange) : Prop :=
  ∀ front exchange, front ++ [exchange] <+: exchanges → exchange.SetsUp →
    (lines.watch front).tck = lines.hasRisen front

/-- After an edge the clock line counts as having risen. -/
theorem hasRisen_append {lines : Lines} {first : List Exchange}
    (h : (lines.watch first).tck = lines.hasRisen first) (second : List Exchange) :
    lines.hasRisen (first ++ second) = (lines.watch first).hasRisen second := by
  rw [hasRisen, hasRisen, h, hasRisen, edges_append, Bool.or_assoc]
  cases lines.edges first <;> rfl

/-- What is said first in two parts is said first in the first one, or ends in the second. -/
theorem prefix_append_cases {front first second : List Exchange} {exchange : Exchange}
    (h : front ++ [exchange] <+: first ++ second) : front ++ [exchange] <+: first ∨
      ∃ late, front = first ++ late ∧ late ++ [exchange] <+: second := by
  obtain ⟨back, hback⟩ := h
  rcases List.append_eq_append_iff.mp hback with ⟨later, rfl, -⟩ | ⟨late, hlate, rfl⟩
  · exact .inl (List.prefix_append _ _)
  · rcases List.eq_nil_or_concat late with rfl | ⟨late, last, rfl⟩
    · rw [List.append_nil] at hlate
      exact .inl (hlate ▸ List.prefix_rfl)
    · rw [List.concat_eq_append, ← List.append_assoc] at hlate
      obtain ⟨rfl, hlast⟩ := List.append_inj' hlate rfl
      rw [List.concat_eq_append, ← hlast]
      exact .inr ⟨late, rfl, List.prefix_append _ _⟩

/-- One part after the other, if the first has left the clock line as it should be. -/
theorem setsUpAhead_append {lines : Lines} {first second : List Exchange}
    (hfirst : lines.SetsUpAhead first) (h : (lines.watch first).tck = lines.hasRisen first)
    (hsecond : (lines.watch first).SetsUpAhead second) : lines.SetsUpAhead (first ++ second) := by
  intro front exchange hfront hsets
  rcases prefix_append_cases hfront with hearly | ⟨late, rfl, hlate⟩
  · exact hfirst front exchange hearly hsets
  · rw [watch_append, hasRisen_append h]
    exact hsecond late exchange hlate hsets

/-- Exchanges that drive no line set nothing up. -/
theorem not_setsUp_of_isIdle {exchange : Exchange} (h : IsIdle exchange) : ¬ exchange.SetsUp := by
  obtain ⟨c, answer⟩ := exchange
  cases c with
  | write line level => exact h.elim
  | _ => exact id

theorem setsUpAhead_append_of_isIdle {lines : Lines} {first idle : List Exchange}
    (hfirst : lines.SetsUpAhead first) (h : ∀ exchange ∈ idle, IsIdle exchange) :
    lines.SetsUpAhead (first ++ idle) := by
  intro front exchange hfront hsets
  rcases prefix_append_cases hfront with hearly | ⟨late, -, hlate⟩
  · exact hfirst front exchange hearly hsets
  · exact absurd hsets (not_setsUp_of_isIdle (h exchange (hlate.subset (by simp))))

theorem setsUpAhead_nil (lines : Lines) : lines.SetsUpAhead [] := by
  intro front exchange hfront
  simp at hfront

theorem setsUpAhead_of_isIdle (lines : Lines) {idle : List Exchange}
    (h : ∀ exchange ∈ idle, IsIdle exchange) : lines.SetsUpAhead idle :=
  setsUpAhead_append_of_isIdle lines.setsUpAhead_nil h

theorem hasRisen_of_isIdle (lines : Lines) {idle : List Exchange}
    (h : ∀ exchange ∈ idle, IsIdle exchange) : (lines.watch idle).tck = lines.hasRisen idle := by
  rw [lines.watch_eq_of_isIdle h, hasRisen, lines.edges_eq_nil_of_isIdle h]
  exact (Bool.or_false _).symm

/-- If the clock line is low at first, the lines are set up while it is high, but for the first
edge. So they change while it is low as long only as nothing changes after that edge. -/
structure SetUpHigh (lines : Lines) (exchanges : List Exchange) : Prop where
  high_iff : ∀ front exchange, front ++ [exchange] <+: exchanges → exchange.SetsUp →
    ((lines.watch front).tck = true ↔ lines.edges front ≠ [])
  low_iff : lines.ChangesWhileLow exchanges ↔ ∀ front exchange, front ++ [exchange] <+: exchanges →
    (lines.watch front).Changes exchange → lines.edges front = []

theorem SetsUpAhead.setUpHigh {lines : Lines} {exchanges : List Exchange}
    (h : lines.SetsUpAhead exchanges) (hlow : lines.tck = false) : lines.SetUpHigh exchanges := by
  have hhigh : ∀ front exchange, front ++ [exchange] <+: exchanges → exchange.SetsUp →
      ((lines.watch front).tck = true ↔ lines.edges front ≠ []) := by
    intro front exchange hfront hsets
    rw [h front exchange hfront hsets, hasRisen, hlow]
    simp
  refine ⟨hhigh, changesWhileLow_iff.trans ?_⟩
  refine forall₄_congr fun front exchange hfront hchanges => ?_
  rw [← Bool.not_eq_true, hhigh front exchange hfront hchanges.setsUp]
  exact Decidable.not_not

end Lines

namespace TapDriver

variable {driver driver' : TapDriver} {exchanges : List Exchange}

/-- The mode and data lines are set up ahead, and unless an edge is overdue the clock line is left
as it was found or high. -/
def setsUpAhead : Law TapDriver := fun _ exchanges reason _ =>
  Flawless exchanges → ∀ lines : Lines, lines.SetsUpAhead exchanges ∧
    (reason ≠ some .deadlineOverflow → (lines.watch exchanges).tck = lines.hasRisen exchanges)

/-- Nothing is set up after the beginning of a clock, at which the clock line is as it was found. -/
theorem setsUpAhead_setUp (tms tdi : Bool) {rest : List Exchange}
    (hrest : ∀ exchange ∈ rest, ¬ exchange.SetsUp) (lines : Lines) :
    lines.SetsUpAhead (setUp tms tdi ++ rest) := by
  have hfound : lines.tck = lines.hasRisen [] := (Bool.or_false _).symm
  intro front exchange hfront hsets
  match front with
  | [] => exact hfound
  | [first] =>
    obtain ⟨rfl, -⟩ := List.cons_prefix_cons.mp hfront
    exact hfound
  | [_, _] =>
    obtain ⟨-, hfront⟩ := List.cons_prefix_cons.mp hfront
    obtain ⟨-, hfront⟩ := List.cons_prefix_cons.mp hfront
    obtain ⟨rfl, -⟩ := List.cons_prefix_cons.mp hfront
    exact hsets.elim
  | _ :: _ :: _ :: later =>
    obtain ⟨-, hfront⟩ := List.cons_prefix_cons.mp hfront
    obtain ⟨-, hfront⟩ := List.cons_prefix_cons.mp hfront
    obtain ⟨-, hfront⟩ := List.cons_prefix_cons.mp hfront
    exact absurd hsets (hrest exchange (hfront.subset (by simp)))

theorem clock_setsUpAhead (tms tdi : Bool) : (clock tms tdi).Upholds setsUpAhead := by
  intro driver exchanges result driver' hcourse hflawless lines
  have hedges := clock_edges hcourse lines
  cases clock_course hcourse with
  | tmsFails | tdiFails | lowFails | riseFails | sampleFails =>
    simp [Exchange.Succeeds] at hflawless
  | overdue hdue =>
    rw [← List.append_nil (setUp tms tdi)]
    exact ⟨setsUpAhead_setUp tms tdi (by simp) lines, fun hreason => absurd rfl hreason⟩
  | sampled instant level hdue =>
    refine ⟨setsUpAhead_setUp tms tdi ?_ lines, fun _ => ?_⟩
    · intro exchange hmem
      rcases List.mem_append.mp hmem with hpause | hrise
      · exact Lines.not_setsUp_of_isIdle (driver.isIdle_of_mem_pause exchange hpause)
      · simp only [List.mem_cons, List.not_mem_nil, or_false] at hrise
        rcases hrise with rfl | rfl | rfl <;> exact id
    · rcases hedges with ⟨hedges, -, -⟩ | ⟨-, -, -, reason, hreason⟩
      · rw [Lines.hasRisen, hedges, Lines.watch_append, Lines.watch_append]
        simp [Lines.watch, Lines.after, Lines.drive]
      · cases hreason

theorem setsUpAhead_obeys : Obeys setsUpAhead where
  refl _ _ lines := ⟨lines.setsUpAhead_nil, fun _ => (Bool.or_false _).symm⟩
  fail _ _ _ lines := ⟨lines.setsUpAhead_nil, fun _ => (Bool.or_false _).symm⟩
  quiet := by
    intro driver c answer hquiet hflawless lines
    have hidle : ∀ exchange ∈ [(⟨c, answer⟩ : Exchange)], Lines.IsIdle exchange := by
      simpa using Lines.isIdle_of_isQuiet hquiet answer
    exact ⟨lines.setsUpAhead_of_isIdle hidle, fun _ => lines.hasRisen_of_isIdle hidle⟩
  trans := by
    intro driver middle driver' first second reason hfirst hsecond hflawless lines
    obtain ⟨hflawless, hflawless'⟩ := flawless_append.mp hflawless
    obtain ⟨hahead, hleft⟩ := hfirst hflawless lines
    obtain ⟨hahead', hleft'⟩ := hsecond hflawless' (lines.watch first)
    have hhigh := hleft (by simp)
    refine ⟨Lines.setsUpAhead_append hahead hhigh hahead', fun hreason => ?_⟩
    rw [Lines.watch_append, hleft' hreason, Lines.hasRisen_append hhigh]
  clock := clock_setsUpAhead

theorem performAll_setsUpAhead (operations : List Operation) :
    Action.Upholds setsUpAhead (performAll operations) := by
  refine performAll_upholds setsUpAhead_obeys (fun driver _ => setsUpAhead_obeys.refl driver) ?_
    operations
  intro driver exchanges error driver' h hflawless lines
  exact ⟨(h hflawless lines).1, fun _ => (h hflawless lines).2 (by simp)⟩

end TapDriver

namespace Player

variable {exchanges : List Exchange}

/-- The law for the driver of a session. -/
theorem setsUpAhead_obeys : Obeys (lawOfTap TapDriver.setsUpAhead) :=
  Obeys.ofTap TapDriver.setsUpAhead_obeys fun driver _ => TapDriver.setsUpAhead_obeys.refl driver

/-- A run sets up the lines ahead, if no operation on the bus fails. -/
theorem RunCourse.setsUpAhead {config : PlayerConfig} {program : List Instruction}
    {performance : Performance} {outcome : RunOutcome}
    (h : RunCourse config program performance exchanges outcome) (hflawless : Flawless exchanges)
    (lines : Lines) : lines.SetsUpAhead exchanges := by
  cases h with
  | unstarted start instant error =>
    refine Lines.setsUpAhead_append_of_isIdle ?_ (by simp [Lines.IsIdle])
    exact lines.setsUpAhead_of_isIdle (isIdle_opening program start _)
  | @unready start resetting reason session closing outcome hreset hfinish =>
    have hopening := isIdle_opening program start (.ok ())
    have hresetting := (flawless_append.mp (flawless_append.mp hflawless).2).1
    have hlaw := onTap_upholds_lawOfTap
      (TapDriver.reset_upholds TapDriver.setsUpAhead_obeys) hreset hresetting
    refine Lines.setsUpAhead_append (lines.setsUpAhead_of_isIdle hopening)
      (lines.hasRisen_of_isIdle hopening) ?_
    exact Lines.setsUpAhead_append_of_isIdle (hlaw _).1 hfinish.isIdle
  | @ready start resetting session stages result session' closing outcome hreset hstages hfinish =>
    have hopening := isIdle_opening program start (.ok ())
    rw [← List.append_assoc resetting] at hflawless ⊢
    have hinner := (flawless_append.mp (flawless_append.mp hflawless).2).1
    have hlaw := hstages.upholds setsUpAhead_obeys
      (fun session _ lines => ⟨lines.setsUpAhead_nil, fun hreason => absurd rfl hreason⟩) 0
    have hlaw' := setsUpAhead_obeys.trans (onTap_upholds_lawOfTap
      (TapDriver.reset_upholds TapDriver.setsUpAhead_obeys) hreset) hlaw hinner
    refine Lines.setsUpAhead_append (lines.setsUpAhead_of_isIdle hopening)
      (lines.hasRisen_of_isIdle hopening) ?_
    exact Lines.setsUpAhead_append_of_isIdle (hlaw' _).1 hfinish.isIdle

/-- The mode and data lines are set up while the clock line is still high from the edge before. If
no operation on the bus fails and the clock line is low at first, the only edge for which they are
set up while it is low is the first one, in every run and in every series of operations on a driver.
So the lines change while the clock line is low in those only in which nothing changes after the
first edge. -/
theorem set_up_high {β τ : Type} [Bus β] [Clock τ] (bench : Bench β τ) (lines : Lines)
    (hlow : lines.tck = false) :
    (∀ config program, Flawless ((run config program).transcript bench) →
      lines.SetUpHigh ((run config program).transcript bench)) ∧
    (∀ operations (driver : TapDriver),
      Flawless ((TapDriver.performAll operations driver).transcript bench) →
        lines.SetUpHigh ((TapDriver.performAll operations driver).transcript bench)) := by
  refine ⟨fun config program hflawless => ?_, fun operations driver hflawless => ?_⟩
  · exact ((run_course config program bench).setsUpAhead hflawless lines).setUpHigh hlow
  · have hcourse := Dialogue.course_transcript (TapDriver.performAll operations driver) bench
    have hlaw := TapDriver.performAll_setsUpAhead operations hcourse hflawless lines
    exact hlaw.1.setUpHigh hlow

/-- After its reset a run of a scan sets up the lines while the clock line is high. -/
theorem set_up_high_scan :
    let bench : Bench SimulatedBus IdealClock := { bus := {}, clock := {} }
    let transcript := (run {} [.shift .data { length := 2, tdi := some [1] } none]).transcript bench
    Flawless transcript ∧ ∀ front exchange, front ++ [exchange] <+: transcript → exchange.SetsUp →
      (({} : Lines).edges front).length = 5 → (({} : Lines).watch front).tck = true := by
  intro bench transcript
  have hflawless : Flawless transcript := by decide +kernel
  refine ⟨hflawless, fun front exchange hfront hsets hfive => ?_⟩
  have hset := (set_up_high bench {} rfl).1 {} _ hflawless
  refine (hset.high_iff front exchange hfront hsets).mpr fun hnil => ?_
  rw [hnil] at hfive
  cases hfive

/-- Two clocks with different levels, and a run that leaves the reset state. No operation on the bus
fails, and the mode line changes while the clock line is high. -/
theorem changes_while_high :
    let bench : Bench SimulatedBus IdealClock := { bus := {}, clock := {} }
    let clocks :=
      TapDriver.performAll [.clock true false, .clock false false] { spinThreshold := 0 }
    let play := run {} [.goToState .idle none]
    Flawless (clocks.transcript bench) ∧
      ¬ ({} : Lines).ChangesWhileLow (clocks.transcript bench) ∧
      Flawless (play.transcript bench) ∧
      ¬ ({} : Lines).ChangesWhileLow (play.transcript bench) := by
  decide +kernel

end Player

end JtagPlayer
