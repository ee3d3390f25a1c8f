import JtagPlayer.Proofs.Device

/-!
# When things happen

`Dialogue.history` is the transcript of a dialogue with the readings of the clock at which every
exchange began and was over. A player sees only what it asks the clock for, so these times say more
than it knows.

Whatever the clock does otherwise, a history is `Chronological`: nothing begins before what came
before it is over, a look at the clock returns a time between its beginning and its end, and a wait
is over at its deadline or later. `Lines.timedEdges` lists the rising edges of a history with their
times.
-/

namespace JtagPlayer

/-- An exchange, and the readings of the clock when it began and when it was over. -/
structure Moment where
  exchange : Exchange
  began : Nat
  ended : Nat

/-- What can be said of the answers of a clock while it goes from one reading to another. -/
def Exchange.IsTimely (began ended : Nat) : Exchange → Prop
  | ⟨.now, instant⟩ => began ≤ instant ∧ instant ≤ ended
  | ⟨.wait deadline _, _⟩ => deadline ≤ ended
  | _ => True

/-- Time does not go back during a moment, and the clock answers truthfully. -/
structure Moment.IsTimely (moment : Moment) : Prop where
  began_le_ended : moment.began ≤ moment.ended
  exchange : moment.exchange.IsTimely moment.began moment.ended

/-- Some moments follow one after the other. -/
structure Chronological (moments : List Moment) : Prop where
  timely : ∀ moment ∈ moments, moment.IsTimely
  ordered : moments.Pairwise fun earlier later => earlier.ended ≤ later.began

theorem chronological_append {first second : List Moment}
    (h : Chronological (first ++ second)) : Chronological first ∧ Chronological second := by
  obtain ⟨hfirst, hsecond, -⟩ := List.pairwise_append.mp h.ordered
  exact ⟨⟨fun moment hmem => h.timely moment (by simp [hmem]), hfirst⟩,
    ⟨fun moment hmem => h.timely moment (by simp [hmem]), hsecond⟩⟩

section Bench

variable {α γ β τ : Type} [Bus β] [Clock τ]

/-- No answer turns the clock back. -/
theorem Bench.now_le_now_answer (bench : Bench β τ) (c : Call) :
    Clock.now bench.clock ≤ Clock.now (bench.answer c).2.clock := by
  cases c with
  | wait deadline spinThreshold => exact Clock.now_le_now_waitUntil _ _ _
  | note entry => exact Nat.le_refl _
  | _ => exact Clock.now_le_now_pass _

/-- Answers are truthful. -/
theorem Bench.isTimely_answer (bench : Bench β τ) (c : Call) :
    Exchange.IsTimely (Clock.now bench.clock) (Clock.now (bench.answer c).2.clock)
      ⟨c, (bench.answer c).1⟩ := by
  cases c with
  | now => exact ⟨Nat.le_refl _, Clock.now_le_now_pass _⟩
  | wait deadline spinThreshold => exact Clock.le_now_waitUntil _ _ _
  | _ => trivial

namespace Dialogue

/-- What is said while a dialogue is held on a bench, and when. -/
def history : Dialogue α → Bench β τ → List Moment
  | done _, _ => []
  | call c next, bench =>
    let answered := bench.answer c
    ⟨⟨c, answered.1⟩, Clock.now bench.clock, Clock.now answered.2.clock⟩ ::
      (next answered.1).history answered.2

/-- Without its times a history is the transcript. -/
@[simp] theorem map_exchange_history (dialogue : Dialogue α) (bench : Bench β τ) :
    (dialogue.history bench).map Moment.exchange = dialogue.transcript bench := by
  induction dialogue generalizing bench with
  | done result => rfl
  | call c next ih => rw [history, List.map_cons, ih, transcript]

/-- The histories of two dialogues in sequence follow one another. -/
theorem history_bind (dialogue : Dialogue α) (f : α → Dialogue γ) (bench : Bench β τ) :
    (dialogue.bind f).history bench = dialogue.history bench ++
      (f (dialogue.play bench).1).history (dialogue.play bench).2 := by
  induction dialogue generalizing bench with
  | done result => rfl
  | call c next ih => simp [history, ih]

/-- No dialogue turns the clock back. -/
theorem now_le_now_play (dialogue : Dialogue α) (bench : Bench β τ) :
    Clock.now bench.clock ≤ Clock.now (dialogue.play bench).2.clock := by
  induction dialogue generalizing bench with
  | done result => exact Nat.le_refl _
  | call c next ih => exact Nat.le_trans (bench.now_le_now_answer c) (ih _ _)

/-- Nothing happens before it begins, and one thing happens after the other. -/
theorem chronological_history (dialogue : Dialogue α) (bench : Bench β τ) :
    Chronological (dialogue.history bench) ∧
      ∀ moment ∈ dialogue.history bench, Clock.now bench.clock ≤ moment.began := by
  induction dialogue generalizing bench with
  | done result => exact ⟨⟨List.forall_mem_nil _, .nil⟩, List.forall_mem_nil _⟩
  | call c next ih =>
    obtain ⟨hlater, hbegan⟩ := ih (bench.answer c).1 (bench.answer c).2
    have hmoves := bench.now_le_now_answer c
    refine ⟨⟨?_, List.pairwise_cons.mpr ⟨hbegan, hlater.ordered⟩⟩, ?_⟩
    · intro moment hmem
      rcases List.mem_cons.mp hmem with rfl | hmem
      · exact ⟨hmoves, bench.isTimely_answer c⟩
      · exact hlater.timely moment hmem
    · intro moment hmem
      rcases List.mem_cons.mp hmem with rfl | hmem
      · exact Nat.le_refl _
      · exact Nat.le_trans hmoves (hbegan moment hmem)

end Dialogue

end Bench

/-- A rising edge: what the device takes over, the delay that is in force, and when the write that
raises the clock line began and was over. -/
structure TimedEdge where
  edge : Edge
  delay : Option Nat
  began : Nat
  ended : Nat
  deriving DecidableEq

/-- A stretch of time and the delay that is in force at its beginning. -/
structure Leg where
  delay : Option Nat
  moments : List Moment

/-- What is said during a leg. -/
def Leg.exchanges (leg : Leg) : List Exchange :=
  leg.moments.map Moment.exchange

namespace Lines

/-- The rising edges during some moments, in order. -/
def timedEdges (delay : Option Nat) : Lines → List Moment → List TimedEdge
  | _, [] => []
  | lines, moment :: moments =>
    if lines.rises moment.exchange then
      ⟨⟨lines.tms, lines.tdi⟩, delay, moment.began, moment.ended⟩ ::
        timedEdges delay (lines.after moment.exchange) moments
    else timedEdges delay (lines.after moment.exchange) moments

/-- They are the edges that the device sees. -/
theorem map_edge_timedEdges (delay : Option Nat) (lines : Lines) (moments : List Moment) :
    (lines.timedEdges delay moments).map TimedEdge.edge =
      lines.edges (moments.map Moment.exchange) := by
  induction moments generalizing lines with
  | nil => rfl
  | cons moment moments ih =>
    rw [timedEdges, List.map_cons, edges, ← ih]
    split <;> rfl

theorem timedEdges_append (delay : Option Nat) (lines : Lines) (first second : List Moment) :
    lines.timedEdges delay (first ++ second) = lines.timedEdges delay first ++
      (lines.watch (first.map Moment.exchange)).timedEdges delay second := by
  induction first generalizing lines with
  | nil => rfl
  | cons moment first ih =>
    have hwatch : lines.watch ((moment :: first).map Moment.exchange) =
        (lines.after moment.exchange).watch (first.map Moment.exchange) := rfl
    rw [List.cons_append, timedEdges, timedEdges, ih, hwatch]
    split <;> rfl

/-- Where the device sees no edge there is none. -/
theorem timedEdges_eq_nil {delay : Option Nat} {lines : Lines} {moments : List Moment}
    (h : lines.edges (moments.map Moment.exchange) = []) : lines.timedEdges delay moments = [] := by
  rw [← map_edge_timedEdges delay] at h
  exact List.map_eq_nil_iff.mp h

/-- The rising edges of some legs. -/
def edgesOf : Lines → List Leg → List TimedEdge
  | _, [] => []
  | lines, leg :: legs =>
    lines.timedEdges leg.delay leg.moments ++ (lines.watch leg.exchanges).edgesOf legs

theorem map_edge_edgesOf (lines : Lines) (legs : List Leg) :
    (lines.edgesOf legs).map TimedEdge.edge = lines.edges (legs.flatMap Leg.exchanges) := by
  induction legs generalizing lines with
  | nil => rfl
  | cons leg legs ih =>
    rw [edgesOf, List.map_append, map_edge_timedEdges, ih, List.flatMap_cons, edges_append]
    rfl

end Lines

end JtagPlayer
