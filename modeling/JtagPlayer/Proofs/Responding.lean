import JtagPlayer.Proofs.Preparation

/-!
# Buses that answer by rule

What a bus returns may depend on the level of the data line, on the rising edges so far and on the
number of samples so far. `Wires` holds what a bus has been through in these terms. A `Responsive`
bus is seen as such wires: an operation that succeeds changes them as it should, a sample returns
what the rule says, and an operation that fails may leave them in any state. When the bus is
acquired or released the lines may be brought to any level, without an edge.

`Player.responding_alike` compares a run on two such buses whose lines may be at different levels
and whose histories may differ, as long as the rule does not tell these apart. The runs make the
same calls and are given the same answers.
-/

namespace JtagPlayer

open JtagPlayer.Action

theorem Exchange.succeeds_acquire {answer : Except IoError Unit} :
    Succeeds ⟨.acquire, answer⟩ ↔ answer = .ok () := by
  cases answer <;> simp [Succeeds]

theorem Exchange.succeeds_write {line : Line} {level : Bool} {answer : Except IoError Unit} :
    Succeeds ⟨.write line level, answer⟩ ↔ answer = .ok () := by
  cases answer <;> simp [Succeeds]

theorem Exchange.succeeds_read {line : Line} {answer : Except IoError Bool} :
    Succeeds ⟨.read line, answer⟩ ↔ ∃ level, answer = .ok level := by
  cases answer <;> simp [Succeeds]

/-- Only the bus is sampled. -/
theorem levels_onBus (exchanges : List Exchange) : levels (onBus exchanges) = levels exchanges := by
  rw [levels, levels, onBus, List.filterMap_filter]
  refine congrArg (List.filterMap · exchanges) (funext fun exchange => ?_)
  obtain ⟨c, answer⟩ := exchange
  cases c <;> simp [Call.IsQuiet, Exchange.level?]

/-- What a bus has been through: the levels of its lines, the edges so far and the levels that its
samples have returned. -/
structure Wires where
  lines : Lines := {}
  edges : List Edge := []
  samples : List Bool := []
  deriving DecidableEq

/-- The level of the next sample, by the level of the data line, the edges so far and the number of
samples so far. -/
abbrev Response : Type := Bool → List Edge → Nat → Bool

namespace Wires

/-- The wires after a series of exchanges. -/
def watch (wires : Wires) (exchanges : List Exchange) : Wires where
  lines := wires.lines.watch exchanges
  edges := wires.edges ++ wires.lines.edges exchanges
  samples := wires.samples ++ levels exchanges

theorem watch_append (wires : Wires) (first second : List Exchange) :
    wires.watch (first ++ second) = (wires.watch first).watch second := by
  simp only [watch, Lines.watch, Lines.edges_append, levels_append, List.foldl_append,
    List.append_assoc]

/-- What a sample returns. -/
def answer (wires : Wires) (respond : Response) : Bool :=
  respond wires.lines.tdi wires.edges wires.samples.length

/-- Whatever happens next, the response does not tell two histories apart. -/
def AnswersAlike (respond : Response) (wires wires' : Wires) : Prop :=
  ∀ tdi edges samples,
    respond tdi (wires.edges ++ edges) (wires.samples ++ samples).length =
      respond tdi (wires'.edges ++ edges) (wires'.samples ++ samples).length

/-- The same histories are not told apart, whatever the levels of the lines. -/
theorem answersAlike_of_eq {wires wires' : Wires} (hedges : wires.edges = wires'.edges)
    (hsamples : wires.samples = wires'.samples) (respond : Response) :
    AnswersAlike respond wires wires' := by
  intro tdi edges samples
  rw [hedges, hsamples]

/-- The wires after an exchange that succeeded. If it acquires or releases the bus, the lines may be
at any level. -/
structure Becomes (wires : Wires) (exchange : Exchange) (wires' : Wires) : Prop where
  edges : wires'.edges = wires.edges ++ wires.lines.edges [exchange]
  samples : wires'.samples = wires.samples ++ levels [exchange]
  fits : ∀ {driven : Driven}, driven.Fits wires.lines →
    (driven.after exchange).Fits wires'.lines

/-- An exchange that makes no edge and samples nothing. -/
theorem Becomes.of_idle {wires : Wires} {exchange : Exchange} {lines : Lines}
    (hedges : wires.lines.edges [exchange] = []) (hlevels : levels [exchange] = [])
    (hfits : ∀ {driven : Driven}, driven.Fits wires.lines → (driven.after exchange).Fits lines) :
    wires.Becomes exchange { wires with lines } where
  edges := by rw [hedges, List.append_nil]
  samples := by rw [hlevels, List.append_nil]
  fits := hfits

theorem becomes_watch (wires : Wires) (exchange : Exchange) :
    wires.Becomes exchange (wires.watch [exchange]) :=
  ⟨rfl, rfl, fun h => h.after exchange⟩

theorem becomes_self (wires : Wires) {c : Call} (h : c.IsQuiet) (answer : c.Answer) :
    wires.Becomes ⟨c, answer⟩ wires :=
  .of_idle (wires.lines.edges_cons_of_isIdle (Lines.isIdle_of_isQuiet h answer) [])
    (levels_cons_of_isQuiet h answer [])
    fun hfits => (Driven.after_of_isQuiet _ h answer).symm ▸ hfits

/-- The wires after some exchanges, all of which succeeded. -/
structure Tracks (origin : Wires) (met : List Exchange) (wires : Wires) : Prop where
  edges : wires.edges = origin.edges ++ ({} : Lines).edges met
  samples : wires.samples = origin.samples ++ levels met
  fits : (({} : Driven).watch met).Fits wires.lines

theorem tracks_self (wires : Wires) : Tracks wires [] wires :=
  ⟨(List.append_nil _).symm, (List.append_nil _).symm, Driven.fits_empty _⟩

/-- The edges that an exchange makes that is prepared for do not depend on what the lines are
thought to be at first. -/
theorem Tracks.becomes {origin wires wires' : Wires} {met : List Exchange} {exchange : Exchange}
    (h : Tracks origin met wires) (hready : ((({} : Driven).watch met).IsReadyFor exchange.call))
    (hbecomes : wires.Becomes exchange wires') : Tracks origin (met ++ [exchange]) wires' where
  edges := by
    have hedge : wires.lines.edges [exchange] = (({} : Lines).watch met).edges [exchange] :=
      Driven.Prepares.edges_eq ⟨hready, trivial⟩ h.fits ((Driven.fits_empty _).watch met)
    rw [hbecomes.edges, h.edges, hedge, Lines.edges_append, List.append_assoc]
  samples := by rw [hbecomes.samples, h.samples, levels_append, List.append_assoc]
  fits := by
    have hfits := hbecomes.fits h.fits
    rwa [Driven.watch, List.foldl_append]

end Wires

/-- A bus that is seen as wires and answers by rule. -/
structure Responsive (β : Type) [Bus β] (respond : Response) where
  /-- What a state of the bus is seen as. -/
  Shows : β → Wires → Prop
  acquire : ∀ {bus wires}, Shows bus wires →
    ∃ lines, Shows (Bus.acquire bus).2 { wires with lines }
  write : ∀ {bus wires}, Shows bus wires → ∀ line level, line ≠ .tdo →
    ∃ wires', Shows (Bus.write line level bus).2 wires' ∧
      ((Bus.write line level bus).1 = .ok () →
        wires' = wires.watch [⟨.write line level, .ok ()⟩])
  read : ∀ {bus wires}, Shows bus wires →
    ∃ wires', Shows (Bus.read .tdo bus).2 wires' ∧
      ∀ level, (Bus.read .tdo bus).1 = .ok level →
        level = wires.answer respond ∧ wires' = wires.watch [⟨.read .tdo, .ok level⟩]
  release : ∀ {bus wires}, Shows bus wires →
    ∃ lines, Shows (Bus.release bus) { wires with lines }

namespace Responsive

variable {α β β' τ : Type} [Bus β] [Bus β'] [Clock τ] {respond : Response}

/-- A call leaves the bus with some wires, those it should if it succeeds. -/
theorem answer (h : Responsive β respond) {bench : Bench β τ} {wires : Wires}
    (hshows : h.Shows bench.bus wires) {c : Call} (hproper : c.IsProper) :
    ∃ wires', h.Shows (bench.answer c).2.bus wires' ∧
      (Exchange.Succeeds ⟨c, (bench.answer c).1⟩ →
        wires.Becomes ⟨c, (bench.answer c).1⟩ wires') := by
  cases c with
  | acquire =>
    obtain ⟨lines, hlines⟩ := h.acquire hshows
    exact ⟨_, hlines, fun _ => .of_idle rfl rfl fun _ => Driven.fits_empty lines⟩
  | write line level =>
    obtain ⟨wires', hwires', hok⟩ := h.write hshows line level hproper
    refine ⟨wires', hwires', fun hsucceeds => ?_⟩
    have hanswer : (bench.answer (.write line level)).1 = .ok () :=
      Exchange.succeeds_write.mp hsucceeds
    rw [hanswer, hok hanswer]
    exact wires.becomes_watch _
  | read line =>
    obtain rfl : line = .tdo := hproper
    obtain ⟨wires', hwires', hok⟩ := h.read hshows
    refine ⟨wires', hwires', fun hsucceeds => ?_⟩
    obtain ⟨level, hanswer⟩ : ∃ level, (bench.answer (.read .tdo)).1 = .ok level :=
      Exchange.succeeds_read.mp hsucceeds
    rw [hanswer, (hok level hanswer).2]
    exact wires.becomes_watch _
  | release =>
    obtain ⟨lines, hlines⟩ := h.release hshows
    exact ⟨_, hlines, fun _ => .of_idle rfl rfl fun _ => Driven.fits_empty lines⟩
  | now => exact ⟨wires, hshows, fun _ => wires.becomes_self (c := .now) trivial _⟩
  | wait => exact ⟨wires, hshows, fun _ => wires.becomes_self (c := .wait _ _) trivial _⟩
  | note => exact ⟨wires, hshows, fun _ => wires.becomes_self (c := .note _) trivial _⟩

/-- A sample returns what the rule says. -/
theorem level_eq (h : Responsive β respond) {bench : Bench β τ} {wires : Wires}
    (hshows : h.Shows bench.bus wires) {level : Bool}
    (hanswer : (bench.answer (.read .tdo)).1 = .ok level) : level = wires.answer respond := by
  obtain ⟨wires', -, hok⟩ := h.read hshows
  exact (hok level hanswer).1

/-- Whatever fails on a bench, its bus is still one that answers by rule. -/
theorem exists_shows (h : Responsive β respond) (dialogue : Dialogue α) {bench : Bench β τ}
    {wires : Wires} (hshows : h.Shows bench.bus wires)
    (hproper : ∀ exchange ∈ dialogue.transcript bench, exchange.call.IsProper) :
    ∃ wires', h.Shows (dialogue.play bench).2.bus wires' := by
  induction dialogue generalizing bench wires with
  | done result => exact ⟨wires, hshows⟩
  | call c next ih =>
    obtain ⟨hfirst, hrest⟩ := List.forall_mem_cons.mp hproper
    obtain ⟨wires', hshows', -⟩ := h.answer hshows hfirst
    exact ih _ hshows' hrest

/-- A bus that began with some wires and has been through some exchanges, all of which succeeded. -/
def Reaches (h : Responsive β respond) (origin : Wires) (met : List Exchange) (bus : β) : Prop :=
  ∃ wires, h.Shows bus wires ∧ origin.Tracks met wires

theorem Reaches.answer {h : Responsive β respond} {origin : Wires} {met : List Exchange}
    {bench : Bench β τ} (hreaches : h.Reaches origin met bench.bus) {c : Call}
    (hready : (({} : Driven).watch met).IsReadyFor c)
    (hsucceeds : Exchange.Succeeds ⟨c, (bench.answer c).1⟩) :
    h.Reaches origin (met ++ [⟨c, (bench.answer c).1⟩]) (bench.answer c).2.bus := by
  obtain ⟨wires, hshows, htracks⟩ := hreaches
  obtain ⟨wires', hshows', hbecomes⟩ := h.answer hshows (Driven.isProper_of_isReadyFor hready)
  exact ⟨wires', hshows', htracks.becomes hready (hbecomes hsucceeds)⟩

/-- So has a bus on which a dialogue was held that asks for no more than it has driven. -/
theorem Reaches.play {h : Responsive β respond} {origin : Wires} {met : List Exchange}
    (dialogue : Dialogue α) {bench : Bench β τ} (hreaches : h.Reaches origin met bench.bus)
    (hprepares : (({} : Driven).watch met).Prepares (dialogue.transcript bench))
    (hflawless : Flawless (dialogue.transcript bench)) :
    h.Reaches origin (met ++ dialogue.transcript bench) (dialogue.play bench).2.bus := by
  induction dialogue generalizing bench met with
  | done result =>
    show h.Reaches origin (met ++ []) bench.bus
    rwa [List.append_nil]
  | call c next ih =>
    obtain ⟨hready, hrest⟩ := hprepares
    obtain ⟨hsucceeds, hrests⟩ := flawless_cons.mp hflawless
    rw [Dialogue.transcript, List.append_cons]
    exact ih _ (hreaches.answer hready hsucceeds) (by rwa [Driven.watch, List.foldl_append]) hrests

/-- Two calls on the bus are given the same answer, and nothing fails. -/
def Agrees (c : Call) (bench : Bench β τ) (bench' : Bench β' τ) : Prop :=
  Exchange.Succeeds ⟨c, (bench.answer c).1⟩ ∧ (bench.answer c).1 = (bench'.answer c).1

/-- Two buses that answer by the same rule, until a call on them fails or is given different
answers. -/
def coupling (h : Responsive β respond) (h' : Responsive β' respond) (origin origin' : Wires)
    (terms : Terms) : Coupling terms β β' τ τ where
  Holds met bench bench' :=
    (({} : Driven).Prepares met →
      h.Reaches origin met bench.bus ∧ h'.Reaches origin' met bench'.bus) ∧
    (terms.sameClock = true → bench.clock = bench'.clock)
  Breaks c bench bench' := ¬ c.IsQuiet ∧ ¬ Agrees c bench bench'
  both := by
    intro met bench bench' c hholds hshares
    obtain ⟨hreaches, hclock⟩ := hholds
    by_cases hagrees : Agrees c bench bench'
    · obtain ⟨hsucceeds, hanswer⟩ := hagrees
      refine .inr ⟨hanswer ▸ Terms.matches_self _ _, fun hprepares => ?_,
        fun hsame => Bench.clock_answer (hclock hsame) c⟩
      obtain ⟨hmet, hready, -⟩ := Driven.prepares_append.mp hprepares
      obtain ⟨hfirst, hsecond⟩ := hreaches hmet
      refine ⟨hfirst.answer hready hsucceeds, ?_⟩
      rw [hanswer] at hsucceeds ⊢
      exact hsecond.answer hready hsucceeds
    · refine .inl ⟨fun hquiet => hagrees ⟨Exchange.succeeds_of_isQuiet hquiet, ?_⟩, hagrees⟩
      have hsame := hclock (Terms.sameClock_of_isQuiet hshares hquiet)
      cases c with
      | acquire | write | read | release => exact hquiet.elim
      | now => exact congrArg Clock.now hsame
      | wait | note => rfl
  first := by
    intro met bench bench' c hholds hshares
    rw [Bench.bus_answer (Terms.isQuiet_of_not_shares hshares)]
    exact ⟨hholds.1, fun hsame =>
      (Bench.clock_answer_of_not_shares hsame hshares).trans (hholds.2 hsame)⟩
  second := by
    intro met bench bench' c hholds hshares
    rw [Bench.bus_answer (Terms.isQuiet_of_not_shares hshares)]
    exact ⟨hholds.1, fun hsame =>
      (hholds.2 hsame).trans (Bench.clock_answer_of_not_shares hsame hshares).symm⟩

variable {h : Responsive β respond} {h' : Responsive β' respond} {origin origin' : Wires}
  {met : List Exchange} {bench : Bench β τ} {bench' : Bench β' τ}

/-- After the same exchanges both return the same level, whatever the levels of the lines were at
first. -/
theorem answer_eq (halike : Wires.AnswersAlike respond origin origin') {wires wires' : Wires}
    (htracks : origin.Tracks met wires) (htracks' : origin'.Tracks met wires')
    (hready : (({} : Driven).watch met).IsReadyFor (.read .tdo)) :
    wires.answer respond = wires'.answer respond := by
  rw [Wires.answer, Wires.answer, htracks.fits.tdi_eq htracks'.fits hready, htracks.edges,
    htracks.samples, htracks'.edges, htracks'.samples]
  exact halike _ _ _

/-- Calls that find driven what they ask for agree if they succeed. -/
theorem agrees (halike : Wires.AnswersAlike respond origin origin')
    (hreaches : h.Reaches origin met bench.bus) (hreaches' : h'.Reaches origin' met bench'.bus)
    {c : Call} (hready : (({} : Driven).watch met).IsReadyFor c) (hquiet : ¬ c.IsQuiet)
    (hsucceeds : Exchange.Succeeds ⟨c, (bench.answer c).1⟩)
    (hsucceeds' : Exchange.Succeeds ⟨c, (bench'.answer c).1⟩) : Agrees c bench bench' := by
  refine ⟨hsucceeds, ?_⟩
  cases c with
  | acquire =>
    rw [Exchange.succeeds_acquire.mp hsucceeds]
    exact (Exchange.succeeds_acquire.mp hsucceeds').symm
  | write line level =>
    rw [Exchange.succeeds_write.mp hsucceeds]
    exact (Exchange.succeeds_write.mp hsucceeds').symm
  | read line =>
    obtain ⟨wires, hshows, htracks⟩ := hreaches
    obtain ⟨wires', hshows', htracks'⟩ := hreaches'
    obtain ⟨level, hlevel⟩ := Exchange.succeeds_read.mp hsucceeds
    obtain ⟨level', hlevel'⟩ := Exchange.succeeds_read.mp hsucceeds'
    obtain rfl : line = .tdo := Driven.isProper_of_isReadyFor hready
    rw [hlevel, hlevel', h.level_eq hshows hlevel, h'.level_eq hshows' hlevel',
      answer_eq halike htracks htracks' hready]
  | release => rfl
  | now | wait | note => exact absurd trivial hquiet

end Responsive

namespace Player

variable {β β' τ : Type} [Bus β] [Bus β'] [Clock τ] {respond : Response}

/-- Two runs on buses that answer by the same rule make the same calls and are given the same
answers, whatever the levels of the lines before, if the rule does not tell the histories of the
buses apart and nothing fails. -/
theorem responding_alike {h : Responsive β respond} {h' : Responsive β' respond}
    {bench : Bench β τ} {bench' : Bench β' τ} {wires wires' : Wires}
    (hshows : h.Shows bench.bus wires) (hshows' : h'.Shows bench'.bus wires')
    (halike : wires.AnswersAlike respond wires') (config : PlayerConfig)
    (program : List Instruction) (hflawless : Flawless ((run config program).transcript bench))
    (hflawless' : Flawless ((run config program).transcript bench'))
    (hcomparable : Comparable program bench.clock bench'.clock
      ((run config program).play bench).1 ((run config program).play bench').1) :
    onBus ((run config program).transcript bench') =
        onBus ((run config program).transcript bench) ∧
      ((run config program).play bench).1.Alike ⟨false, true⟩
        ((run config program).play bench').1 ∧
      (bench'.clock = bench.clock →
        ((run config program).play bench').1 = ((run config program).play bench).1 ∧
        ((run config program).play bench').2.clock =
          ((run config program).play bench).2.clock) := by
  obtain ⟨terms, hlevels, hsame, hlimit, hkept, hkept'⟩ := hcomparable.exists_terms true
  have hholds : (h.coupling h' wires wires' terms).Holds [] bench bench' :=
    ⟨fun _ => ⟨⟨wires, hshows, wires.tracks_self⟩, ⟨wires', hshows', wires'.tracks_self⟩⟩,
      fun heq => (hsame.mp heq).symm⟩
  have hlockstep : Lockstep terms (RunOutcome.Alike terms) (RunOutcome.Overflows terms)
      (run config program) (run config program) :=
    run_lockstep (.inl ⟨hlevels, rfl⟩) config program hlimit
  rcases (hlockstep.play hholds).together_or_parted hkept hkept' with
    ⟨hagrees, halikes, -, hclock⟩ |
    ⟨before, before', rest, rest', c, met, met', hsplit, hsplit', -, hholds, hquiet, hdisagree⟩
  · exact ⟨(halikes.onBus_eq hlevels).symm, hagrees.mono nofun fun _ => hlevels, fun heq =>
      ⟨(hagrees.eq (hsame.mpr heq) hlevels).symm, (hclock (hsame.mpr heq)).symm⟩⟩
  · have hprepares := (run_course config program bench).prepared {}
    rw [hsplit] at hprepares hflawless
    rw [hsplit'] at hflawless'
    obtain ⟨hbefore, hready, -⟩ := Driven.prepares_append.mp hprepares
    obtain ⟨hreaches, hreaches'⟩ := hholds.1 ((Driven.prepares_shared terms).mpr hbefore)
    rw [← Driven.watch_shared _ terms] at hready
    simp only [flawless_append, flawless_cons] at hflawless hflawless'
    exact absurd (Responsive.agrees halike hreaches hreaches' hready hquiet hflawless.2.1
      hflawless'.2.1) hdisagree

end Player

end JtagPlayer
