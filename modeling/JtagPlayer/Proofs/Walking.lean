import JtagPlayer.Bus.Simulated
import JtagPlayer.Proofs.Abandonment
import JtagPlayer.Proofs.Keeping
import JtagPlayer.Proofs.Resting

/-!
# Explicit paths are walked exactly

A path can be walked if its states are the trail of a word. The two successors of a state are
different, so there is at most one such word, `TapState.trail_injective`. If there is none, the path
strays: `TapState.Strays` names the word that leads through its first states and the state that no
clock leads to from there.

`TapDriver.walkPath_course` says that a driver gives exactly the clocks of that word, whether the
path can be walked or strays, and `Player.path_walked` says what becomes of the instruction.
-/

namespace JtagPlayer

open JtagPlayer.Action

namespace TapState

variable {start state stray other : TapState} {path : List TapState} {word : List Bool}

/-- A word leads through a path if its first level leads to the first state and the rest on from
there. -/
theorem trail_eq_cons : start.trail word = state :: path ↔
    ∃ tms rest, word = tms :: rest ∧ start.next tms = state ∧ state.trail rest = path := by
  constructor
  · intro h
    cases word with
    | nil => cases h
    | cons tms rest =>
      obtain ⟨hnext, hrest⟩ := List.cons.inj h
      exact ⟨tms, rest, rfl, hnext, hnext ▸ hrest⟩
  · rintro ⟨tms, rest, rfl, rfl, rfl⟩
    rfl

/-- At most one word leads through a path. -/
theorem trail_injective (start : TapState) : Function.Injective start.trail := by
  intro first second h
  induction first generalizing start second with
  | nil =>
    have hlength := congrArg List.length h
    rw [length_trail, length_trail] at hlength
    exact (List.eq_nil_of_length_eq_zero hlength.symm).symm
  | cons tms first ih =>
    obtain ⟨level, rest, rfl, hnext, hrest⟩ := trail_eq_cons.mp h.symm
    obtain rfl := start.next_injective hnext
    rw [ih _ hrest.symm]

/-- The trail of a word ends where the word leads. -/
theorem getLast?_trail (start : TapState) (word : List Bool) :
    (start :: start.trail word).getLast? = some (start.walk word) := by
  induction word generalizing start with
  | nil => rfl
  | cons tms word ih => exact (List.getLast?_cons_cons).trans (ih (start.next tms))

theorem walk_eq_of_trail {target : TapState} (h : start.trail word = path ++ [target]) :
    start.walk word = target := by
  have hlast := start.getLast?_trail word
  rw [h, ← List.cons_append, List.getLast?_concat] at hlast
  exact (Option.some.inj hlast).symm

/-- The path strays: the word leads through its states up to `stray`, and no clock leads there. -/
structure Strays (start : TapState) (path : List TapState) (word : List Bool)
    (stray : TapState) : Prop where
  reached : ∃ later, path = start.trail word ++ stray :: later
  apart : ∀ tms, (start.walk word).next tms ≠ stray

/-- A path strays at its first state, or behind a first state that can be reached. -/
theorem strays_cons : start.Strays (state :: path) word stray ↔
    (word = [] ∧ stray = state ∧ ∀ tms, start.next tms ≠ state) ∨
    ∃ tms rest, word = tms :: rest ∧ start.next tms = state ∧ state.Strays path rest stray := by
  constructor
  · rintro ⟨⟨later, hreached⟩, hapart⟩
    cases word with
    | nil =>
      obtain ⟨rfl, -⟩ := List.cons.inj hreached
      exact .inl ⟨rfl, rfl, hapart⟩
    | cons tms rest =>
      obtain ⟨rfl, hrest⟩ := List.cons.inj hreached
      exact .inr ⟨tms, rest, rfl, rfl, ⟨later, hrest⟩, hapart⟩
  · rintro (⟨rfl, rfl, hapart⟩ | ⟨tms, rest, rfl, rfl, ⟨later, rfl⟩, hapart⟩)
    · exact ⟨⟨path, rfl⟩, hapart⟩
    · exact ⟨⟨later, rfl⟩, hapart⟩

theorem not_strays_nil : ¬ start.Strays [] word stray := by
  rintro ⟨⟨later, hreached⟩, -⟩
  simp at hreached

/-- A path that strays cannot be walked. -/
theorem Strays.trail_ne (h : start.Strays path word stray) (walked : List Bool) :
    start.trail walked ≠ path := by
  intro hwalked
  induction path generalizing start word walked with
  | nil => exact not_strays_nil h
  | cons state path ih =>
    obtain ⟨tms, rest, rfl, hnext, hrest⟩ := trail_eq_cons.mp hwalked
    rcases strays_cons.mp h with ⟨-, -, hapart⟩ | ⟨level, later, -, -, hlater⟩
    · exact hapart tms hnext
    · exact ih hlater rest hrest

/-- A path strays in one way only. -/
theorem Strays.unique (h : start.Strays path word stray) {walked : List Bool}
    (hother : start.Strays path walked other) : walked = word ∧ other = stray := by
  induction path generalizing start word walked with
  | nil => exact absurd h not_strays_nil
  | cons state path ih =>
    rcases strays_cons.mp h with ⟨rfl, rfl, hapart⟩ | ⟨tms, rest, rfl, hnext, hrest⟩
    · rcases strays_cons.mp hother with ⟨rfl, rfl, -⟩ | ⟨level, later, -, hlevel, -⟩
      · exact ⟨rfl, rfl⟩
      · exact absurd hlevel (hapart level)
    · rcases strays_cons.mp hother with ⟨-, -, hapart⟩ | ⟨level, later, rfl, hlevel, hlater⟩
      · exact absurd hnext (hapart tms)
      · obtain ⟨rfl, rfl⟩ := ih hrest hlater
        exact ⟨by rw [start.next_injective (hlevel.trans hnext.symm)], rfl⟩

end TapState

namespace TapDriver

variable {driver driver' : TapDriver} {exchanges : List Exchange} {result : Except Halt Unit}

/-- How a walk along a path ends after the clocks of a word: all states were visited, the next one
cannot be reached, or the clock that leads there is overdue. -/
inductive WalkEnd (start : TapState) (path : List TapState) (word : List Bool) :
    Except Halt Unit → Prop where
  | arrived (htrail : start.trail word = path) : WalkEnd start path word (.ok ())
  | strayed (stray : TapState) (hstrays : start.Strays path word stray) :
      WalkEnd start path word (.error (.failed (.move (.notNeighbour (start.walk word) stray))))
  | overdue (later : List TapState) (hlater : later ≠ [])
      (hpath : path = start.trail word ++ later) :
      WalkEnd start path word (.error .deadlineOverflow)

/-- So it ends behind a first state that was reached. -/
theorem WalkEnd.cons {start state : TapState} {path : List TapState} {word : List Bool} {tms : Bool}
    (hnext : start.next tms = state) (h : WalkEnd state path word result) :
    WalkEnd start (state :: path) (tms :: word) result := by
  subst hnext
  cases h with
  | arrived htrail => exact .arrived (by rw [TapState.trail, htrail])
  | strayed stray hstrays =>
    exact .strayed stray (TapState.strays_cons.mpr (.inr ⟨tms, word, rfl, rfl, hstrays⟩))
  | overdue later hlater hpath => exact .overdue later hlater (by rw [hpath]; rfl)

/-- If no operation on the bus fails, a step gives its one clock and arrives, or it gives none. -/
theorem stepTo_flawless {target : TapState}
    (h : (stepTo target).Course driver exchanges result driver') (hflawless : Flawless exchanges) :
    (∃ tms, driver.state.next tms = target ∧ result = .ok () ∧ driver'.state = target ∧
      ∀ lines : Lines, lines.edges exchanges = [Edge.quiet tms]) ∨
    (driver'.state = driver.state ∧ (∀ lines : Lines, lines.edges exchanges = []) ∧
      WalkEnd driver.state [target] [] result) := by
  rcases stepTo_course h with ⟨rfl, rfl, hapart, rfl⟩ | ⟨tms, answer, hnext, hclock, rfl⟩
  · exact .inr ⟨rfl, fun _ => rfl, .strayed target ⟨⟨[], rfl⟩, hapart⟩⟩
  · cases answer with
    | ok level =>
      exact .inl ⟨tms, hnext, rfl, (state_of_clock hclock).trans hnext,
        (clock_emits tms false).complete hclock⟩
    | error reason =>
      obtain rfl := (clock_emits tms false).steady hclock hflawless
      refine .inr ⟨?_, fun lines => ?_, .overdue [target] (List.cons_ne_nil _ _) rfl⟩
      · rcases clock_flawless hclock hflawless {} with ⟨level, hlevel, -, -⟩ | ⟨-, -, hedges⟩
        · cases hlevel
        · rw [state_of_follows (clock_follows _ _) hclock {}, hedges]
          rfl
      · rcases clock_flawless hclock hflawless lines with ⟨level, hlevel, -, -⟩ | ⟨-, -, hedges⟩
        · cases hlevel
        · exact hedges

/-- If no operation on the bus fails, a walk gives the clocks of a word along which it has come to
its end. -/
theorem walkPath_course {path : List TapState}
    (h : (walkPath path).Course driver exchanges result driver') (hflawless : Flawless exchanges) :
    ∃ word, (∀ lines : Lines, lines.edges exchanges = Edge.word word) ∧
      driver'.state = driver.state.walk word ∧ WalkEnd driver.state path word result := by
  induction path generalizing driver exchanges with
  | nil =>
    obtain ⟨rfl, rfl, rfl⟩ := course_pure.mp h
    exact ⟨[], fun _ => rfl, rfl, .arrived rfl⟩
  | cons state path ih =>
    rcases course_bind.mp h with
      ⟨first, second, ⟨⟩, middle, hstep, hrest, rfl⟩ | ⟨reason, hstep, rfl⟩
    · obtain ⟨hfirst, hsecond⟩ := flawless_append.mp hflawless
      rcases stepTo_flawless hstep hfirst with ⟨tms, hnext, -, hstate, hedges⟩ | ⟨-, -, hend⟩
      · obtain ⟨word, hword, hwalk, hend⟩ := ih hrest hsecond
        refine ⟨tms :: word, fun lines => ?_, ?_, ?_⟩
        · rw [Lines.edges_append, hedges, hword]
          rfl
        · rw [hwalk, hstate, TapState.walk_cons, hnext]
        · exact (hstate ▸ hend).cons hnext
      · cases hend with
        | arrived htrail => cases htrail
    · rcases stepTo_flawless hstep hflawless with
        ⟨tms, -, hresult, -, -⟩ | ⟨hstate, hedges, hend⟩
      · cases hresult
      · refine ⟨[], hedges, hstate, ?_⟩
        cases hend with
        | strayed stray hstrays =>
          rcases TapState.strays_cons.mp hstrays with ⟨-, rfl, hapart⟩ | ⟨_, _, hnil, -⟩
          · exact .strayed _ ⟨⟨path, rfl⟩, hapart⟩
          · cases hnil
        | overdue later hlater hpath => exact .overdue (state :: path) (List.cons_ne_nil _ _) rfl

end TapDriver

namespace Player

/-- An explicit path is walked exactly. From whatever state the device is in, let no operation on
the bus fail. The instruction succeeds exactly if there is a word that leads through the states of
the path to the target. That word is the only one then, its clocks are given with the data line low,
and the device ends in the target. If there is no such word, the path strays, in one way only: the
clocks before the stray state are given, one for each state before it, the error names the state in
which they leave the device and the stray one, and the device stays where they led it.

A walk that loses an edge has visited the first states of the path and has not come to its end. -/
theorem path_walked {β τ : Type} [Bus β] [Clock τ] (bench : Bench β τ) (lines : Lines)
    (session : Session) (path : List TapState) (target : TapState)
    (hflawless : Flawless
      ((execute (.goToState target (some path)) session).transcript bench)) :
    let transcript := (execute (.goToState target (some path)) session).transcript bench
    let played := ((execute (.goToState target (some path)) session).play bench).1
    let start := session.tap.state
    let edges := lines.edges transcript
    ((played.1 = .ok () ↔ ∃ word, start.trail word = path ++ [target]) ∧
      (∀ word, start.trail word = path ++ [target] →
        (∀ other, start.trail other = path ++ [target] → other = word) ∧
        edges = Edge.word word ∧ played.2.tap.state = target) ∧
      ((¬ ∃ word, start.trail word = path ++ [target]) →
        ∃ word stray, start.Strays (path ++ [target]) word stray ∧
          (∀ other state, start.Strays (path ++ [target]) other state →
            other = word ∧ state = stray) ∧
          played.1 = .error (.failed (.move (.notNeighbour (start.walk word) stray))) ∧
          edges = Edge.word word ∧ played.2.tap.state = start.walk word)) ∨
    (session.tap.EdgeLost played.1 played.2.tap ∧
      ∃ word later, later ≠ [] ∧ path ++ [target] = start.trail word ++ later ∧
        edges = Edge.word word ∧ played.2.tap.state = start.walk word) := by
  intro transcript played start edges
  have hcourse : (execute (.goToState target (some path))).Course session transcript played.1
      played.2 := Dialogue.course_transcript _ bench
  obtain ⟨driver, hwalk, hsession⟩ := onTap_course.mp hcourse
  rw [hsession]
  obtain ⟨word, hedges, hstate, hend⟩ := TapDriver.walkPath_course hwalk hflawless
  have hunique : ∀ {word other : List Bool}, start.trail word = path ++ [target] →
      start.trail other = path ++ [target] → other = word :=
    fun hword hother => start.trail_injective (hother.trans hword.symm)
  generalize played.1 = result at hwalk hend ⊢
  -- The walk was made to its end, or it strayed, or it was cut short. The first two exclude each
  -- other.
  cases hend with
  | arrived htrail =>
    refine .inl ⟨by simpa using ⟨word, htrail⟩, fun other hother => ?_, fun hnone => ?_⟩
    · obtain rfl := hunique htrail hother
      exact ⟨fun _ hsame => hunique htrail hsame, hedges lines,
        hstate.trans (TapState.walk_eq_of_trail htrail)⟩
    · exact absurd ⟨word, htrail⟩ hnone
  | strayed stray hstrays =>
    refine .inl ⟨⟨nofun, ?_⟩, fun other hother => ?_, fun _ => ?_⟩
    · rintro ⟨other, hother⟩
      exact absurd hother (hstrays.trail_ne other)
    · exact absurd hother (hstrays.trail_ne other)
    · exact ⟨word, stray, hstrays, fun other state => hstrays.unique, rfl, hedges lines, hstate⟩
  | overdue later hlater hpath =>
    have hlost := TapDriver.edgeLost_of_upholds
      (fun hlaw => TapDriver.walkPath_upholds hlaw _) hwalk
    exact .inr ⟨hlost, word, later, hlater, hpath, hedges lines, hstate⟩

/-- From the reset state, a path that stays in a state for a clock, and one that strays at its third
state. -/
theorem path_walked_or_strayed :
    let bench : Bench SimulatedBus IdealClock := { bus := {}, clock := {} }
    let session := Session.initial {}
    let walk := execute (.goToState .drCapture (some [.idle, .idle, .drSelect])) session
    let stray := execute (.goToState .reset (some [.idle, .drSelect, .drShift])) session
    (walk.play bench).1.1 = .ok () ∧
      ({} : Lines).edges (walk.transcript bench) = Edge.word [false, false, true, false] ∧
      (stray.play bench).1.1 = .error (.failed (.move (.notNeighbour .drSelect .drShift))) ∧
      ({} : Lines).edges (stray.transcript bench) = Edge.word [false, true] := by
  intro bench session walk stray
  have hstrays : TapState.reset.Strays [.idle, .drSelect, .drShift, .reset] [false, true]
      .drShift := ⟨⟨[.reset], rfl⟩, by decide⟩
  rcases path_walked bench {} session [.idle, .idle, .drSelect] .drCapture (by decide +kernel) with
    ⟨hsucceeds, hwalked, -⟩ | ⟨hlost, -⟩
  · obtain ⟨-, hedges, -⟩ := hwalked [false, false, true, false] rfl
    rcases path_walked bench {} session [.idle, .drSelect, .drShift] .reset (by decide +kernel) with
      ⟨-, -, hstrayed⟩ | ⟨hlost, -⟩
    · obtain ⟨word, state, -, hunique, herror, hbefore, -⟩ :=
        hstrayed fun ⟨word, hword⟩ => hstrays.trail_ne word hword
      obtain ⟨rfl, rfl⟩ := hunique _ _ hstrays
      have hok := hsucceeds.mpr ⟨[false, false, true, false], rfl⟩
      simp only [walk, stray]
      exact ⟨hok, hedges, herror, hbefore⟩
    · exact absurd rfl hlost.limited
  · exact absurd rfl hlost.limited

/-- A clock rate that is accepted, and a path that can be walked in a state that a run reaches with
it. No operation on the bus fails, and yet the path is not walked, and a run of both is
abandoned. -/
theorem path_lost_at_accepted_rate :
    let bench : Bench SimulatedBus IdealClock := { bus := {}, clock := {} }
    let session := (sessions {} [.setFrequency 1e-19] bench).getLast (List.cons_ne_nil _ _)
    let step : Instruction := .goToState .drSelect (some [.idle])
    let transcript := (execute step session).transcript bench
    (TapDriver.delayOf 1e-19).isOk ∧
      session.tap.state.trail [false, true] = [.idle] ++ [.drSelect] ∧
      Flawless transcript ∧ ({} : Lines).edges transcript = [] ∧
      ((execute step session).play bench).1.1 = .error .deadlineOverflow ∧
      ((run {} [.setFrequency 1e-19, step]).play bench).1 = .abandoned := by
  decide +kernel

end Player

end JtagPlayer
