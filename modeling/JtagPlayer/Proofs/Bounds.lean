import JtagPlayer.Bus.Simulated
import JtagPlayer.Proofs.Abandonment
import JtagPlayer.Proofs.Chronicle
import JtagPlayer.Proofs.Lingering

/-!
# How many clocks an idle period gives, and how long it lasts

An idle period gives its clocks in rounds. With a limit on its time every round begins with a look
at the clock, and the first look that finds the time to be over ends the loop. `Player.idle_rounds`
says so of the loop alone. The least time is not concerned by that: what is left of it is waited for
without clocks, and nothing that comes after the wait begins before it is over.

`Player.idle_period_bounded` puts both together, with the times of everything that is said.
-/

namespace JtagPlayer

open JtagPlayer.Action

/-- Two actions in sequence on a bench, where the first one ends well, and when they happen. -/
theorem Action.history_bind_of_ok {σ α γ β τ : Type} [Bus β] [Clock τ] {action : Action σ α}
    {f : α → Action σ γ} {s middle : σ} {x : α} {bench : Bench β τ}
    (h : ((action s).play bench).1 = (.ok x, middle)) :
    ((action >>= f) s).history bench =
      (action s).history bench ++ (f x middle).history ((action s).play bench).2 := by
  show ((action s).bind _).history bench = _
  rw [Dialogue.history_bind, h]

namespace Player

/-- One round of the idle loop: the reading of the clock that it begins with, if there is a limit,
and what is said during its clock. -/
structure IdleRound where
  look : Option Nat
  clocking : List Exchange

/-- What is said during a round. -/
def IdleRound.exchanges (round : IdleRound) : List Exchange :=
  (round.look.map fun instant => ⟨.now, instant⟩).toList ++ round.clocking

/-- A round of a loop that may go on until `maxTime` after `start`: it has looked at the clock if
there is such a limit, has found no more time to have passed, and gives one clock with both levels
low. -/
structure IdleRound.Fits (start : Nat) (maxTime : Option Nat) (round : IdleRound) : Prop where
  looks : round.look.isSome = maxTime.isSome
  inTime : ∀ limit ∈ maxTime, ∀ instant ∈ round.look, instant ≤ start + limit
  clocks : ∀ lines : Lines, lines.edges round.exchanges = [Edge.quiet false]

/-- How the idle loop ends when `given` of `count` clocks were given: there are no more to give, or
one more look has found that more than the limit has passed. -/
inductive IdleEnd (start : Nat) (maxTime : Option Nat) (count given : Nat) :
    List Exchange → Prop where
  | complete (hgiven : given = count) : IdleEnd start maxTime count given []
  | late (limit instant : Nat) (hlimit : maxTime = some limit) (hlate : start + limit < instant)
      (hgiven : given < count) :
      IdleEnd start maxTime count given
        [⟨.now, instant⟩, ⟨.note (.timeExceeded limit given count), ()⟩]

section Loop

variable {session session' : Session} {exchanges ending : List Exchange} {start count given : Nat}
  {maxTime : Option Nat} {rounds : List IdleRound}

theorem IdleEnd.given_le (h : IdleEnd start maxTime count given ending) : given ≤ count := by
  cases h with
  | complete hgiven => exact Nat.le_of_eq hgiven
  | late limit instant hlimit hlate hgiven => exact Nat.le_of_lt hgiven

/-- Without a limit the loop gives all clocks. -/
theorem IdleEnd.given_eq (h : IdleEnd start maxTime count given ending) (hnone : maxTime = none) :
    given = count := by
  cases h with
  | complete hgiven => exact hgiven
  | late limit instant hlimit hlate hgiven => cases hnone.symm.trans hlimit

/-- It gives fewer only if a look found that the time was over. -/
theorem IdleEnd.late_of_lt (h : IdleEnd start maxTime count given ending) (hlt : given < count) :
    ∃ limit instant, maxTime = some limit ∧ start + limit < instant ∧
      ending = [⟨.now, instant⟩, ⟨.note (.timeExceeded limit given count), ()⟩] := by
  cases h with
  | complete hgiven => omega
  | late limit instant hlimit hlate hgiven => exact ⟨limit, instant, hlimit, hlate, rfl⟩

theorem IdleEnd.still (h : IdleEnd start maxTime count given ending) (lines : Lines)
    (rest : List Exchange) : lines.edges (ending ++ rest) = lines.edges rest := by
  cases h <;> rfl

/-- The rounds make one clock each. -/
theorem edges_rounds (h : ∀ round ∈ rounds, round.Fits start maxTime) (lines : Lines) :
    lines.edges (rounds.flatMap IdleRound.exchanges) =
      Edge.word (List.replicate rounds.length false) := by
  induction rounds generalizing lines with
  | nil => rfl
  | cons round rounds ih =>
    rw [List.flatMap_cons, Lines.edges_append, (h round (by simp)).clocks,
      ih fun other hother => h other (by simp [hother])]
    rfl

/-- A loop that ends well goes on in rounds until it ends. -/
theorem idle_rounds {remaining : Nat} (hle : remaining ≤ count)
    (h : (idle start maxTime count remaining).Course session exchanges (.ok ()) session') :
    ∃ (rounds : List IdleRound) (ending : List Exchange),
      exchanges = rounds.flatMap IdleRound.exchanges ++ ending ∧
      (∀ round ∈ rounds, round.Fits start maxTime) ∧
      IdleEnd start maxTime count (count - remaining + rounds.length) ending := by
  -- A round is a look at the clock, if there is a limit, and an idle clock. Only a look that comes
  -- too late ends the rounds early.
  induction remaining generalizing session exchanges with
  | zero =>
    obtain ⟨rfl, -, -⟩ := course_pure.mp h
    exact ⟨[], [], rfl, by simp, .complete rfl⟩
  | succ remaining ih =>
    rcases course_bind.mp h with
      ⟨looking, rest, isLate, middle, hlook, hrest, rfl⟩ | ⟨reason, -, hresult⟩
    · obtain ⟨rfl, hlooked⟩ := isOver_course hlook
      cases isLate with
      | true =>
        obtain ⟨answer, rfl, -, -⟩ := course_ask.mp hrest
        rcases hlooked with ⟨-, -, hlate⟩ | ⟨limit, instant, rfl, rfl, hlate⟩
        · cases hlate
        · have hover : limit < instant - start := by simpa using hlate
          exact ⟨[], _, rfl, by simp, .late limit instant rfl (by omega) (by simp; omega)⟩
      | false =>
        rcases course_bind.mp hrest with
          ⟨clocking, later, level, clocked, hclock, hidle, rfl⟩ | ⟨reason, -, hresult⟩
        · obtain ⟨driver, hdriver, -⟩ := onTap_course.mp hclock
          have hedges := (TapDriver.clock_emits false false).complete hdriver
          obtain ⟨rounds, ending, rfl, hfits, hend⟩ := ih (by omega) hidle
          have hgiven : count - remaining + rounds.length =
              count - (remaining + 1) + (rounds.length + 1) := by omega
          rw [hgiven] at hend
          rcases hlooked with ⟨rfl, rfl, -⟩ | ⟨limit, instant, rfl, rfl, hlate⟩
          · refine ⟨⟨none, clocking⟩ :: rounds, ending, by simp [IdleRound.exchanges], ?_, hend⟩
            exact List.forall_mem_cons.mpr ⟨⟨rfl, nofun, hedges⟩, hfits⟩
          · have hinTime : instant - start ≤ limit := by simpa using hlate
            refine ⟨⟨some instant, clocking⟩ :: rounds, ending, by simp [IdleRound.exchanges], ?_,
              hend⟩
            refine List.forall_mem_cons.mpr ⟨⟨rfl, ?_, hedges⟩, hfits⟩
            rintro _ ⟨⟩ _ ⟨⟩
            omega
        · cases hresult
    · cases hresult

end Loop

section Bench

variable {β τ : Type} [Bus β] [Clock τ]

/-- What follows the wait of an idle period begins at its deadline or later, or there is no such
instant. -/
theorem waitFor_history (start minTime : Nat) (session : Session)
    (f : Unit → Action Session Unit) (bench : Bench β τ) :
    (((waitFor start minTime >>= f) session).play bench).1.1 = .error .deadlineOverflow ∨
    ∃ (waiting : Moment) (waited : Bench β τ),
      waiting.exchange = ⟨.wait (start + minTime) session.tap.spinThreshold, ()⟩ ∧
      start + minTime ≤ Clock.now waited.clock ∧
      ((waitFor start minTime >>= f) session).play bench = (f () session).play waited ∧
      ((waitFor start minTime >>= f) session).history bench =
        waiting :: (f () session).history waited := by
  have hwait : (waitFor start minTime >>= f) session =
      if start + minTime < Instant.limit then
        .call (.wait (start + minTime) session.tap.spinThreshold) fun _ => f () session
      else .done (.error .deadlineOverflow, session) := by
    show Dialogue.bind (Action.waitFor start minTime session.tap.spinThreshold session) _ = _
    unfold Action.waitFor Instant.after?
    split <;> rfl
  rw [hwait]
  split
  · exact .inr ⟨⟨⟨.wait _ _, ()⟩, _, _⟩, _, rfl, Clock.le_now_waitUntil _ _ _, rfl, rfl⟩
  · exact .inl rfl

/-- If no operation on the bus fails and no deadline lies beyond the last instant, an idle period
comes to its wait, and what follows happens after it. -/
theorem linger_history {bench : Bench β τ} {session : Session} {test : RunTest}
    {minTime start : Nat} {maxTime : Option Nat}
    (hflawless : Flawless ((linger test minTime maxTime start session).transcript bench))
    (hends : ((linger test minTime maxTime start session).play bench).1.1 ≠
      .error .deadlineOverflow) :
    let idling :=
      idle start (maxTime.filter (· ≠ 0)) test.runCount.toNat test.runCount.toNat session
    let lingering := linger test minTime maxTime start session
    ∃ (idled : Session) (before leaving : List Moment),
      lingering.history bench = before ++ leaving ∧
      before.map Moment.exchange = idling.transcript bench ++
        [⟨.wait (start + minTime) idled.tap.spinThreshold, ()⟩] ∧
      (idling.play bench).1 = (.ok (), idled) ∧
      (routeToGiven test.endState).Course idled (leaving.map Moment.exchange)
        (lingering.play bench).1.1 (lingering.play bench).1.2 ∧
      (∀ moment ∈ leaving, start + minTime ≤ moment.began) ∧
      start + minTime ≤ Clock.now (lingering.play bench).2.clock := by
  intro idling lingering
  have hidling : idling.Course (idling.transcript bench) (idling.play bench).1 :=
    Dialogue.course_transcript idling bench
  cases hresult : (idling.play bench).1 with
  | mk result idled =>
  rw [hresult] at hidling
  cases result with
  | error reason =>
    -- Nothing but an overdue edge stops the loop, and it would have stopped the period.
    refine absurd ?_ hends
    have htranscript : lingering.transcript bench = idling.transcript bench :=
      transcript_bind_of_error hresult
    have hreason := idle_steady hidling (htranscript ▸ hflawless)
    have hplayed : lingering.play bench = ((.error reason, idled), (idling.play bench).2) :=
      play_bind_of_error hresult
    rw [hplayed, hreason]
  | ok u =>
    have hplayed : lingering.play bench = ((waitFor start minTime >>= fun _ =>
        routeToGiven test.endState) idled).play (idling.play bench).2 := play_bind_of_ok hresult
    have hhistory : lingering.history bench = idling.history bench ++ ((waitFor start minTime >>=
        fun _ => routeToGiven test.endState) idled).history (idling.play bench).2 :=
      history_bind_of_ok hresult
    rcases waitFor_history start minTime idled (fun _ => routeToGiven test.endState)
        (idling.play bench).2 with hoverflow | ⟨waiting, waited, hwaiting, hdeadline, hleft, hlater⟩
    · exact absurd (hplayed ▸ hoverflow) hends
    · rw [hleft] at hplayed
      rw [hlater] at hhistory
      let leave := routeToGiven test.endState idled
      have hcourse := Dialogue.course_transcript leave waited
      rw [← Dialogue.map_exchange_history] at hcourse
      refine ⟨idled, idling.history bench ++ [waiting], leave.history waited, ?_, ?_, rfl,
        hplayed ▸ hcourse, fun moment hmem => ?_, hplayed ▸ ?_⟩
      · rw [hhistory, List.append_assoc]
        rfl
      · rw [List.map_append, Dialogue.map_exchange_history, List.map_singleton, hwaiting]
      · exact Nat.le_trans hdeadline ((leave.chronological_history waited).2 moment hmem)
      · exact Nat.le_trans hdeadline (leave.now_le_now_play waited)

/-- An idle period whose first route succeeds goes on from there. -/
theorem runTest_history {bench : Bench β τ} {session routed : Session} {test : RunTest}
    {minTime : Nat} (hminTime : Duration.ofSeconds? test.minTime = some minTime)
    (hmaxTime : ∀ seconds, test.maxTime = some seconds → (Duration.ofSeconds? seconds).isSome)
    (hrouted : ((routeToGiven (test.runState.filter (· ≠ session.tap.state)) session).play
      (bench.answer .now).2).1 = (.ok (), routed)) :
    let first := routeToGiven (test.runState.filter (· ≠ session.tap.state)) session
    let start := Clock.now bench.clock
    let lingering := linger test minTime (test.maxTime.bind Duration.ofSeconds?) start routed
    let ready := (first.play (bench.answer .now).2).2
    (runTest test session).play bench = lingering.play ready ∧
      (runTest test session).history bench =
        ⟨⟨.now, start⟩, start, Clock.now (bench.answer .now).2.clock⟩ ::
          (first.history (bench.answer .now).2 ++ lingering.history ready) := by
  intro first start lingering ready
  rw [runTest_eq hminTime hmaxTime session]
  exact ⟨play_bind_of_ok hrouted, congrArg _ (history_bind_of_ok hrouted)⟩

/-- The bounds of an idle period. Let its times be accepted and the route to its state succeed, and
let no operation on the bus fail and no deadline lie beyond the last instant. Between the routes to
its two states it gives its clocks, all with both levels low, in rounds. There are no more of them
than asked for. They are all given if there is no limit on the time or one of zero, and otherwise as
long as no look at the clock finds that more than the limit has passed since the period began, where
every clock is preceded by such a look. Then follows the wait, during which nothing is clocked, and
when it is over and the period goes on to its end the least time has passed. -/
theorem idle_period_bounded (bench : Bench β τ) (session : Session) (test : RunTest)
    {minTime : Nat} (hminTime : Duration.ofSeconds? test.minTime = some minTime)
    (hmaxTime : ∀ seconds, test.maxTime = some seconds → (Duration.ofSeconds? seconds).isSome)
    (hroute : ((routeToGiven (test.runState.filter (· ≠ session.tap.state)) session).play
      (bench.answer .now).2).1.1.isOk)
    (hflawless : Flawless ((execute (.runTest test) session).transcript bench))
    (hdue : ¬ (⟨.runTest test, session, (execute (.runTest test) session).transcript bench,
      ((execute (.runTest test) session).play bench).1.1,
      ((execute (.runTest test) session).play bench).1.2⟩ : Stage).IsOverdue) :
    let period := execute (.runTest test) session
    let first := routeToGiven (test.runState.filter (· ≠ session.tap.state)) session
    let start := Clock.now bench.clock
    let maxTime := (test.maxTime.bind Duration.ofSeconds?).filter (· ≠ 0)
    let count := test.runCount.toNat
    ∃ (rounds : List IdleRound) (ending : List Exchange) (idled : Session)
      (before leaving : List Moment),
      let idling := rounds.flatMap IdleRound.exchanges ++
        (ending ++ [⟨.wait (start + minTime) idled.tap.spinThreshold, ()⟩])
      period.history bench = before ++ leaving ∧
      before.map Moment.exchange =
        ⟨.now, start⟩ :: (first.transcript (bench.answer .now).2 ++ idling) ∧
      (∀ lines : Lines,
        lines.edges idling = Edge.word (List.replicate rounds.length false)) ∧
      (∀ round ∈ rounds, round.Fits start maxTime) ∧
      rounds.length ≤ count ∧
      ((∀ seconds, test.maxTime = some seconds → Duration.ofSeconds? seconds = some 0) →
        rounds.length = count) ∧
      (rounds.length < count → ∃ limit instant, maxTime = some limit ∧ start + limit < instant ∧
        ending = [⟨.now, instant⟩, ⟨.note (.timeExceeded limit rounds.length count), ()⟩]) ∧
      (routeToGiven test.endState).Course idled (leaving.map Moment.exchange)
        (period.play bench).1.1 (period.play bench).1.2 ∧
      (∀ moment ∈ leaving, start + minTime ≤ moment.began) ∧
      start + minTime ≤ Clock.now (period.play bench).2.clock := by
  intro period first start maxTime count
  have hends : (period.play bench).1.1 ≠ .error .deadlineOverflow := fun hoverflow =>
    hdue ((execute_eq_overflow_iff (Dialogue.course_transcript period bench)).mp hoverflow)
  cases hresult : (first.play (bench.answer .now).2).1 with
  | mk result routed =>
  cases result with
  | error reason =>
    rw [hresult] at hroute
    cases hroute
  | ok u =>
    obtain ⟨hplayed, hhistory⟩ := runTest_history hminTime hmaxTime hresult
    change period.play bench = _ at hplayed
    change period.history bench = _ at hhistory
    rw [← Dialogue.map_exchange_history, hhistory, List.map_cons, List.map_append, flawless_cons,
      flawless_append, Dialogue.map_exchange_history, Dialogue.map_exchange_history] at hflawless
    rw [hplayed] at hends ⊢
    -- The wait divides what follows the route: the period idles before it and leaves behind it.
    obtain ⟨idled, before, leaving, hsplit, hbefore, hidled, hleave, hlater, hclock⟩ :=
      linger_history hflawless.2.2 hends
    have hidling := Dialogue.course_transcript (idle start maxTime count count routed)
      (first.play (bench.answer .now).2).2
    rw [hidled] at hidling
    obtain ⟨rounds, ending, hrounds, hfits, hend⟩ := idle_rounds (Nat.le_refl count) hidling
    rw [Nat.sub_self, Nat.zero_add] at hend
    rw [hrounds, List.append_assoc] at hbefore
    refine ⟨rounds, ending, idled,
      ⟨⟨.now, start⟩, start, Clock.now (bench.answer .now).2.clock⟩ ::
        (first.history (bench.answer .now).2 ++ before), leaving, ?_, ?_, fun lines => ?_, hfits,
      hend.given_le, fun hzero => hend.given_eq ?_, hend.late_of_lt, hleave, hlater, hclock⟩
    · rw [hhistory, hsplit, List.cons_append, List.append_assoc]
    · rw [List.map_cons, List.map_append, Dialogue.map_exchange_history, hbefore]
    · rw [Lines.edges_append, edges_rounds hfits, hend.still]
      exact List.append_nil _
    · show (test.maxTime.bind Duration.ofSeconds?).filter (· ≠ 0) = none
      cases hgiven : test.maxTime with
      | none => rfl
      | some seconds => rw [Option.bind_some, hzero seconds hgiven]; rfl

end Bench

/-- A clock that moves by a tenth of a microsecond whenever something happens, and during waits as
far as it has to. -/
structure TickingClock where
  reading : Nat := 0

instance : Clock TickingClock where
  now clock := clock.reading
  pass clock := ⟨clock.reading + 100⟩
  sleep duration clock := ⟨clock.reading + duration⟩
  spin remaining clock := ⟨clock.reading + remaining⟩
  patience _ := 0
  now_le_now_pass _ := Nat.le_add_right _ _
  now_add_le_now_sleep _ _ := Nat.le_refl _
  now_le_now_spin _ _ := Nat.le_add_right _ _
  spin_progress _ _ hremaining := .inl (Nat.lt_add_of_pos_right hremaining)

/-- Ten clocks, no later than two and a half microseconds after the period began, which is time for
four of them. -/
theorem idle_period_bounded_ticking :
    let bench : Bench SimulatedBus TickingClock := { bus := {}, clock := {} }
    let session := Session.initial {}
    let test : RunTest := { runCount := 10, minTime := 2e-6, maxTime := some 2.5e-6 }
    let period := execute (.runTest test) session
    2000 ≤ (period.play bench).2.clock.reading ∧
      ∃ rounds : List IdleRound, rounds.length = 4 ∧
        ∀ round ∈ rounds, round.Fits 0 (some 2500) := by
  intro bench session test period
  have hcourse : (execute (.runTest test)).Course session (period.transcript bench)
      (period.play bench).1.1 (period.play bench).1.2 := Dialogue.course_transcript period bench
  have hends : (period.play bench).1.1 ≠ .error .deadlineOverflow := by decide +kernel
  have hminTime : Duration.ofSeconds? test.minTime = some 2000 := by decide +kernel
  have hmaxTime : (test.maxTime.bind Duration.ofSeconds?).filter (· ≠ 0) = some 2500 := by
    decide +kernel
  obtain ⟨rounds, ending, idled, before, leaving, hhistory, hbefore, hidling, hfits, -, -, -,
    hleave, -, hclock⟩ := idle_period_bounded bench session test hminTime (by decide +kernel)
      (by decide +kernel) (by decide +kernel)
      (fun hdue => hends ((execute_eq_overflow_iff hcourse).mpr hdue))
  have hstart : Clock.now bench.clock = 0 := rfl
  rw [hstart, hmaxTime] at hfits
  rw [hstart, Nat.zero_add] at hclock
  obtain ⟨hnil, -, -⟩ := course_pure.mp hleave
  have htotal : (({} : Lines).edges (period.transcript bench)).length = 4 := by decide +kernel
  rw [← Dialogue.map_exchange_history, hhistory, List.map_append, hbefore, hnil, List.append_nil,
    Lines.edges_cons_of_isIdle _ (show Lines.IsIdle ⟨.now, _⟩ from trivial)] at htotal
  -- Without a state to idle in there is no route before the loop.
  change (({} : Lines).edges ([] ++ _)).length = 4 at htotal
  rw [List.nil_append, hidling] at htotal
  refine ⟨hclock, rounds, ?_, hfits⟩
  simpa [Edge.word] using htotal

end Player

end JtagPlayer
