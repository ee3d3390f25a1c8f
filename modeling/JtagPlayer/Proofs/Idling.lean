import JtagPlayer.Player
import JtagPlayer.Proofs.Course

/-!
# What an idle period can do

An idle period looks at the clock, moves to its state and gives idle clocks, waits for what is left
of its least time, and moves on. `Player.TestCourse` lists where it may stop, and
`Player.runTest_course` says that there are no other ways. The wait is the one step besides the
clocks that can find its deadline beyond the last instant.
-/

namespace JtagPlayer

open JtagPlayer.Action

/-- The least time of an idle period, counted from its first look at the clock, ends beyond the last
instant. -/
def RunTest.IsOverdue (test : RunTest) (exchanges : List Exchange) : Prop :=
  ∃ start minTime : Nat, exchanges.head? = some ⟨.now, start⟩ ∧
    Duration.ofSeconds? test.minTime = some minTime ∧ Instant.limit ≤ start + minTime

namespace Player

variable {session session' : Session} {exchanges : List Exchange}

/-- The part of an idle period before the wait. -/
def approach (test : RunTest) (maxTime : Option Nat) (start : Nat) : Action Session Unit := do
  let session ← Action.get
  routeToGiven (test.runState.filter (· ≠ session.tap.state))
  let count := test.runCount.toNat
  idle start (maxTime.filter (· ≠ 0)) count count

/-- The ways in which an idle period can go: one of its times is refused, the wait is not reached,
its deadline lies beyond the last instant, or it is granted and the period is left. -/
inductive TestCourse (test : RunTest) (session : Session) :
    List Exchange → Except Halt Unit → Session → Prop where
  | refused {seconds} (hnone : Duration.ofSeconds? seconds = none)
      (hgiven : seconds = test.minTime ∨ some seconds = test.maxTime) :
      TestCourse test session [] (.error (.failed (.parameter (.invalidDuration seconds)))) session
  | stopped {minTime start approaching reason session'}
      (hminTime : Duration.ofSeconds? test.minTime = some minTime)
      (happroach : (approach test (test.maxTime.bind Duration.ofSeconds?) start).Course session
        approaching (.error reason) session') :
      TestCourse test session (⟨.now, start⟩ :: approaching) (.error reason) session'
  | overdue {minTime start approaching session'}
      (hminTime : Duration.ofSeconds? test.minTime = some minTime)
      (happroach : (approach test (test.maxTime.bind Duration.ofSeconds?) start).Course session
        approaching (.ok ()) session')
      (hlimit : Instant.limit ≤ start + minTime) :
      TestCourse test session (⟨.now, start⟩ :: approaching) (.error .deadlineOverflow) session'
  | waited {minTime start approaching middle leaving result session'}
      (hminTime : Duration.ofSeconds? test.minTime = some minTime)
      (happroach : (approach test (test.maxTime.bind Duration.ofSeconds?) start).Course session
        approaching (.ok ()) middle)
      (hlimit : start + minTime < Instant.limit)
      (hleave : (routeToGiven test.endState).Course middle leaving result session') :
      TestCourse test session
        (⟨.now, start⟩ :: (approaching ++
          ⟨.wait (start + minTime) middle.tap.spinThreshold, ()⟩ :: leaving)) result session'

/-- A number of seconds is a duration or is refused. -/
theorem duration_course {seconds : Float} {result : Except Halt Nat}
    (h : (duration seconds).Course session exchanges result session') :
    exchanges = [] ∧ session' = session ∧
      ((∃ span, Duration.ofSeconds? seconds = some span ∧ result = .ok span) ∨
      (Duration.ofSeconds? seconds = none ∧
        result = .error (.failed (.parameter (.invalidDuration seconds))))) := by
  obtain ⟨rfl, rfl, rfl⟩ := course_ofParameter.mp h
  refine ⟨rfl, rfl, ?_⟩
  cases Duration.ofSeconds? seconds with
  | none => exact .inr ⟨rfl, rfl⟩
  | some span => exact .inl ⟨span, rfl, rfl⟩

theorem optionalDuration_course {seconds : Option Float} {result : Except Halt (Option Nat)}
    (h : (optionalDuration seconds).Course session exchanges result session') :
    exchanges = [] ∧ session' = session ∧
      (result = .ok (seconds.bind Duration.ofSeconds?) ∨
      ∃ amount, seconds = some amount ∧ Duration.ofSeconds? amount = none ∧
        result = .error (.failed (.parameter (.invalidDuration amount)))) := by
  cases seconds with
  | none =>
    obtain ⟨rfl, rfl, rfl⟩ := course_pure.mp h
    exact ⟨rfl, rfl, .inl rfl⟩
  | some amount =>
    rcases course_bind.mp h with
      ⟨first, rest, span, middle, hspan, hdone, rfl⟩ | ⟨reason, hspan, rfl⟩
    · obtain ⟨rfl, rfl, ⟨_, hsome, hresult⟩ | ⟨-, hresult⟩⟩ := duration_course hspan
      · cases hresult
        obtain ⟨rfl, rfl, rfl⟩ := course_pure.mp hdone
        exact ⟨rfl, rfl, .inl (congrArg Except.ok hsome.symm)⟩
      · cases hresult
    · obtain ⟨rfl, rfl, ⟨_, -, hresult⟩ | ⟨hnone, hresult⟩⟩ := duration_course hspan
      · cases hresult
      · cases hresult
        exact ⟨rfl, rfl, .inr ⟨amount, rfl, hnone, rfl⟩⟩

/-- The wait is granted up to its deadline, or there is no such instant. -/
theorem waitFor_course {start duration : Nat} {result : Except Halt Unit}
    (h : (waitFor start duration).Course session exchanges result session') :
    session' = session ∧
      ((start + duration < Instant.limit ∧ result = .ok () ∧
        exchanges = [⟨.wait (start + duration) session.tap.spinThreshold, ()⟩]) ∨
      (Instant.limit ≤ start + duration ∧ result = .error .deadlineOverflow ∧ exchanges = [])) :=
  course_waitFor.mp (course_get_bind.mp h)

/-- Without a limit no look at the clock is taken, and with one the reading decides. -/
theorem isOver_course {start : Nat} {maxTime : Option Nat} {result : Except Halt Bool}
    (h : (isOver start maxTime).Course session exchanges result session') :
    session' = session ∧
      ((maxTime = none ∧ exchanges = [] ∧ result = .ok false) ∨
      ∃ limit instant : Nat, maxTime = some limit ∧ exchanges = [⟨.now, instant⟩] ∧
        result = .ok (decide (limit < instant - start))) := by
  cases maxTime with
  | none =>
    obtain ⟨rfl, rfl, rfl⟩ := course_pure.mp h
    exact ⟨rfl, .inl ⟨rfl, rfl, rfl⟩⟩
  | some limit =>
    obtain ⟨instant, rest, rfl, hdone⟩ := course_ask_bind.mp h
    obtain ⟨rfl, rfl, rfl⟩ := course_pure.mp hdone
    exact ⟨rfl, .inr ⟨limit, instant, rfl, rfl, rfl⟩⟩

/-- Once the clock has been read, an idle period goes on to its wait and from there to its end. -/
theorem begun_course {test : RunTest} {minTime start : Nat} {result : Except Halt Unit}
    (hminTime : Duration.ofSeconds? test.minTime = some minTime)
    (h : Course (do
        let session ← Action.get
        routeToGiven (test.runState.filter (· ≠ session.tap.state))
        idle start ((test.maxTime.bind Duration.ofSeconds?).filter (· ≠ 0)) test.runCount.toNat
          test.runCount.toNat
        waitFor start minTime
        routeToGiven test.endState) session exchanges result session') :
    TestCourse test session (⟨.now, start⟩ :: exchanges) result session' := by
  rcases course_bind.mp (course_get_bind.mp h) with
    ⟨routing, rest, ⟨⟩, routed, hroute, hrest, rfl⟩ | ⟨reason, hroute, rfl⟩
  · rcases course_bind.mp hrest with
      ⟨idling, rest, ⟨⟩, idled, hidle, hwaits, rfl⟩ | ⟨reason, hidle, rfl⟩
    · have happroach : (approach test (test.maxTime.bind Duration.ofSeconds?) start).Course session
          (routing ++ idling) (.ok ()) idled :=
        course_get_bind.mpr (course_bind.mpr (.inl ⟨_, _, (), routed, hroute, hidle, rfl⟩))
      rw [← List.append_assoc]
      rcases course_bind.mp hwaits with
        ⟨waiting, leaving, ⟨⟩, waited, hwait, hleave, rfl⟩ | ⟨reason, hwait, rfl⟩
      · obtain ⟨rfl, ⟨hlimit, -, rfl⟩ | ⟨-, hresult, -⟩⟩ := waitFor_course hwait
        · exact .waited hminTime happroach hlimit hleave
        · cases hresult
      · obtain ⟨rfl, ⟨-, hresult, -⟩ | ⟨hlimit, hresult, rfl⟩⟩ := waitFor_course hwait
        · cases hresult
        · cases hresult
          rw [List.append_nil]
          exact .overdue hminTime happroach hlimit
    · exact .stopped hminTime
        (course_get_bind.mpr (course_bind.mpr (.inl ⟨_, _, (), routed, hroute, hidle, rfl⟩)))
  · exact .stopped hminTime
      (course_get_bind.mpr (course_bind.mpr (.inr ⟨reason, hroute, rfl⟩)))

/-- There are no other ways. -/
theorem runTest_course {test : RunTest} {result : Except Halt Unit}
    (h : (runTest test).Course session exchanges result session') :
    TestCourse test session exchanges result session' := by
  rcases course_bind.mp h with
    ⟨first, rest, minTime, middle, hmin, hrest, rfl⟩ | ⟨reason, hmin, rfl⟩
  · obtain ⟨rfl, rfl, ⟨_, hminTime, hresult⟩ | ⟨-, hresult⟩⟩ := duration_course hmin
    · cases hresult
      rcases course_bind.mp hrest with
        ⟨first, rest, maxTime, middle, hmax, hbegin, rfl⟩ | ⟨reason, hmax, rfl⟩
      · obtain ⟨rfl, rfl, hresult | ⟨_, -, -, hresult⟩⟩ := optionalDuration_course hmax
        · cases hresult
          obtain ⟨start, rest, rfl, hbegun⟩ := course_ask_bind.mp hbegin
          exact begun_course hminTime hbegun
        · cases hresult
      · obtain ⟨rfl, rfl, hresult | ⟨amount, hamount, hnone, hresult⟩⟩ :=
          optionalDuration_course hmax
        · cases hresult
        · cases hresult
          exact .refused hnone (.inr hamount.symm)
    · cases hresult
  · obtain ⟨rfl, rfl, ⟨_, -, hresult⟩ | ⟨hnone, hresult⟩⟩ := duration_course hmin
    · cases hresult
    · cases hresult
      exact .refused hnone (.inl rfl)

end Player

end JtagPlayer
