import JtagPlayer.Player
import JtagPlayer.Proofs.Course

/-!
# What a scan can do

A scan merges a change into the stored payload, moves to the shift state, shifts, compares, and
leaves for the end state. `Player.ScanCourse` lists where it may stop, and `Player.scan_course` says
that there are no other ways. The courses it speaks of are those of the driver.
-/

namespace JtagPlayer

open JtagPlayer.Action

namespace TapDriver

/-- Leaves a scan for a state. -/
def leaveFor (target : TapState) : Action TapDriver Unit := do
  let _ ← clock false false
  routeTo target

/-- A route is taken only if there is one. -/
theorem routeTo_course {target : TapState} {driver driver' : TapDriver} {exchanges : List Exchange}
    {result : Except Halt Unit} (h : (routeTo target).Course driver exchanges result driver') :
    (driver.state.route? target = none ∧ exchanges = [] ∧
      result = .error (.failed (.move (.noRoute driver.state target))) ∧ driver' = driver) ∨
    (∃ word rest, driver.state.route? target = some word ∧
      exchanges = ⟨.note (.route driver.state target word), ()⟩ :: rest ∧
      (clockWord word).Course driver rest result driver') := by
  have hrest := course_get_bind.mp h
  cases hroute : driver.state.route? target with
  | none =>
    rw [hroute] at hrest
    obtain ⟨rfl, rfl, rfl⟩ := course_fail.mp hrest
    exact .inl ⟨rfl, rfl, rfl, rfl⟩
  | some word =>
    rw [hroute] at hrest
    obtain ⟨⟨⟩, rest, rfl, hwalk⟩ := course_ask_bind.mp hrest
    exact .inr ⟨word, rest, rfl, rfl, hwalk⟩

end TapDriver

namespace Player

variable {session session' : Session} {exchanges : List Exchange}

/-- An action on the driver changes nothing else in a session. -/
theorem onTap_course {α : Type} {action : Action TapDriver α} {result : Except Halt α} :
    (onTap action).Course session exchanges result session' ↔
      ∃ driver, action.Course session.tap exchanges result driver ∧
        session' = { session with tap := driver } :=
  course_on

theorem routeTo_course {target : TapState} {result : Except Halt Unit} :
    (routeTo target).Course session exchanges result session' ↔
      ∃ driver, (TapDriver.routeTo target).Course session.tap exchanges result driver ∧
        session' = { session with tap := driver } := by
  rw [routeTo, onTap_course]

/-- The note on a stored pattern that changed. -/
def updateNote (registers : Registers) (name : RegisterName) : Exchange :=
  ⟨.note (.updated name (registers.get name)), ()⟩

/-- A change that is refused leaves everything as it is, and one that is accepted is noted. -/
theorem update_course {name : RegisterName} {delta : Pattern} {result : Except Halt Pattern}
    (h : (update name delta).Course session exchanges result session') :
    (∃ error, session.registers.update name delta = .error error ∧ exchanges = [] ∧
      result = .error (.failed (.parameter (.pattern error))) ∧ session' = session) ∨
    (∃ registers, session.registers.update name delta = .ok registers ∧
      exchanges = [updateNote registers name] ∧ result = .ok (registers.get name) ∧
      session' = { session with registers }) := by
  have hrest := course_get_bind.mp h
  cases hupdate : session.registers.update name delta with
  | error error =>
    rw [Session.update, hupdate] at hrest
    obtain ⟨rfl, rfl, rfl⟩ := course_fail.mp hrest
    exact .inl ⟨error, rfl, rfl, rfl, rfl⟩
  | ok registers =>
    rw [Session.update, hupdate] at hrest
    obtain ⟨⟨⟩, rest, rfl, hdone⟩ := Dialogue.course_call.mp hrest
    obtain ⟨rfl, rfl, rfl⟩ := course_pure.mp hdone
    exact .inr ⟨registers, rfl, rfl, rfl, rfl⟩

/-- A header or a trailer is set by a change alone. -/
theorem setPattern_course {name : RegisterName} {delta : Pattern} {result : Except Halt Unit}
    (h : Course (do let _ ← update name delta; Pure.pure ()) session exchanges result session') :
    (∃ error, session.registers.update name delta = .error error ∧ exchanges = [] ∧
      result = .error (.failed (.parameter (.pattern error))) ∧ session' = session) ∨
    (∃ registers, session.registers.update name delta = .ok registers ∧
      exchanges = [updateNote registers name] ∧ result = .ok () ∧
      session' = { session with registers }) := by
  rcases course_bind.mp h with
    ⟨first, rest, pattern, middle, hupdate, hdone, rfl⟩ | ⟨reason, hupdate, rfl⟩
  · obtain ⟨rfl, rfl, rfl⟩ := course_pure.mp hdone
    rcases update_course hupdate with
      ⟨error, -, -, hresult, -⟩ | ⟨registers, hregisters, rfl, -, rfl⟩
    · cases hresult
    · exact .inr ⟨registers, hregisters, rfl, rfl, rfl⟩
  · rcases update_course hupdate with
      ⟨error, herror, rfl, hresult, rfl⟩ | ⟨registers, -, -, hresult, -⟩
    · cases hresult
      exact .inl ⟨error, herror, rfl, rfl, rfl⟩
    · cases hresult

/-- The session after a comparison. -/
def judge (label : Option String) (pattern : Pattern) (observed : List UInt8)
    (session : Session) : Session :=
  if pattern.accepts observed then session
  else session.addFault (.ofScan label pattern observed)

/-- A comparison concerns the report only. -/
theorem judge_tap (label : Option String) (pattern : Pattern) (observed : List UInt8)
    (session : Session) (driver : TapDriver) :
    { judge label pattern observed session with tap := driver } =
      judge label pattern observed { session with tap := driver } := by
  unfold judge
  split <;> rfl

@[simp] theorem tap_judge (label : Option String) (pattern : Pattern) (observed : List UInt8)
    (session : Session) : (judge label pattern observed session).tap = session.tap := by
  unfold judge
  split <;> rfl

@[simp] theorem registers_judge (label : Option String) (pattern : Pattern)
    (observed : List UInt8) (session : Session) :
    (judge label pattern observed session).registers = session.registers := by
  unfold judge
  split <;> rfl

@[simp] theorem endState_judge (label : Option String) (pattern : Pattern)
    (observed : List UInt8) (session : Session) :
    (judge label pattern observed session).endState = session.endState := by
  unfold judge
  split <;> rfl

@[simp] theorem continueOnFault_judge (label : Option String) (pattern : Pattern)
    (observed : List UInt8) (session : Session) :
    (judge label pattern observed session).continueOnFault = session.continueOnFault := by
  unfold judge
  split <;> rfl

/-- What is noted at a comparison. -/
def comparison (name : RegisterName) (label : Option String) (pattern : Pattern)
    (observed : List UInt8) : List Exchange :=
  if pattern.accepts observed then []
  else [⟨.note (.mismatch name label (pattern.tdo.getD []) observed), ()⟩]

theorem compare_course {name : RegisterName} {label : Option String} {pattern : Pattern}
    {observed : List UInt8} {result : Except Halt Bool}
    (h : (compare name label pattern observed).Course session exchanges result session') :
    exchanges = comparison name label pattern observed ∧
      result = .ok (pattern.accepts observed) ∧
      session' = judge label pattern observed session := by
  unfold compare at h
  cases hpassed : pattern.accepts observed with
  | true =>
    rw [if_pos hpassed] at h
    obtain ⟨rfl, rfl, rfl⟩ := course_pure.mp h
    simp [comparison, judge, hpassed]
  | false =>
    rw [if_neg (by simp [hpassed])] at h
    obtain ⟨⟨⟩, rest, rfl, hfault⟩ := course_ask_bind.mp h
    obtain ⟨rfl, hresult⟩ := Dialogue.course_done.mp hfault
    cases hresult
    simp [comparison, judge, hpassed]

/-- How a scan ends after it has been left. -/
def verdict (session : Session) (passed : Bool) (label : Option String) : Except Halt Unit :=
  if passed || session.continueOnFault then .ok ()
  else .error (.failed (.verification (label.getD Fault.unlabeled)))

/-- A scan ends well if it passed or faults are only recorded. -/
theorem or_of_verdict_eq_ok {passed : Bool} {label : Option String}
    (h : verdict session passed label = .ok ()) :
    passed = true ∨ session.continueOnFault = true := by
  unfold verdict at h
  split at h
  · rename_i hgo
    exact Bool.or_eq_true_iff.mp hgo
  · cases h

theorem conclude_course {passed : Bool} {label : Option String} {result : Except Halt Unit}
    (h : (conclude passed label).Course session exchanges result session') :
    exchanges = [] ∧ result = verdict session passed label ∧ session' = session := by
  have hrest := course_get_bind.mp h
  by_cases hgo : (passed || session.continueOnFault) = true
  · rw [if_pos hgo] at hrest
    obtain ⟨rfl, rfl, rfl⟩ := course_pure.mp hrest
    exact ⟨rfl, (if_pos hgo).symm, rfl⟩
  · rw [if_neg hgo] at hrest
    obtain ⟨rfl, rfl, rfl⟩ := course_fail.mp hrest
    exact ⟨rfl, (if_neg hgo).symm, rfl⟩

theorem leaveScan_course {register : Register} {result : Except Halt Unit}
    (h : (leaveScan register).Course session exchanges result session') :
    ∃ driver, (TapDriver.leaveFor (session.endState register)).Course session.tap exchanges result
        driver ∧ session' = { session with tap := driver } := by
  rcases course_bind.mp h with
    ⟨first, rest, level, middle, hclock, hrest, rfl⟩ | ⟨reason, hclock, rfl⟩
  · obtain ⟨driver, hdriver, rfl⟩ := onTap_course.mp hclock
    obtain ⟨driver', hroute, rfl⟩ := routeTo_course.mp (course_get_bind.mp hrest)
    exact ⟨driver', course_bind.mpr (.inl ⟨first, rest, level, driver, hdriver, hroute, rfl⟩), rfl⟩
  · obtain ⟨driver, hdriver, rfl⟩ := onTap_course.mp hclock
    exact ⟨driver, course_bind.mpr (.inr ⟨reason, hdriver, rfl⟩), rfl⟩

/-- The ways in which a scan can go: the change is refused, the shift state is not reached, not all
bits are sent, or the scan is compared and left. -/
inductive ScanCourse (register : Register) (delta : Pattern) (label : Option String)
    (session : Session) : List Exchange → Except Halt Unit → Session → Prop where
  | refused {error}
      (hupdate : session.registers.update ⟨.payload, register⟩ delta = .error error) :
      ScanCourse register delta label session [] (.error (.failed (.parameter (.pattern error))))
        session
  | unrouted {registers routing reason driver}
      (hupdate : session.registers.update ⟨.payload, register⟩ delta = .ok registers)
      (hroute : (TapDriver.routeTo register.shiftState).Course session.tap routing
        (.error reason) driver) :
      ScanCourse register delta label session
        (updateNote registers ⟨.payload, register⟩ :: routing) (.error reason)
        { session with registers, tap := driver }
  | unshifted {registers routing shifting reason driver driver'}
      (hupdate : session.registers.update ⟨.payload, register⟩ delta = .ok registers)
      (hroute : (TapDriver.routeTo register.shiftState).Course session.tap routing (.ok ()) driver)
      (hshift : (registers.segments register).shift.Course driver shifting (.error reason)
        driver') :
      ScanCourse register delta label session
        (updateNote registers ⟨.payload, register⟩ :: (routing ++ shifting)) (.error reason)
        { session with registers, tap := driver' }
  | shifted {registers routing shifting leaving samples left driver driver' driver''}
      (hupdate : session.registers.update ⟨.payload, register⟩ delta = .ok registers)
      (hroute : (TapDriver.routeTo register.shiftState).Course session.tap routing (.ok ()) driver)
      (hshift : (registers.segments register).shift.Course driver shifting (.ok samples) driver')
      (hleave : (TapDriver.leaveFor (session.endState register)).Course driver' leaving left
        driver'') :
      ScanCourse register delta label session
        (updateNote registers ⟨.payload, register⟩ :: (routing ++ (shifting ++
          (comparison ⟨.payload, register⟩ label (registers.segments register).payload
            samples.payload ++ leaving))))
        (left.bind fun _ =>
          verdict session ((registers.segments register).payload.accepts samples.payload) label)
        (judge label (registers.segments register).payload samples.payload
          { session with registers, tap := driver'' })

/-- After the shift a scan is compared, left and concluded. -/
theorem shifted_course {register : Register} {delta : Pattern} {label : Option String}
    {registers : Registers} {routing shifting rest : List Exchange} {samples : Samples}
    {driver driver' : TapDriver} {result : Except Halt Unit}
    (hupdate : session.registers.update ⟨.payload, register⟩ delta = .ok registers)
    (hroute : (TapDriver.routeTo register.shiftState).Course session.tap routing (.ok ()) driver)
    (hshift : (registers.segments register).shift.Course driver shifting (.ok samples) driver')
    (hrest : Course (do
        let passed ← compare ⟨.payload, register⟩ label (registers.segments register).payload
          samples.payload
        leaveScan register
        conclude passed label) { session with registers, tap := driver' } rest result session') :
    ScanCourse register delta label session
      (updateNote registers ⟨.payload, register⟩ :: (routing ++ (shifting ++ rest))) result
      session' := by
  rcases course_bind.mp hrest with
    ⟨comparing, rest, passed, judged, hcompare, hrest, rfl⟩ | ⟨reason, hcompare, -⟩
  · obtain ⟨rfl, hpassed, rfl⟩ := compare_course hcompare
    cases hpassed
    rcases course_bind.mp hrest with
      ⟨leaving, concluding, ⟨⟩, left, hleaves, hconclude, rfl⟩ | ⟨reason, hleaves, rfl⟩
    · obtain ⟨driver'', hleave, rfl⟩ := leaveScan_course hleaves
      obtain ⟨rfl, rfl, rfl⟩ := conclude_course hconclude
      -- The comparison changes the report only, so it may as well be made after the scan is left.
      rw [endState_judge, tap_judge] at hleave
      rw [judge_tap, List.append_nil]
      have hverdict : verdict (judge label (registers.segments register).payload samples.payload
          { session with registers, tap := driver'' })
          ((registers.segments register).payload.accepts samples.payload) label =
            verdict session ((registers.segments register).payload.accepts samples.payload)
              label := by
        simp [verdict]
      rw [hverdict]
      exact .shifted hupdate hroute hshift hleave
    · obtain ⟨driver'', hleave, rfl⟩ := leaveScan_course hleaves
      rw [endState_judge, tap_judge] at hleave
      rw [judge_tap]
      exact .shifted hupdate hroute hshift hleave
  · obtain ⟨-, hresult, -⟩ := compare_course hcompare
    cases hresult

/-- There are no other ways. -/
theorem scan_course {register : Register} {delta : Pattern} {label : Option String}
    {result : Except Halt Unit}
    (h : (scan register delta label).Course session exchanges result session') :
    ScanCourse register delta label session exchanges result session' := by
  rcases course_bind.mp h with
    ⟨noting, rest, pattern, merged, hupdate, hrest, rfl⟩ | ⟨reason, hupdate, rfl⟩
  · rcases update_course hupdate with
      ⟨error, -, -, hresult, -⟩ | ⟨registers, hregisters, rfl, -, rfl⟩
    · cases hresult
    rw [List.singleton_append]
    rcases course_bind.mp hrest with
      ⟨routing, rest, ⟨⟩, routed, hroute, hrest, rfl⟩ | ⟨reason, hroute, rfl⟩
    · obtain ⟨driver, hdriver, rfl⟩ := routeTo_course.mp hroute
      rcases course_bind.mp (course_get_bind.mp hrest) with
        ⟨shifting, rest, samples, shifted, hshift, hrest, rfl⟩ | ⟨reason, hshift, rfl⟩
      · obtain ⟨driver', hdriver', rfl⟩ := onTap_course.mp hshift
        exact shifted_course hregisters hdriver hdriver' hrest
      · obtain ⟨driver', hdriver', rfl⟩ := onTap_course.mp hshift
        exact .unshifted hregisters hdriver hdriver'
    · obtain ⟨driver, hdriver, rfl⟩ := routeTo_course.mp hroute
      exact .unrouted hregisters hdriver
  · rcases update_course hupdate with
      ⟨error, herror, rfl, hresult, rfl⟩ | ⟨registers, -, -, hresult, -⟩
    · cases hresult
      exact .refused herror
    · cases hresult

end Player

end JtagPlayer
