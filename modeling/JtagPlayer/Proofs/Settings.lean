import JtagPlayer.Player
import JtagPlayer.Proofs.Course

/-!
# What a setting does

The settings of a program choose an end state, a clock rate, a header or a trailer. None of them
uses the bus: a setting is refused where it stands, or it changes one part of the session and makes
at most a note. The equations here say so, and everything else that is to be known of a setting
follows from them.
-/

namespace JtagPlayer

open JtagPlayer.Action

/-- A driver refuses a clock rate or sets its delay. -/
theorem TapDriver.setFrequency_eq (hz : Float) (driver : TapDriver) :
    TapDriver.setFrequency hz driver =
      match TapDriver.delayOf hz with
      | .error error => .done (.error (.failed (.parameter error)), driver)
      | .ok delay => .done (.ok (), { driver with delay }) := by
  show (ofParameter (TapDriver.delayOf hz) >>= _) driver = _
  cases TapDriver.delayOf hz <;> rfl

namespace Player

variable {session session' : Session} {exchanges : List Exchange}

/-- An end state is refused or chosen, without a note. -/
theorem setEndState_eq (register : Register) (state : TapState) (session : Session) :
    setEndState register state session =
      match session.setEndState register state with
      | .error error => .done (.error (.failed (.move error)), session)
      | .ok updated => .done (.ok (), updated) := by
  show (ofMove (session.setEndState register state) >>= _) session = _
  cases session.setEndState register state <;> rfl

/-- A clock rate is refused, or its delay is set and noted. -/
theorem setFrequency_eq (hz : Float) (session : Session) :
    setFrequency hz session =
      match TapDriver.delayOf hz with
      | .error error => .done (.error (.failed (.parameter error)), session)
      | .ok delay => .call (.note (.clockDelay delay)) fun _ =>
          .done (.ok (), { session with tap := { session.tap with delay } }) := by
  show ((TapDriver.setFrequency hz session.tap).bind _).bind _ = _
  rw [TapDriver.setFrequency_eq]
  cases TapDriver.delayOf hz <;> rfl

/-- A change to a stored pattern is refused, or merged and noted. -/
theorem update_eq (name : RegisterName) (delta : Pattern) (session : Session) :
    update name delta session =
      match session.registers.update name delta with
      | .error error => .done (.error (.failed (.parameter (.pattern error))), session)
      | .ok registers => .call (.note (.updated name (registers.get name))) fun _ =>
          .done (.ok (registers.get name), { session with registers }) := by
  show (ofParameter ((session.update name delta).mapError .pattern) >>= _) session = _
  rw [Session.update]
  cases session.registers.update name delta <;> rfl

theorem setEndState_course {register : Register} {state : TapState} {result : Except Halt Unit}
    (h : (setEndState register state).Course session exchanges result session') :
    (∃ error, session.setEndState register state = .error error ∧ exchanges = [] ∧
      result = .error (.failed (.move error)) ∧ session' = session) ∨
    (∃ updated, session.setEndState register state = .ok updated ∧ exchanges = [] ∧
      result = .ok () ∧ session' = updated) := by
  change (setEndState register state session).Course exchanges (result, session') at h
  rw [setEndState_eq] at h
  cases hset : session.setEndState register state with
  | error error =>
    rw [hset] at h
    obtain ⟨rfl, hends⟩ := Dialogue.course_done.mp h
    cases hends
    exact .inl ⟨error, rfl, rfl, rfl, rfl⟩
  | ok updated =>
    rw [hset] at h
    obtain ⟨rfl, hends⟩ := Dialogue.course_done.mp h
    cases hends
    exact .inr ⟨_, rfl, rfl, rfl, rfl⟩

theorem setFrequency_course {hz : Float} {result : Except Halt Unit}
    (h : (setFrequency hz).Course session exchanges result session') :
    (∃ error, TapDriver.delayOf hz = .error error ∧ exchanges = [] ∧
      result = .error (.failed (.parameter error)) ∧ session' = session) ∨
    (∃ delay, TapDriver.delayOf hz = .ok delay ∧
      exchanges = [⟨.note (.clockDelay delay), ()⟩] ∧ result = .ok () ∧
      session' = { session with tap := { session.tap with delay } }) := by
  change (setFrequency hz session).Course exchanges (result, session') at h
  rw [setFrequency_eq] at h
  cases hdelay : TapDriver.delayOf hz with
  | error error =>
    rw [hdelay] at h
    obtain ⟨rfl, hends⟩ := Dialogue.course_done.mp h
    cases hends
    exact .inl ⟨error, rfl, rfl, rfl, rfl⟩
  | ok delay =>
    rw [hdelay] at h
    obtain ⟨⟨⟩, rest, rfl, hdone⟩ := Dialogue.course_call.mp h
    obtain ⟨rfl, hends⟩ := Dialogue.course_done.mp hdone
    cases hends
    exact .inr ⟨delay, rfl, rfl, rfl, rfl⟩

end Player

end JtagPlayer
