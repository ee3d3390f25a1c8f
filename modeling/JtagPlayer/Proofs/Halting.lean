import JtagPlayer.Proofs.Clocking
import JtagPlayer.Proofs.Idling
import JtagPlayer.Proofs.Scanning

/-!
# For what reasons actions stop

`Action.StopsFor Allowed action` says that whatever stops the action is one of the reasons that
`Allowed` holds of. The elementary actions add one reason each: a failed operation on the bus, an
overdue edge, a missing route, a state that is no neighbour, a refused parameter. What is put
together from them stops for no other reasons.
-/

namespace JtagPlayer

/-- The reasons that can stop a clock are allowed. -/
structure Halt.Excuses (Allowed : Halt → Prop) : Prop where
  overflow : Allowed .deadlineOverflow
  hardware : ∀ error, Allowed (.failed (.hardware error))

/-- So are the two impossible movements that a driver can be asked for. -/
structure Halt.ExcusesMoves (Allowed : Halt → Prop) : Prop extends Halt.Excuses Allowed where
  noRoute : ∀ start target, Allowed (.failed (.move (.noRoute start target)))
  notNeighbour : ∀ start target, Allowed (.failed (.move (.notNeighbour start target)))

open JtagPlayer.Action

namespace Action

variable {σ ρ α β : Type} {Allowed : Halt → Prop}

/-- Whatever stops the action is allowed. -/
def StopsFor (Allowed : Halt → Prop) (action : Action σ α) : Prop :=
  ∀ ⦃s exchanges reason s'⦄, action.Course s exchanges (.error reason) s' → Allowed reason

theorem stopsFor_pure (x : α) : StopsFor Allowed (Pure.pure x : Action σ α) := by
  intro s exchanges reason s' hcourse
  obtain ⟨-, hresult, -⟩ := course_pure.mp hcourse
  cases hresult

/-- An action that fails stops for its own error only. -/
theorem stopsFor_fail {error : PlayError} (h : Allowed (.failed error)) :
    StopsFor Allowed (fail error : Action σ α) := by
  intro s exchanges reason s' hcourse
  obtain ⟨-, hresult, -⟩ := course_fail.mp hcourse
  cases hresult
  exact h

/-- Two actions in a row stop for what either of them stops for. -/
theorem stopsFor_bind {action : Action σ α} {f : α → Action σ β}
    (haction : action.StopsFor Allowed) (hf : ∀ x, (f x).StopsFor Allowed) :
    (action >>= f).StopsFor Allowed := by
  intro s exchanges reason s' hcourse
  rcases course_bind.mp hcourse with
    ⟨first, rest, x, middle, -, hrest, -⟩ | ⟨reason, hstop, hresult⟩
  · exact hf x hrest
  · cases hresult
    exact haction hstop

/-- After a look at the state, what the rest stops for is asked in every state. -/
theorem stopsFor_get_bind {f : σ → Action σ β} (hf : ∀ s, (f s).StopsFor Allowed) :
    (get >>= f).StopsFor Allowed :=
  fun s _ _ _ hcourse => hf s (course_get_bind.mp hcourse)

theorem stopsFor_modify (f : σ → σ) : StopsFor Allowed (modify f) := by
  intro s exchanges reason s' hcourse
  obtain ⟨-, hresult, -⟩ := course_modify.mp hcourse
  cases hresult

/-- A call by itself stops nothing: it is up to the action what it makes of the answer. -/
theorem stopsFor_ask (c : Call) : StopsFor Allowed (ask c : Action σ c.Answer) := by
  intro s exchanges reason s' hcourse
  obtain ⟨answer, -, hresult, -⟩ := course_ask.mp hcourse
  cases hresult

/-- A parameter that is refused stops an action for the reason given with it. -/
theorem stopsFor_ofParameter {parameter : Except ParameterError α}
    (h : ∀ error, parameter = .error error → Allowed (.failed (.parameter error))) :
    StopsFor Allowed (ofParameter parameter : Action σ α) := by
  cases parameter with
  | error error => exact stopsFor_fail (h error rfl)
  | ok x => exact stopsFor_pure x

/-- So does a movement that is impossible. -/
theorem stopsFor_ofMove {move : Except MoveError α}
    (h : ∀ error, move = .error error → Allowed (.failed (.move error))) :
    StopsFor Allowed (ofMove move : Action σ α) := by
  cases move with
  | error error => exact stopsFor_fail (h error rfl)
  | ok x => exact stopsFor_pure x

/-- A wait stops an action only if its deadline is beyond all instants. -/
theorem stopsFor_waitFor (h : Allowed .deadlineOverflow) (start duration spinThreshold : Nat) :
    StopsFor Allowed (waitFor start duration spinThreshold : Action σ Unit) := by
  intro s exchanges reason s' hcourse
  obtain ⟨-, ⟨-, hresult, -⟩ | ⟨-, hresult, -⟩⟩ := course_waitFor.mp hcourse
  · cases hresult
  · cases hresult
    exact h

/-- An action on a part of a state stops for the reasons it has there. -/
theorem stopsFor_on {part : ρ → σ} {put : ρ → σ → ρ} {action : Action σ α}
    (haction : action.StopsFor Allowed) : (action.on part put).StopsFor Allowed := by
  intro t exchanges reason t' hcourse
  obtain ⟨inner, hinner, -⟩ := course_on.mp hcourse
  exact haction hinner

end Action

variable {Allowed : Halt → Prop}

namespace TapDriver

/-- A clock is stopped by an overdue edge or by a failed operation on the bus. -/
theorem clock_stopsFor (h : Halt.Excuses Allowed) (tms tdi : Bool) :
    (clock tms tdi).StopsFor Allowed := by
  intro driver exchanges reason driver' hcourse
  generalize hresult : (Except.error reason : Except Halt Bool) = result at hcourse
  cases clock_course hcourse with
  | overdue hdue =>
    cases hresult
    exact h.overflow
  | tmsFails error | tdiFails error | lowFails error | riseFails error | sampleFails _ error =>
    cases hresult
    exact h.hardware error
  | sampled => cases hresult

theorem clockWord_stopsFor (h : Halt.Excuses Allowed) (word : List Bool) :
    (clockWord word).StopsFor Allowed := by
  induction word with
  | nil => exact stopsFor_pure ()
  | cons tms word ih => exact stopsFor_bind (clock_stopsFor h tms false) fun _ => ih

/-- A route adds one reason, that there is none. -/
theorem routeTo_stopsFor (h : Halt.ExcusesMoves Allowed) (target : TapState) :
    (routeTo target).StopsFor Allowed := by
  refine stopsFor_get_bind fun driver => ?_
  cases driver.state.route? target with
  | none => exact stopsFor_fail (h.noRoute _ _)
  | some word =>
    exact stopsFor_bind (stopsFor_ask _) fun _ => clockWord_stopsFor h.toExcuses word

/-- A step adds the reason that the state is no neighbour. -/
theorem stepTo_stopsFor (h : Halt.Excuses Allowed)
    (hstep : ∀ start target, Allowed (.failed (.move (.notNeighbour start target))))
    (target : TapState) : (stepTo target).StopsFor Allowed := by
  refine stopsFor_get_bind fun driver => ?_
  cases driver.state.levelTo? target with
  | none => exact stopsFor_fail (hstep _ _)
  | some tms => exact stopsFor_bind (clock_stopsFor h tms false) fun _ => stopsFor_pure ()

/-- A path is stopped by what stops its steps. -/
theorem walkPath_stopsFor (h : Halt.Excuses Allowed)
    (hstep : ∀ start target, Allowed (.failed (.move (.notNeighbour start target))))
    (path : List TapState) : (walkPath path).StopsFor Allowed := by
  induction path with
  | nil => exact stopsFor_pure ()
  | cons state path ih => exact stopsFor_bind (stepTo_stopsFor h hstep state) fun _ => ih

/-- Bits are stopped by what stops their clocks. -/
theorem shiftBits_stopsFor (h : Halt.Excuses Allowed) (leave : Bool) (bits received : List Bool) :
    (shiftBits leave bits received).StopsFor Allowed := by
  induction bits generalizing received with
  | nil => exact stopsFor_pure received
  | cons bit bits ih => exact stopsFor_bind (clock_stopsFor h _ bit) fun _ => ih _

theorem shiftPattern_stopsFor (h : Halt.Excuses Allowed) (leave : Bool) (pattern : Pattern) :
    (shiftPattern leave pattern).StopsFor Allowed := by
  rw [shiftPattern_eq]
  exact stopsFor_bind (shiftBits_stopsFor h leave _ _) fun _ => stopsFor_pure _

theorem leaveFor_stopsFor (h : Halt.ExcusesMoves Allowed) (target : TapState) :
    (leaveFor target).StopsFor Allowed :=
  stopsFor_bind (clock_stopsFor h.toExcuses false false) fun _ => routeTo_stopsFor h target

end TapDriver

/-- No part of a scan adds a reason of its own while it is shifted. -/
theorem Segments.shift_stopsFor (h : Halt.Excuses Allowed) (segments : Segments) :
    segments.shift.StopsFor Allowed := by
  refine stopsFor_bind (TapDriver.shiftPattern_stopsFor h _ _) fun header => ?_
  refine stopsFor_bind (TapDriver.shiftPattern_stopsFor h _ _) fun payload => ?_
  refine stopsFor_bind (TapDriver.shiftPattern_stopsFor h _ _) fun trailer => ?_
  exact stopsFor_bind (stopsFor_ask _) fun _ => stopsFor_pure _

namespace Player

theorem onTap_stopsFor {α : Type} {action : Action TapDriver α}
    (haction : action.StopsFor Allowed) : (onTap action).StopsFor Allowed :=
  stopsFor_on haction

/-- A clock rate is refused for the reasons for which its delay cannot be computed. -/
theorem setFrequency_stopsFor {hz : Float}
    (h : ∀ error, TapDriver.delayOf hz = .error error → Allowed (.failed (.parameter error))) :
    (setFrequency hz).StopsFor Allowed := by
  have hset : (TapDriver.setFrequency hz).StopsFor Allowed :=
    stopsFor_bind (stopsFor_ofParameter h) fun _ => stopsFor_modify _
  exact stopsFor_bind (onTap_stopsFor hset) fun _ => stopsFor_get_bind fun _ => stopsFor_ask _

theorem routeTo_stopsFor (h : Halt.ExcusesMoves Allowed) (target : TapState) :
    (routeTo target).StopsFor Allowed :=
  onTap_stopsFor (TapDriver.routeTo_stopsFor h target)

/-- Where no state is given nothing can stop. -/
theorem routeToGiven_stopsFor (h : Halt.ExcusesMoves Allowed) (given : Option TapState) :
    (routeToGiven given).StopsFor Allowed := by
  cases given with
  | none => exact stopsFor_pure ()
  | some target => exact routeTo_stopsFor h target

theorem isOver_stopsFor (start : Nat) (maxTime : Option Nat) :
    (isOver start maxTime).StopsFor Allowed := by
  cases maxTime with
  | none => exact stopsFor_pure false
  | some maxTime => exact stopsFor_bind (stopsFor_ask .now) fun _ => stopsFor_pure _

/-- Being late ends a period, but stops nothing, so that only idle clocks can. -/
theorem idle_stopsFor (h : Halt.Excuses Allowed) (start : Nat) (maxTime : Option Nat)
    (count remaining : Nat) : (idle start maxTime count remaining).StopsFor Allowed := by
  induction remaining with
  | zero => exact stopsFor_pure ()
  | succ remaining ih =>
    refine stopsFor_bind (isOver_stopsFor start maxTime) fun isLate => ?_
    cases isLate with
    | true => exact stopsFor_ask _
    | false => exact stopsFor_bind (onTap_stopsFor (TapDriver.clock_stopsFor h _ _)) fun _ => ih

/-- The approach of an idle period is stopped on its route or in an idle clock. -/
theorem approach_stopsFor (h : Halt.ExcusesMoves Allowed) (test : RunTest)
    (maxTime : Option Nat) (start : Nat) : (approach test maxTime start).StopsFor Allowed := by
  refine stopsFor_get_bind fun session => ?_
  exact stopsFor_bind (routeToGiven_stopsFor h _) fun _ => idle_stopsFor h.toExcuses _ _ _ _

end Player

end JtagPlayer
