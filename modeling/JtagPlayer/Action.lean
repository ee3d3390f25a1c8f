import JtagPlayer.Dialogue

/-!
# Actions

An `Action` is a dialogue that works on a state and may stop before its end. What it did to the
state up to then remains. It stops for a reason that a run reports, a `PlayError`, or because it
would have to wait for a time that no clock reaches.

`Action.bind` goes on only if the first action ends well; `Action.on` applies an action to a part of
a state.
-/

namespace JtagPlayer

/-- Why an action stops before its end. -/
inductive Halt where
  | failed (error : PlayError)
  /-- A deadline lies beyond the last instant. -/
  | deadlineOverflow
  deriving DecidableEq

/-- The text that reports a deadline beyond the last instant. -/
def Halt.overflowMessage : String := "overflow when adding duration to instant"

/-- A dialogue that works on a state and may stop before its end. -/
def Action (σ α : Type) : Type :=
  σ → Dialogue (Except Halt α × σ)

namespace Action

variable {σ α β : Type}

/-- Ends well with a result. -/
def pure (result : α) : Action σ α :=
  fun state => .done (.ok result, state)

/-- Stops. -/
def halt (reason : Halt) : Action σ α :=
  fun state => .done (.error reason, state)

/-- One action after the other, if the first ends well. -/
def bind (action : Action σ α) (f : α → Action σ β) : Action σ β :=
  fun state => Dialogue.bind (action state) fun
    | (.ok result, state) => f result state
    | (.error reason, state) => .done (.error reason, state)

instance : Monad (Action σ) where
  pure := pure
  bind := bind

/-- An action after one that only ends well goes on with its result. -/
theorem pure_bind (result : α) (f : α → Action σ β) : (pure result).bind f = f result := rfl

/-- A sequence of three actions can be grouped either way. -/
theorem bind_assoc {γ : Type} (action : Action σ α) (f : α → Action σ β) (g : β → Action σ γ) :
    (action.bind f).bind g = action.bind fun result => (f result).bind g := by
  funext state
  unfold bind
  rw [Dialogue.bind_assoc]
  congr 1
  funext answer
  obtain ⟨_ | _, _⟩ := answer <;> rfl

/-- The state. -/
def get : Action σ σ :=
  fun state => .done (.ok state, state)

/-- Changes the state. -/
def modify (f : σ → σ) : Action σ Unit :=
  fun state => .done (.ok (), f state)

/-- Stops for a reason that a run reports. -/
def fail (error : PlayError) : Action σ α :=
  halt (.failed error)

/-- Makes a call that cannot fail. -/
def ask (call : Call) : Action σ call.Answer :=
  fun state => .call call fun answer => .done (.ok answer, state)

/-- The result of an operation on the bus; its failure stops the action. -/
def ofBus : Except IoError α → Action σ α
  | .ok result => pure result
  | .error error => fail (.hardware error)

/-- Drives a line. -/
def write (line : Line) (level : Bool) : Action σ Unit :=
  fun state => .call (.write line level) fun answer => ofBus answer state

/-- Samples a line. -/
def read (line : Line) : Action σ Bool :=
  fun state => .call (.read line) fun answer => ofBus answer state

/-- Notes something down. -/
def note (entry : LogEntry) : Action σ Unit :=
  ask (.note entry)

/-- Looks at the clock. -/
def now : Action σ Nat :=
  ask .now

/-- Waits until some time after an instant, if there is such a time. -/
def waitFor (start duration spinThreshold : Nat) : Action σ Unit :=
  match Instant.after? start duration with
  | some deadline => ask (.wait deadline spinThreshold)
  | none => halt .deadlineOverflow

/-- Refused parameters stop an action. -/
def ofParameter : Except ParameterError α → Action σ α
  | .ok result => pure result
  | .error error => fail (.parameter error)

/-- An impossible movement stops an action. -/
def ofMove : Except MoveError α → Action σ α
  | .ok result => pure result
  | .error error => fail (.move error)

/-- An action on a part of a state. -/
def on {ρ : Type} (part : ρ → σ) (put : ρ → σ → ρ) (action : Action σ α) : Action ρ α :=
  fun state => Dialogue.bind (action (part state)) fun (result, inner) =>
    .done (result, put state inner)

end Action

end JtagPlayer
