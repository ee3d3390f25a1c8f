import JtagPlayer.Bus.Basic
import JtagPlayer.Clock

/-!
# Dialogues with a bus and a clock

A player calls on a bus and a clock and goes on according to their answers. A `Dialogue` is such a
course of calls, apart from any particular bus: it is done with a result, or makes a `Call` and has
a continuation for every answer.

`Dialogue.play` holds a dialogue on a `Bench`, which has a bus, a clock and a log.
`Dialogue.play_bind` says that a dialogue followed by another is played one after the other.
-/

namespace JtagPlayer

/-- What a player asks of its surroundings. -/
inductive Call where
  /-- Prepares the bus for a run. -/
  | acquire
  /-- Drives a line. -/
  | write (line : Line) (level : Bool)
  /-- Samples a line. -/
  | read (line : Line)
  /-- Gives the bus back. -/
  | release
  /-- Looks at the clock. -/
  | now
  /-- Waits for a time to come, sleeping for all but the last part. -/
  | wait (deadline spinThreshold : Nat)
  /-- Notes something down. -/
  | note (entry : LogEntry)

/-- The answers to a call. -/
abbrev Call.Answer : Call → Type
  | acquire => Except IoError Unit
  | write _ _ => Except IoError Unit
  | read _ => Except IoError Bool
  | release => Unit
  | now => Nat
  | wait _ _ => Unit
  | note _ => Unit

/-- A course of calls that ends with a result. -/
inductive Dialogue (α : Type) : Type where
  | done (result : α)
  | call (call : Call) (next : call.Answer → Dialogue α)

namespace Dialogue

/-- One dialogue after the other. -/
def bind {α β : Type} : Dialogue α → (α → Dialogue β) → Dialogue β
  | done result, f => f result
  | call c next, f => call c fun answer => (next answer).bind f

instance : Monad Dialogue where
  pure := done
  bind := bind

/-- Makes a call and ends with its answer. -/
def ask (c : Call) : Dialogue c.Answer :=
  call c done

@[simp] theorem bind_done {α β : Type} (result : α) (f : α → Dialogue β) :
    (done result).bind f = f result := rfl

@[simp] theorem bind_call {α β : Type} (c : Call) (next : c.Answer → Dialogue α)
    (f : α → Dialogue β) : (call c next).bind f = call c fun answer => (next answer).bind f := rfl

/-- Ending with the result changes nothing. -/
theorem bind_pure {α : Type} (dialogue : Dialogue α) : dialogue.bind done = dialogue := by
  induction dialogue with
  | done result => rfl
  | call c next ih => simp [ih]

/-- It does not matter how a series of dialogues is divided. -/
theorem bind_assoc {α β γ : Type} (dialogue : Dialogue α) (f : α → Dialogue β)
    (g : β → Dialogue γ) : (dialogue.bind f).bind g = dialogue.bind fun a => (f a).bind g := by
  induction dialogue with
  | done result => rfl
  | call c next ih => simp [ih]

end Dialogue

/-- The surroundings of a player: a bus, a clock and a log, whose latest note is the first. -/
structure Bench (β τ : Type) where
  bus : β
  clock : τ
  log : List LogEntry := []

namespace Bench

variable {β τ : Type} [Bus β] [Clock τ]

/-- Answers a call. Anything but a wait may take some time. -/
def answer (bench : Bench β τ) : (call : Call) → call.Answer × Bench β τ
  | .acquire =>
    let (result, bus) := Bus.acquire bench.bus
    (result, { bus, clock := Clock.pass bench.clock
               log := (Bus.acquireNotes bench.bus).reverse ++ bench.log })
  | .write line level =>
    let (result, bus) := Bus.write line level bench.bus
    (result, { bench with bus, clock := Clock.pass bench.clock })
  | .read line =>
    let (result, bus) := Bus.read line bench.bus
    (result, { bench with bus, clock := Clock.pass bench.clock })
  | .release =>
    ((), { bus := Bus.release bench.bus, clock := Clock.pass bench.clock
           log := (Bus.releaseNotes bench.bus).reverse ++ bench.log })
  | .now =>
    (Clock.now bench.clock, { bench with clock := Clock.pass bench.clock })
  | .wait deadline spinThreshold =>
    ((), { bench with clock := Clock.waitUntil deadline spinThreshold bench.clock })
  | .note entry => ((), { bench with log := entry :: bench.log })

end Bench

namespace Dialogue

variable {β τ : Type} [Bus β] [Clock τ]

/-- Holds a dialogue on a bench. -/
def play {α : Type} : Dialogue α → Bench β τ → α × Bench β τ
  | done result, bench => (result, bench)
  | call c next, bench =>
    let (answer, bench) := bench.answer c
    (next answer).play bench

@[simp] theorem play_done {α : Type} (result : α) (bench : Bench β τ) :
    (done result).play bench = (result, bench) := rfl

@[simp] theorem play_call {α : Type} (c : Call) (next : c.Answer → Dialogue α)
    (bench : Bench β τ) :
    (call c next).play bench = (next (bench.answer c).1).play (bench.answer c).2 := rfl

/-- A dialogue followed by another is played one after the other. -/
theorem play_bind {α γ : Type} (dialogue : Dialogue α) (f : α → Dialogue γ)
    (bench : Bench β τ) :
    (dialogue.bind f).play bench = (f (dialogue.play bench).1).play (dialogue.play bench).2 := by
  induction dialogue generalizing bench with
  | done result => rfl
  | call c next ih => simp [ih]

end Dialogue

end JtagPlayer
