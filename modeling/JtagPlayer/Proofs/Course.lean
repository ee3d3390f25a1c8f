import JtagPlayer.Action

/-!
# Courses of dialogues and actions

What a dialogue leads to depends on the answers it is given. `Dialogue.Course dialogue exchanges
result` says that the dialogue can make the calls of `exchanges` in order, is given the answers that
stand there, and ends with `result`. Nothing is assumed of who answers. `Dialogue.course_transcript`
says that what happens on a bench is a course, so a fact about all courses holds for every bus and
every clock.

`Action.course_bind` takes a course of two actions in sequence apart; the other lemmas named
`course_…` do the same for the elementary actions.
-/

namespace JtagPlayer

/-- A call and the answer to it. -/
structure Exchange where
  call : Call
  answer : call.Answer

/-- Calls that leave the bus alone. -/
def Call.IsQuiet : Call → Prop
  | .now | .wait _ _ | .note _ => True
  | _ => False

/-- Whether an operation on the bus succeeded. Calls of any other kind cannot fail. -/
def Exchange.Succeeds : Exchange → Prop
  | ⟨.acquire, .error _⟩ => False
  | ⟨.write _ _, .error _⟩ => False
  | ⟨.read _, .error _⟩ => False
  | _ => True

instance : DecidablePred Exchange.Succeeds
  | ⟨.acquire, .error _⟩ | ⟨.write _ _, .error _⟩ | ⟨.read _, .error _⟩ => .isFalse id
  | ⟨.acquire, .ok _⟩ | ⟨.write _ _, .ok _⟩ | ⟨.read _, .ok _⟩ => .isTrue trivial
  | ⟨.release, _⟩ | ⟨.now, _⟩ | ⟨.wait _ _, _⟩ | ⟨.note _, _⟩ => .isTrue trivial

/-- Calls that leave the bus alone cannot fail. -/
theorem Exchange.succeeds_of_isQuiet {exchange : Exchange} (h : exchange.call.IsQuiet) :
    exchange.Succeeds := by
  obtain ⟨c, answer⟩ := exchange
  cases c with
  | acquire | write | read | release => exact h.elim
  | now | wait | note => trivial

/-- No operation on the bus failed. -/
def Flawless (exchanges : List Exchange) : Prop :=
  ∀ exchange ∈ exchanges, exchange.Succeeds

instance (exchanges : List Exchange) : Decidable (Flawless exchanges) :=
  inferInstanceAs (Decidable (∀ exchange ∈ exchanges, exchange.Succeeds))

@[simp] theorem flawless_nil : Flawless [] := by
  simp [Flawless]

@[simp] theorem flawless_cons {exchange : Exchange} {exchanges : List Exchange} :
    Flawless (exchange :: exchanges) ↔ exchange.Succeeds ∧ Flawless exchanges := by
  simp [Flawless]

/-- Nothing fails in two series of exchanges if nothing fails in either. -/
@[simp] theorem flawless_append {first second : List Exchange} :
    Flawless (first ++ second) ↔ Flawless first ∧ Flawless second := by
  simp [Flawless, or_imp, forall_and]

namespace Dialogue

variable {α γ : Type}

/-- `Course dialogue exchanges result` says that the dialogue can go on as in `exchanges` and end
with `result`. -/
inductive Course : Dialogue α → List Exchange → α → Prop where
  | done (result : α) : Course (done result) [] result
  | call {c : Call} {next : c.Answer → Dialogue α} {answer : c.Answer}
      {rest : List Exchange} {result : α} (h : Course (next answer) rest result) :
      Course (call c next) (⟨c, answer⟩ :: rest) result

/-- A dialogue that is over makes no exchange. -/
theorem course_done {result other : α} {exchanges : List Exchange} :
    (done result).Course exchanges other ↔ exchanges = [] ∧ other = result := by
  constructor
  · intro h
    cases h
    exact ⟨rfl, rfl⟩
  · intro h
    obtain ⟨rfl, rfl⟩ := h
    exact .done _

/-- A dialogue that makes a call goes on as the answer has it. -/
theorem course_call {c : Call} {next : c.Answer → Dialogue α} {exchanges : List Exchange}
    {result : α} : (call c next).Course exchanges result ↔
      ∃ answer rest, exchanges = ⟨c, answer⟩ :: rest ∧ (next answer).Course rest result := by
  constructor
  · intro h
    cases h with
    | call h => exact ⟨_, _, rfl, h⟩
  · intro h
    obtain ⟨answer, rest, rfl, h⟩ := h
    exact .call h

/-- A course of a dialogue followed by another is a course of the first and then one of the
second. -/
theorem course_bind {dialogue : Dialogue α} {f : α → Dialogue γ} {exchanges : List Exchange}
    {result : γ} : (dialogue.bind f).Course exchanges result ↔
      ∃ first second middle, dialogue.Course first middle ∧ (f middle).Course second result ∧
        exchanges = first ++ second := by
  induction dialogue generalizing exchanges with
  | done middle =>
    rw [bind_done]
    constructor
    · intro h
      exact ⟨[], exchanges, middle, .done middle, h, rfl⟩
    · intro h
      obtain ⟨first, second, other, hfirst, hsecond, rfl⟩ := h
      obtain ⟨rfl, rfl⟩ := course_done.mp hfirst
      exact hsecond
  | call c next ih =>
    rw [bind_call, course_call]
    constructor
    · intro h
      obtain ⟨answer, rest, rfl, h⟩ := h
      obtain ⟨first, second, middle, hfirst, hsecond, rfl⟩ := (ih answer).mp h
      exact ⟨_, second, middle, .call hfirst, hsecond, rfl⟩
    · intro h
      obtain ⟨first, second, middle, hfirst, hsecond, rfl⟩ := h
      obtain ⟨answer, rest, rfl, hrest⟩ := course_call.mp hfirst
      have hnext := (ih answer).mpr ⟨rest, second, middle, hrest, hsecond, rfl⟩
      exact ⟨answer, rest ++ second, rfl, hnext⟩

section Bench

variable {β τ : Type} [Bus β] [Clock τ]

/-- What is said while a dialogue is held on a bench. -/
def transcript : Dialogue α → Bench β τ → List Exchange
  | done _, _ => []
  | call c next, bench =>
    ⟨c, (bench.answer c).1⟩ :: (next (bench.answer c).1).transcript (bench.answer c).2

/-- What happens on a bench is a course of the dialogue. -/
theorem course_transcript (dialogue : Dialogue α) (bench : Bench β τ) :
    dialogue.Course (dialogue.transcript bench) (dialogue.play bench).1 := by
  induction dialogue generalizing bench with
  | done result => exact .done result
  | call c next ih => exact .call (ih _ _)

/-- The transcripts of two dialogues in sequence follow one another. -/
theorem transcript_bind (dialogue : Dialogue α) (f : α → Dialogue γ) (bench : Bench β τ) :
    (dialogue.bind f).transcript bench =
      dialogue.transcript bench ++
        (f (dialogue.play bench).1).transcript (dialogue.play bench).2 := by
  induction dialogue generalizing bench with
  | done result => rfl
  | call c next ih => simp [transcript, ih]

end Bench

end Dialogue

namespace Action

variable {σ ρ α β : Type} {s s' : σ} {exchanges : List Exchange}

/-- `Course action s exchanges result s'` says that the action can go on as in `exchanges` from the
state `s` and end in `s'` with `result`. -/
def Course (action : Action σ α) (s : σ) (exchanges : List Exchange) (result : Except Halt α)
    (s' : σ) : Prop :=
  (action s).Course exchanges (result, s')

theorem course_pure {x : α} {result : Except Halt α} :
    Course (Pure.pure x) s exchanges result s' ↔ exchanges = [] ∧ result = .ok x ∧ s' = s := by
  simp [Course, Pure.pure, pure, Dialogue.course_done]

theorem course_halt {reason : Halt} {result : Except Halt α} :
    Course (halt reason) s exchanges result s' ↔
      exchanges = [] ∧ result = .error reason ∧ s' = s := by
  simp [Course, halt, Dialogue.course_done]

theorem course_fail {error : PlayError} {result : Except Halt α} :
    Course (fail error) s exchanges result s' ↔
      exchanges = [] ∧ result = .error (.failed error) ∧ s' = s :=
  course_halt

/-- Two actions in sequence: the first ends well and the second goes on, or the first stops. -/
theorem course_bind {action : Action σ α} {f : α → Action σ β} {result : Except Halt β} :
    Course (action >>= f) s exchanges result s' ↔
      (∃ first second x middle, action.Course s first (.ok x) middle ∧
        (f x).Course middle second result s' ∧ exchanges = first ++ second) ∨
      ∃ reason, action.Course s exchanges (.error reason) s' ∧ result = .error reason := by
  show ((action s).bind _).Course exchanges (result, s') ↔ _
  rw [Dialogue.course_bind]
  constructor
  · intro h
    obtain ⟨first, second, ⟨_ | x, middle⟩, hfirst, hsecond, rfl⟩ := h
    · obtain ⟨rfl, h⟩ := Dialogue.course_done.mp hsecond
      cases h
      exact .inr ⟨_, by simpa [Course] using hfirst, rfl⟩
    · exact .inl ⟨first, second, x, middle, hfirst, hsecond, rfl⟩
  · intro h
    rcases h with ⟨first, second, x, middle, hfirst, hsecond, rfl⟩ | ⟨reason, h, rfl⟩
    · exact ⟨first, second, (.ok x, middle), hfirst, hsecond, rfl⟩
    · exact ⟨exchanges, [], (.error reason, s'), h, .done _, by simp⟩

theorem course_modify {f : σ → σ} {result : Except Halt Unit} :
    Course (modify f) s exchanges result s' ↔ exchanges = [] ∧ result = .ok () ∧ s' = f s := by
  simp [Course, modify, Dialogue.course_done]

/-- An action that makes one call results in its answer. -/
theorem course_ask {c : Call} {result : Except Halt c.Answer} :
    Course (ask c) s exchanges result s' ↔
      ∃ answer, exchanges = [⟨c, answer⟩] ∧ result = .ok answer ∧ s' = s := by
  simp only [Course, ask, Dialogue.course_call, Dialogue.course_done, Prod.mk.injEq]
  constructor
  · intro h
    obtain ⟨answer, rest, rfl, rfl, rfl, rfl⟩ := h
    exact ⟨answer, rfl, rfl, rfl⟩
  · intro h
    obtain ⟨answer, rfl, rfl, rfl⟩ := h
    exact ⟨answer, [], rfl, rfl, rfl, rfl⟩

/-- After a look at the state or a change of it the rest goes on. -/
theorem course_get_bind {f : σ → Action σ β} {result : Except Halt β} :
    Course (get >>= f) s exchanges result s' ↔ (f s).Course s exchanges result s' :=
  Iff.rfl

theorem course_modify_bind {g : σ → σ} {f : Unit → Action σ β} {result : Except Halt β} :
    Course (modify g >>= f) s exchanges result s' ↔ (f ()).Course (g s) exchanges result s' :=
  Iff.rfl

/-- A call that cannot fail is followed by the rest. -/
theorem course_ask_bind {c : Call} {f : c.Answer → Action σ β} {result : Except Halt β} :
    Course (ask c >>= f) s exchanges result s' ↔
      ∃ answer rest, exchanges = ⟨c, answer⟩ :: rest ∧ (f answer).Course s rest result s' :=
  Dialogue.course_call

/-- Whether an operation on the bus failed decides whether the action goes on. -/
theorem course_ofBus {answer : Except IoError α} {result : Except Halt α} :
    Course (ofBus answer) s exchanges result s' ↔
      exchanges = [] ∧ result = answer.mapError (fun error => .failed (.hardware error)) ∧
        s' = s := by
  cases answer
  · exact course_fail
  · exact course_pure

/-- An operation on the bus is one call, whose failure stops the action. -/
theorem course_operation (c : Call) (outcome : c.Answer → Except IoError α)
    {result : Except Halt α} :
    Course (fun s => .call c fun answer => ofBus (outcome answer) s) s exchanges result s' ↔
      ∃ answer, exchanges = [⟨c, answer⟩] ∧
        result = (outcome answer).mapError (fun error => .failed (.hardware error)) ∧ s' = s := by
  unfold Course
  rw [Dialogue.course_call]
  constructor
  · intro h
    obtain ⟨answer, rest, rfl, h⟩ := h
    obtain ⟨rfl, rfl, rfl⟩ := course_ofBus.mp h
    exact ⟨answer, rfl, rfl, rfl⟩
  · intro h
    obtain ⟨answer, rfl, rfl, rfl⟩ := h
    exact ⟨answer, [], rfl, course_ofBus.mpr ⟨rfl, rfl, rfl⟩⟩

/-- A write ends as the bus answers it, and keeps the state. -/
theorem course_write {line : Line} {level : Bool} {result : Except Halt Unit} :
    Course (write line level) s exchanges result s' ↔
      ∃ answer, exchanges = [⟨.write line level, answer⟩] ∧
        result = answer.mapError (fun error => .failed (.hardware error)) ∧ s' = s :=
  course_operation (.write line level) id

/-- So does a read. -/
theorem course_read {line : Line} {result : Except Halt Bool} :
    Course (read line) s exchanges result s' ↔
      ∃ answer, exchanges = [⟨.read line, answer⟩] ∧
        result = answer.mapError (fun error => .failed (.hardware error)) ∧ s' = s :=
  course_operation (.read line) id

/-- A parameter is refused or accepted without an exchange. -/
theorem course_ofParameter {parameter : Except ParameterError α} {result : Except Halt α} :
    Course (ofParameter parameter) s exchanges result s' ↔
      exchanges = [] ∧ result = parameter.mapError (fun error => .failed (.parameter error)) ∧
        s' = s := by
  cases parameter
  · exact course_fail
  · exact course_pure

/-- A wait is granted up to a deadline, or there is no such instant. -/
theorem course_waitFor {start duration spinThreshold : Nat} {result : Except Halt Unit} :
    Course (waitFor start duration spinThreshold) s exchanges result s' ↔
      s' = s ∧
      ((start + duration < Instant.limit ∧ result = .ok () ∧
        exchanges = [⟨.wait (start + duration) spinThreshold, ()⟩]) ∨
      (Instant.limit ≤ start + duration ∧ result = .error .deadlineOverflow ∧ exchanges = [])) := by
  by_cases hlimit : start + duration < Instant.limit
  · rw [waitFor, Instant.after?, if_pos hlimit]
    show Course (ask (.wait (start + duration) spinThreshold)) s exchanges result s' ↔ _
    rw [course_ask]
    constructor
    · intro h
      obtain ⟨answer, rfl, rfl, rfl⟩ := h
      exact ⟨rfl, .inl ⟨hlimit, rfl, rfl⟩⟩
    · intro h
      obtain ⟨rfl, ⟨-, rfl, rfl⟩ | ⟨hge, -⟩⟩ := h
      · exact ⟨(), rfl, rfl, rfl⟩
      · omega
  · rw [waitFor, Instant.after?, if_neg hlimit]
    show Course (halt .deadlineOverflow) s exchanges result s' ↔ _
    rw [course_halt]
    constructor
    · intro h
      obtain ⟨rfl, rfl, rfl⟩ := h
      exact ⟨rfl, .inr ⟨Nat.le_of_not_lt hlimit, rfl, rfl⟩⟩
    · intro h
      obtain ⟨rfl, ⟨hlt, -⟩ | ⟨-, rfl, rfl⟩⟩ := h
      · exact absurd hlt hlimit
      · exact ⟨rfl, rfl, rfl⟩

/-- An action on a part of a state is one on that part, which is put back. -/
theorem course_on {part : ρ → σ} {put : ρ → σ → ρ} {action : Action σ α}
    {result : Except Halt α} {t t' : ρ} :
    Course (action.on part put) t exchanges result t' ↔
      ∃ inner, action.Course (part t) exchanges result inner ∧ t' = put t inner := by
  simp only [Course, on, Dialogue.course_bind, Dialogue.course_done]
  constructor
  · intro h
    obtain ⟨first, second, ⟨r, inner⟩, hfirst, ⟨rfl, h⟩, rfl⟩ := h
    cases h
    exact ⟨inner, by simpa using hfirst, rfl⟩
  · intro h
    obtain ⟨inner, h, rfl⟩ := h
    exact ⟨exchanges, [], (result, inner), h, ⟨rfl, rfl⟩, by simp⟩

end Action

end JtagPlayer
