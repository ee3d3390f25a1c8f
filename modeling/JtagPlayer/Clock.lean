import JtagPlayer.Duration

/-!
# Waiting on a monotone clock

A `Clock` is a source of time. Nothing is known about how far it moves while other things happen,
except that it never goes back, that a sleep lasts at least as long as asked, and that it does not
stand still forever while somebody spins on it. `Clock.waitUntil` sleeps for all but the last part
of a wait and spins for the rest; `Clock.le_now_waitUntil` says that the deadline has come when it
returns.
-/

namespace JtagPlayer

/-- A monotone source of time. -/
class Clock (τ : Type) where
  /-- The reading of the clock. -/
  now : τ → Nat
  /-- Lets the time pass that anything but a wait takes. -/
  pass : τ → τ
  /-- Sleeps for a duration. -/
  sleep : Nat → τ → τ
  /-- Spins for one round, with some time remaining to a deadline. -/
  spin : Nat → τ → τ
  /-- A bound on the number of rounds of spinning during which the reading stays the same. -/
  patience : τ → Nat
  now_le_now_pass (clock : τ) : now clock ≤ now (pass clock)
  now_add_le_now_sleep (duration : Nat) (clock : τ) :
    now clock + duration ≤ now (sleep duration clock)
  now_le_now_spin (remaining : Nat) (clock : τ) : now clock ≤ now (spin remaining clock)
  spin_progress (remaining : Nat) (clock : τ) (hremaining : 0 < remaining) :
    now clock < now (spin remaining clock) ∨ patience (spin remaining clock) < patience clock

namespace Clock

variable {τ : Type} [Clock τ]

/-- One round of a wait: a sleep for all of the remaining time but `spinThreshold`, if there is that
much, and otherwise a round of spinning. -/
def round (remaining spinThreshold : Nat) (clock : τ) : τ :=
  if spinThreshold < remaining then sleep (remaining - spinThreshold) clock
  else spin remaining clock

/-- A round that has time remaining moves the clock on, or uses up patience. -/
theorem round_progress (remaining spinThreshold : Nat) (clock : τ)
    (hremaining : 0 < remaining) :
    now clock < now (round remaining spinThreshold clock) ∨
      now clock ≤ now (round remaining spinThreshold clock) ∧
        patience (round remaining spinThreshold clock) < patience clock := by
  unfold round
  split
  · have := now_add_le_now_sleep (remaining - spinThreshold) clock
    omega
  · have := now_le_now_spin remaining clock
    have := spin_progress remaining clock hremaining
    omega

/-- Waits until the clock has reached the deadline. -/
def waitUntil (deadline : Nat) (spinThreshold : Nat) (clock : τ) : τ :=
  if _hlate : deadline ≤ now clock then clock
  else waitUntil deadline spinThreshold (round (deadline - now clock) spinThreshold clock)
termination_by (deadline - now clock, patience clock)
decreasing_by
  have := round_progress (deadline - now clock) spinThreshold clock (by omega)
  rw [Prod.lex_def]
  simp only
  omega

/-- A wait ends at its deadline or later. -/
theorem le_now_waitUntil (deadline : Nat) (spinThreshold : Nat) (clock : τ) :
    deadline ≤ now (waitUntil deadline spinThreshold clock) := by
  fun_induction waitUntil deadline spinThreshold clock with
  | case1 clock hlate => exact hlate
  | case2 clock hlate ih => exact ih

/-- A wait does not turn the clock back. -/
theorem now_le_now_waitUntil (deadline : Nat) (spinThreshold : Nat) (clock : τ) :
    now clock ≤ now (waitUntil deadline spinThreshold clock) := by
  fun_induction waitUntil deadline spinThreshold clock with
  | case1 clock hlate => exact Nat.le_refl _
  | case2 clock hlate ih =>
    have := round_progress (deadline - now clock) spinThreshold clock (by omega)
    omega

end Clock

/-- A clock that moves in waits only, and then exactly as far as it has to. -/
structure IdealClock where
  reading : Nat := 0

instance : Clock IdealClock where
  now clock := clock.reading
  pass clock := clock
  sleep duration clock := ⟨clock.reading + duration⟩
  spin remaining clock := ⟨clock.reading + remaining⟩
  patience _ := 0
  now_le_now_pass _ := Nat.le_refl _
  now_add_le_now_sleep _ _ := Nat.le_refl _
  now_le_now_spin _ _ := Nat.le_add_right _ _
  spin_progress _ _ hremaining := .inl (Nat.lt_add_of_pos_right hremaining)

end JtagPlayer
