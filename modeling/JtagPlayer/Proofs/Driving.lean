import JtagPlayer.Proofs.Failure
import Mathlib.Data.List.Basic

/-!
# When and how far a run drives its lines

`lastDriven` is the level to which a line was driven last, if it was driven at all. A run drives and
samples the lines only while it holds the bus, which is `Player.RunCourse.bracketed`, and its first
clock drives every line but that of the device, `Player.RunCourse.drives`.
-/

namespace JtagPlayer

open JtagPlayer.Action

/-! ## The level of a line -/

/-- The level to which a call drives a line. -/
def Call.drives? (line : Line) : Call → Option Bool
  | .write driven level => if driven = line then some level else none
  | _ => none

/-- The level to which a line was driven last. -/
def lastDriven (line : Line) (exchanges : List Exchange) : Option Bool :=
  (exchanges.filterMap (·.call.drives? line)).getLast?

theorem lastDriven_append (line : Line) (first second : List Exchange) :
    lastDriven line (first ++ second) = (lastDriven line second).or (lastDriven line first) := by
  rw [lastDriven, List.filterMap_append, List.getLast?_append]
  rfl

theorem lastDriven_cons (line : Line) (exchange : Exchange) (rest : List Exchange) :
    lastDriven line (exchange :: rest) =
      (lastDriven line rest).or (exchange.call.drives? line) := by
  rw [← List.singleton_append, lastDriven_append]
  congr 1
  rw [lastDriven, List.filterMap_cons]
  split
  · rename_i hnone
    exact hnone.symm
  · rename_i hsome
    exact hsome.symm

/-- A line that was ever driven was driven last to some level. -/
theorem exists_lastDriven {line : Line} {level : Bool} {exchanges : List Exchange}
    {answer : Except IoError Unit} (h : ⟨.write line level, answer⟩ ∈ exchanges) :
    ∃ last, lastDriven line exchanges = some last := by
  rw [← Option.isSome_iff_exists, lastDriven, List.getLast?_isSome]
  intro hnone
  have hdrives : (Call.write line level).drives? line = none :=
    List.filterMap_eq_nil_iff.mp hnone _ h
  rw [Call.drives?, if_pos rfl] at hdrives
  cases hdrives

/-! ## Holding the bus -/

/-- Whether the bus is held after a call. -/
def Call.holds (isHeld : Bool) : Call → Bool
  | .acquire => true
  | .release => false
  | _ => isHeld

/-- Lines are driven and sampled only while the bus is held. -/
def Bracketed : Bool → List Exchange → Prop
  | _, [] => True
  | isHeld, exchange :: rest =>
    (exchange.call.IsOperation → isHeld = true) ∧ Bracketed (exchange.call.holds isHeld) rest

/-- While the bus is held lines can be driven and sampled. -/
theorem bracketed_append {inner rest : List Exchange}
    (hinner : ∀ exchange ∈ inner, exchange.call.IsQuiet ∨ exchange.call.IsOperation)
    (hrest : Bracketed true rest) : Bracketed true (inner ++ rest) := by
  induction inner with
  | nil => exact hrest
  | cons exchange inner ih =>
    obtain ⟨hfirst, hothers⟩ := List.forall_mem_cons.mp hinner
    refine ⟨fun _ => rfl, ?_⟩
    obtain ⟨c, answer⟩ := exchange
    cases c with
    | acquire | release => exact (hfirst.elim id id).elim
    | write | read | now | wait | note => exact ih hothers

/-! ## Runs -/

/-- What is said in a sequence begins with what is said in the first action. -/
theorem Action.course_bind_first {σ α γ : Type} {action : Action σ α} {f : α → Action σ γ}
    {s s' : σ} {exchanges : List Exchange} {result : Except Halt γ}
    (h : (action >>= f).Course s exchanges result s') :
    ∃ first second stopped middle, action.Course s first stopped middle ∧
      exchanges = first ++ second := by
  rcases course_bind.mp h with ⟨first, second, x, middle, hfirst, -, rfl⟩ | ⟨reason, hstop, -⟩
  · exact ⟨first, second, _, middle, hfirst, rfl⟩
  · exact ⟨exchanges, [], _, s', hstop, (List.append_nil exchanges).symm⟩

namespace TapDriver

variable {driver driver' : TapDriver} {exchanges : List Exchange}

/-- A clock that meets with no failure drives all lines, whether or not its edge is made. -/
theorem clock_drives {tms tdi : Bool} {result : Except Halt Bool}
    (h : (clock tms tdi).Course driver exchanges result driver') (hflawless : Flawless exchanges) :
    ∃ rest, exchanges = setUp tms tdi ++ rest := by
  cases clock_course h with
  | tmsFails | tdiFails | lowFails => simp [Exchange.Succeeds] at hflawless
  | overdue hdue => exact ⟨[], (List.append_nil _).symm⟩
  | riseFails | sampleFails | sampled => exact ⟨_, rfl⟩

/-- So does a reset, which begins with a clock. -/
theorem reset_drives {result : Except Halt Unit}
    (h : reset.Course driver exchanges result driver') (hflawless : Flawless exchanges) :
    ∃ rest, exchanges = setUp true false ++ rest := by
  obtain ⟨first, second, stopped, middle, hfirst, rfl⟩ := course_bind_first h
  obtain ⟨rest, rfl⟩ := clock_drives hfirst (flawless_append.mp hflawless).1
  exact ⟨rest ++ second, List.append_assoc _ _ _⟩

end TapDriver

namespace Player

variable {config : PlayerConfig} {program : List Instruction} {performance : Performance}
  {exchanges : List Exchange} {outcome : RunOutcome}

/-- A run drives and samples the lines only while it holds the bus. -/
theorem RunCourse.bracketed (h : RunCourse config program performance exchanges outcome) :
    Bracketed false exchanges := by
  rcases h.inner with ⟨start, instant, error, rfl, -⟩ |
    ⟨start, inner, closing, result, session, rfl, hfinish, hlaws⟩
  · simp [opening, Bracketed, Call.IsOperation]
  · have hclosing : Bracketed true closing := by
      cases hfinish <;> simp [Bracketed, Call.IsOperation]
    have hinner := bracketed_append (hlaws operates_obeys fun _ => List.forall_mem_nil _) hclosing
    exact ⟨False.elim, False.elim, False.elim, hinner⟩

/-- A run that meets with no failure drives every line but that of the device. -/
theorem RunCourse.drives (h : RunCourse config program performance exchanges outcome)
    (hflawless : Flawless exchanges) {line : Line} (hline : line ≠ .tdo) :
    ∃ level, lastDriven line exchanges = some level := by
  obtain ⟨before, rest, rfl⟩ : ∃ before rest,
      exchanges = before ++ (TapDriver.setUp true false ++ rest) := by
    cases h with
    | unstarted start instant error => simp [opening, Exchange.Succeeds] at hflawless
    | unready hreset _ | ready hreset _ _ =>
      obtain ⟨driver, hdriver, -⟩ := course_on.mp hreset
      simp only [flawless_append] at hflawless
      obtain ⟨rest, rfl⟩ := TapDriver.reset_drives hdriver hflawless.2.1
      exact ⟨_, _, by rw [List.append_assoc]⟩
  have hset : ∃ level, ⟨.write line level, .ok ()⟩ ∈ TapDriver.setUp true false := by
    cases line with
    | tck => exact ⟨false, by simp [TapDriver.setUp]⟩
    | tms => exact ⟨true, by simp [TapDriver.setUp]⟩
    | tdi => exact ⟨false, by simp [TapDriver.setUp]⟩
    | tdo => exact absurd rfl hline
  obtain ⟨level, hlevel⟩ := hset
  exact exists_lastDriven (List.mem_append_right _ (List.mem_append_left _ hlevel))

end Player

end JtagPlayer
