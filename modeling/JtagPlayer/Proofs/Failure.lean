import JtagPlayer.Proofs.Tracking

/-!
# Where a failing operation leaves a run

No failure of the bus is passed over or tried again: whatever a player does ends with the first
operation that fails, and stops for that reason. This is the law `TapDriver.cut`. So a run in which
an operation fails has only written and read until then, releases the bus right after it and reports
the failure, as `Player.RunCourse.ends_at_failure` says.
-/

namespace JtagPlayer

open JtagPlayer.Action

/-- Calls that drive or sample a line. -/
def Call.IsOperation : Call → Prop
  | .write _ _ | .read _ => True
  | _ => False

/-- The error of a failed operation on the bus. -/
def Exchange.failure? : Exchange → Option IoError
  | ⟨.acquire, .error error⟩ => some error
  | ⟨.write _ _, .error error⟩ => some error
  | ⟨.read _, .error error⟩ => some error
  | _ => none

/-- An exchange succeeds just if there is no error in it. -/
theorem Exchange.succeeds_iff {exchange : Exchange} :
    exchange.Succeeds ↔ exchange.failure? = none := by
  obtain ⟨c, answer⟩ := exchange
  cases c with
  | acquire | write | read => cases answer <;> simp [Exchange.Succeeds, Exchange.failure?]
  | release | now | wait | note => simp [Exchange.Succeeds, Exchange.failure?]

theorem Exchange.not_succeeds_of_failure {exchange : Exchange} {error : IoError}
    (h : exchange.failure? = some error) : ¬ exchange.Succeeds := by
  rw [Exchange.succeeds_iff, h]
  exact nofun

/-- A failed operation makes no edge. -/
theorem Lines.edges_cons_of_failure (lines : Lines) {failing : Exchange} {error : IoError}
    (h : failing.failure? = some error) (rest : List Exchange) :
    lines.edges (failing :: rest) = lines.edges rest := by
  obtain ⟨c, answer⟩ := failing
  cases c with
  | write line level =>
    cases answer with
    | error error => simp [edges, rises, after]
    | ok u => cases h
  | _ =>
    refine edges_cons_of_isIdle lines ?_ rest
    trivial

/-- There is only one way to tell what comes before the first failure. -/
theorem first_failure_unique {before before' rest rest' : List Exchange}
    {failing failing' : Exchange} (h : before ++ failing :: rest = before' ++ failing' :: rest')
    (hbefore : Flawless before) (hbefore' : Flawless before') (hfails : ¬ failing.Succeeds)
    (hfails' : ¬ failing'.Succeeds) : before = before' ∧ failing = failing' ∧ rest = rest' := by
  induction before generalizing before' with
  | nil =>
    cases before' with
    | nil =>
      cases h
      exact ⟨rfl, rfl, rfl⟩
    | cons exchange before' =>
      cases h
      exact absurd (flawless_cons.mp hbefore').1 hfails
  | cons exchange before ih =>
    cases before' with
    | nil =>
      cases h
      exact absurd (flawless_cons.mp hbefore).1 hfails'
    | cons exchange' before' =>
      obtain ⟨rfl, hrest⟩ := List.cons.inj h
      obtain ⟨rfl, hsame⟩ := ih hrest (flawless_cons.mp hbefore).2 (flawless_cons.mp hbefore').2
      exact ⟨rfl, hsame⟩

/-- The failure of the last operation is what stopped an action. -/
inductive Cut : List Exchange → Option Halt → Prop where
  | intro {before : List Exchange} {failing : Exchange} {error : IoError}
      (hbefore : Flawless before) (hfailure : failing.failure? = some error) :
      Cut (before ++ [failing]) (some (.failed (.hardware error)))

/-- What succeeded before does not change how an action was cut off. -/
theorem Cut.append {first second : List Exchange} {reason : Option Halt} (hfirst : Flawless first)
    (h : Cut second reason) : Cut (first ++ second) reason := by
  obtain ⟨hbefore, hfailure⟩ := h
  rw [← List.append_assoc]
  exact .intro (flawless_append.mpr ⟨hfirst, hbefore⟩) hfailure

namespace TapDriver

/-- No operation on the bus fails, or the first that does is the end. -/
def cut : Law TapDriver := fun _ exchanges reason _ => Flawless exchanges ∨ Cut exchanges reason

theorem flawless_setUp (tms tdi : Bool) : Flawless (setUp tms tdi) := by
  simp [setUp, Exchange.Succeeds]

/-- The six operations of a clock are made in order up to the first one that fails. -/
theorem clock_cut (tms tdi : Bool) : (clock tms tdi).Upholds cut := by
  intro driver exchanges result driver' hcourse
  have hset := flawless_setUp tms tdi
  have hpause := flawless_pause driver
  have hlast : ∀ (c : Call) (answer : c.Answer) (error : IoError),
      Exchange.failure? ⟨c, answer⟩ = some error →
      Cut [⟨c, answer⟩] (some (.failed (.hardware error))) :=
    fun c answer error hfailure => Cut.intro flawless_nil hfailure
  cases clock_course hcourse with
  | tmsFails error => exact .inr (hlast (.write .tms tms) _ error rfl)
  | tdiFails error =>
    have htms : Flawless [⟨.write .tms tms, .ok ()⟩] := by simp [Exchange.Succeeds]
    exact .inr (.append htms (hlast (.write .tdi tdi) _ error rfl))
  | lowFails error =>
    have hlevels : Flawless [⟨.write .tms tms, .ok ()⟩, ⟨.write .tdi tdi, .ok ()⟩] := by
      simp [Exchange.Succeeds]
    exact .inr (.append hlevels (hlast (.write .tck false) _ error rfl))
  | overdue hdue => exact .inl hset
  | riseFails error hdue =>
    exact .inr (.append hset (.append hpause (hlast (.write .tck true) _ error rfl)))
  | sampleFails instant error hdue =>
    have hrise : Flawless [⟨.write .tck true, .ok ()⟩, ⟨.now, instant⟩] := by
      simp [Exchange.Succeeds]
    exact .inr (.append hset (.append hpause (.append hrise (hlast (.read .tdo) _ error rfl))))
  | sampled instant level hdue =>
    refine .inl (flawless_append.mpr ⟨hset, flawless_append.mpr ⟨hpause, ?_⟩⟩)
    simp [Exchange.Succeeds]

/-- An action of many clocks is cut off in the clock that fails, since nothing follows that one. -/
theorem cut_obeys : Obeys cut where
  refl _ := .inl flawless_nil
  fail _ _ := .inl flawless_nil
  quiet _ c answer hquiet :=
    .inl (flawless_cons.mpr ⟨Exchange.succeeds_of_isQuiet hquiet, flawless_nil⟩)
  trans := by
    intro driver middle driver' first second reason hfirst hsecond
    rcases hfirst with hfirst | hcut
    · rcases hsecond with hsecond | hcut
      · exact .inl (flawless_append.mpr ⟨hfirst, hsecond⟩)
      · exact .inr (hcut.append hfirst)
    · cases hcut
  clock := clock_cut

/-- What ends well has met with no failure. -/
theorem flawless_of_ok {α : Type} {action : Action TapDriver α} (haction : action.Upholds cut)
    {driver driver' : TapDriver} {exchanges : List Exchange} {x : α}
    (h : action.Course driver exchanges (.ok x) driver') : Flawless exchanges :=
  (haction h).resolve_right nofun

/-- The bus is only written to and read from. -/
def operates : Law TapDriver := fun _ exchanges _ _ =>
  ∀ exchange ∈ exchanges, exchange.call.IsQuiet ∨ exchange.call.IsOperation

theorem clock_operates (tms tdi : Bool) : (clock tms tdi).Upholds operates := by
  intro driver exchanges result driver' hcourse
  have hpause : ∀ exchange ∈ driver.pause, exchange.call.IsQuiet ∨ exchange.call.IsOperation :=
    fun exchange hmem => .inl (driver.isQuiet_of_mem_pause exchange hmem)
  cases clock_course hcourse with
  | tmsFails | tdiFails | lowFails | overdue => simp [operates, setUp, Call.IsOperation]
  | riseFails | sampleFails | sampled =>
    simp only [operates, setUp, List.forall_mem_append]
    refine ⟨?_, hpause, ?_⟩ <;> simp [Call.IsQuiet, Call.IsOperation]

theorem operates_obeys : Obeys operates where
  refl _ := List.forall_mem_nil _
  fail _ _ := List.forall_mem_nil _
  quiet _ _ _ hquiet := List.forall_mem_singleton.mpr (.inl hquiet)
  trans hfirst hsecond := List.forall_mem_append.mpr ⟨hfirst, hsecond⟩
  clock := clock_operates

end TapDriver

namespace Player

variable {config : PlayerConfig} {program : List Instruction} {performance : Performance}
  {exchanges : List Exchange} {outcome : RunOutcome}

/-- The laws for the driver of a session. -/
theorem cut_obeys : Obeys (lawOfTap TapDriver.cut) :=
  Obeys.ofTap TapDriver.cut_obeys fun _ _ => .inl flawless_nil

theorem operates_obeys : Obeys (lawOfTap TapDriver.operates) :=
  Obeys.ofTap TapDriver.operates_obeys fun _ _ => List.forall_mem_nil _

/-- A run cannot acquire the bus, or everything between its opening and its end obeys all laws. -/
theorem RunCourse.inner (h : RunCourse config program performance exchanges outcome) :
    (∃ start instant error, exchanges = opening program start (.error error) ++
        [⟨.note (.notInitialized error), ()⟩, ⟨.now, instant⟩] ∧
      outcome = .stopped (.hardware error) (.unstarted (instant - start))) ∨
    ∃ start inner closing result session,
      exchanges = opening program start (.ok ()) ++ (inner ++ closing) ∧
      Finish start session result closing outcome ∧
      ∀ {law : Law Session}, Obeys law →
        (∀ session, law session [] (some .deadlineOverflow) session) →
          law (.initial config) inner (reason? result) session := by
  cases h with
  | unstarted start instant error => exact .inl ⟨start, instant, error, rfl, rfl⟩
  | unready hreset hfinish =>
    exact .inr ⟨_, _, _, _, _, rfl, hfinish, fun hlaw _ =>
      onTap_upholds (TapDriver.reset_upholds hlaw.onTap) hreset⟩
  | ready hreset hstages hfinish =>
    refine .inr ⟨_, _, _, _, _, by rw [List.append_assoc], hfinish, fun hlaw hoverflow => ?_⟩
    exact hlaw.trans (onTap_upholds (TapDriver.reset_upholds hlaw.onTap) hreset)
      (hstages.upholds hlaw hoverflow 0)

/-- Nothing fails before the first instruction if the bus was acquired. -/
theorem flawless_opening (program : List Instruction) (start : Nat) :
    Flawless (opening program start (.ok ())) := by
  simp [opening, Exchange.Succeeds]

theorem Finish.flawless {start : Nat} {session : Session} {result : Except Halt Unit}
    (h : Finish start session result exchanges outcome) : Flawless exchanges := by
  cases h <;> simp [Exchange.Succeeds]

/-- A run that has acquired the bus writes and reads until an operation fails, releases the bus
right after it and reports its error. -/
theorem RunCourse.ends_at_failure {before rest : List Exchange} {failing : Exchange}
    (h : RunCourse config program performance (before ++ failing :: rest) outcome)
    (hbefore : Flawless before) {error : IoError} (hfailure : failing.failure? = some error)
    (hacquired : failing.call ≠ .acquire) :
    ∃ start inner instant report, before = opening program start (.ok ()) ++ inner ∧
      (∀ exchange ∈ inner, exchange.call.IsQuiet ∨ exchange.call.IsOperation) ∧
      rest = [⟨.release, ()⟩, ⟨.now, instant⟩, ⟨.note (.stopped (.hardware error)), ()⟩] ∧
      outcome = .stopped (.hardware error) report := by
  have hfails := Exchange.not_succeeds_of_failure hfailure
  rcases h.inner with ⟨start, instant, refusal, hexchanges, -⟩ |
    ⟨start, inner, closing, result, session, hexchanges, hfinish, hlaws⟩
  · have hopening : before ++ failing :: rest =
        [⟨.now, start⟩, ⟨.note (.executing program.length), ()⟩] ++
          (⟨.acquire, .error refusal⟩ : Exchange) ::
            [⟨.note (.notInitialized refusal), ()⟩, ⟨.now, instant⟩] := hexchanges
    obtain ⟨-, rfl, -⟩ := first_failure_unique hopening hbefore (by simp [Exchange.Succeeds])
      hfails id
    exact absurd rfl hacquired
  · have hoperates := hlaws operates_obeys fun _ => List.forall_mem_nil _
    have hcut := hlaws cut_obeys fun _ => .inl flawless_nil
    generalize hreason : reason? result = reason at hcut
    rcases hcut with hinner | @⟨inner, failing', error', hinner, hfailure'⟩
    · have hall : Flawless (before ++ failing :: rest) := by
        rw [hexchanges]
        exact flawless_append.mpr ⟨flawless_opening program start,
          flawless_append.mpr ⟨hinner, hfinish.flawless⟩⟩
      exact absurd (flawless_cons.mp (flawless_append.mp hall).2).1 hfails
    · have hsplit : before ++ failing :: rest =
          (opening program start (.ok ()) ++ inner) ++ failing' :: closing := by
        rw [hexchanges]
        simp
      obtain ⟨rfl, rfl, rfl⟩ := first_failure_unique hsplit hbefore
        (flawless_append.mpr ⟨flawless_opening program start, hinner⟩) hfails
        (Exchange.not_succeeds_of_failure hfailure')
      obtain rfl : error = error' := Option.some.inj (hfailure.symm.trans hfailure')
      cases hfinish with
      | stopped other instant =>
        cases hreason
        exact ⟨start, inner, instant, _, rfl, fun exchange hmem =>
          hoperates exchange (List.mem_append_left _ hmem), rfl, rfl⟩
      | completed instant => cases hreason
      | abandoned => cases hreason

end Player

end JtagPlayer
