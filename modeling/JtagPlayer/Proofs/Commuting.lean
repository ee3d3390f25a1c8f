import JtagPlayer.Bus.Simulated
import JtagPlayer.Proofs.Framing
import Mathlib.Control.Monad.Basic

/-!
# Settings commute with what does not use them

An accepted setting of a header, a trailer or an end state can change places with the instruction
behind it, if that instruction does not use the slot of the setting. The session in between is
another one, but what follows cannot tell: if the instruction ends well, the sessions after both are
the same, and if it stops the run, they differ in the setting only, which no report shows.

`Player.swap_lockstep` says so from the setting on, and `Player.executeFrom_swap` of a program that
holds the two somewhere. `Player.settings_commute` says it of whole runs, on any bus and under
either policy.
-/

namespace JtagPlayer

open JtagPlayer.Action

variable {β τ : Type} [Bus β] [Clock τ] {terms : Terms} {setting : ScanSetting}

/-- Two sessions on which the same is reported, though their settings may differ. -/
structure Session.ReportedAlike (terms : Terms) (session session' : Session) : Prop where
  tap : session.tap.Alike terms session'.tap
  report : terms.SameSamples session.report session'.report

theorem Session.Alike.reported {policy policy' : Bool} {session session' : Session}
    (h : session.Alike terms policy policy' session') : session.ReportedAlike terms session' where
  tap := h.tap
  report := h.report

/-- The same setting leaves sessions as much alike as they were. -/
theorem ScanSetting.apply_alike (setting : ScanSetting) {policy policy' : Bool}
    {session session' : Session} (h : session.Alike terms policy policy' session') :
    (setting.apply session).Alike terms policy policy' (setting.apply session') := by
  cases setting with
  | pattern name stored => exact { h with registers := congrArg (·.set name stored) h.registers }
  | endState register state =>
    cases register with
    | data => exact { h with endData := rfl }
    | instruction => exact { h with endInstruction := rfl }

namespace Lockstep

variable {α : Type} {Agrees : α → α → Prop} {Lost : α → Prop} {dialogue dialogue' : Dialogue α}

/-- Notes are not shared. -/
theorem noting_first (h : Lockstep terms Agrees Lost dialogue dialogue')
    (note? : Option LogEntry) :
    Lockstep terms Agrees Lost (dialogue.noting note?) dialogue' := by
  cases note? with
  | none => exact h
  | some entry => exact .first (c := .note _) id fun _ => h

theorem noting_second (h : Lockstep terms Agrees Lost dialogue dialogue')
    (note? : Option LogEntry) :
    Lockstep terms Agrees Lost dialogue (dialogue'.noting note?) := by
  cases note? with
  | none => exact h
  | some entry => exact .second (c := .note _) id fun _ => h

end Lockstep

namespace Player

variable {policy : Bool} {session session' : Session} {bench bench' : Bench β τ}
  {a b : Instruction} {p q : List Instruction} {slot : Slot}

theorem reportedAlike_reportsAlike :
    ReportsAlike terms (Session.ReportedAlike terms) (RunOutcome.Alike terms) where
  abandoned := .abandoned
  completed h helapsed := .completed (ofSession_alike h.tap h.report helapsed)
  stopped error _ _ _ _ h helapsed := .stopped error (ofSession_alike h.tap h.report helapsed)
  unstarted error _ _ helapsed := .stopped error ⟨rfl, rfl, fun _ => rfl, helapsed⟩

/-- A program that begins with an accepted setting goes on from the session with that setting. -/
theorem executeFrom_cons_of_setting (h : a.setting? session.registers = some setting) (index : Nat)
    (program : List Instruction) :
    executeFrom index (a :: program) session = .call (.note (.instruction a.name index)) fun _ =>
      Dialogue.noting setting.note? (executeFrom (index + 1) program (setting.apply session)) := by
  show Dialogue.call _ (fun _ => (execute a session).bind _) = _
  rw [execute_of_setting h, Dialogue.bind_noting]
  rfl

/-- What another instruction does changes nothing about a setting that it does not use. -/
theorem setting?_of_unused {exchanges : List Exchange} {result : Except Halt Unit}
    (hcourse : (execute b).Course session exchanges result session')
    (h : a.setting? session.registers = some setting) (hunused : ¬ setting.slot.IsUsedBy b) :
    a.setting? session'.registers = some setting := by
  rw [← h]
  refine Instruction.setting?_congr fun name hname => ?_
  have hslot : setting.slot = .pattern name :=
    Option.some.inj ((Instruction.slot?_of_setting h).symm.trans hname)
  rw [hslot] at hunused
  exact get_registers_of_not_isUsedBy hcourse hunused

/-- An accepted setting and an instruction that does not use it, in either order. -/
theorem swap_lockstep (hlevels : terms.sameLevels = true)
    (hsetting : a.setting? session.registers = some setting)
    (hunused : ¬ setting.slot.IsUsedBy b) (hlimit : terms.sameClock = true ∨ b.IsUnlimited)
    (hrest : terms.sameClock = true ∨ ∀ instruction ∈ q, instruction.IsUnlimited) (index : Nat)
    (halike : session.Alike terms policy policy session') :
    Lockstep terms (Ends (Session.ReportedAlike terms) fun _ _ => True) (Overflows terms)
      (executeFrom index (a :: b :: q) session) (executeFrom index (b :: a :: q) session') := by
  have hpaired : Lockstep terms
      (fun ending ending' => Ends (Session.Alike terms policy policy) (fun _ _ => True) ending
        ending' ∧ a.setting? ending.2.registers = some setting)
      (Overflows terms) (execute b session) (execute b session') :=
    (execute_paired b (fun _ => .inl ⟨hlevels, rfl⟩) hlimit halike).imp_course
      fun exchanges ending ending' hcourse hends =>
        ⟨hends, setting?_of_unused hcourse hsetting hunused⟩
  rw [executeFrom_cons_of_setting hsetting]
  refine .first (c := .note _) id fun _ => .noting_first ?_ _
  refine .first (c := .note _) id fun _ => .second (c := .note _) id fun _ => ?_
  -- The setting is carried past the instruction.
  show Lockstep terms _ _ ((execute b (setting.apply session)).bind _) ((execute b session').bind _)
  rw [execute_ignores hunused, Dialogue.bind_assoc]
  refine hpaired.bind (fun ending ending' ⟨hends, hsetting'⟩ => ?_)
    (fun ending h => overflows_followed _
      (show Overflows terms (ending.1, setting.apply ending.2) from h))
    fun _ => overflows_followed _
  cases hends with
  | @ok x x' middle middle' halike' hagrees =>
    show Lockstep terms _ _ (executeFrom (index + 1 + 1) q (setting.apply middle))
      (executeFrom (index + 1) (a :: q) middle')
    rw [executeFrom_cons_of_setting (halike'.registers ▸ hsetting')]
    refine .second (c := .note _) id fun _ => .noting_second ?_ _
    refine (executeFrom_paired (.inl ⟨hlevels, rfl⟩) q hrest (index + 2)
      (setting.apply_alike halike')).imp_course fun exchanges ending ending' hcourse hends => ?_
    cases hends with
    | ok h _ => exact .ok h.reported trivial
    | error reason h => exact .error reason h.reported
  | @error middle middle' reason halike' =>
    refine .done (.error reason ⟨?_, ?_⟩)
    · rw [ScanSetting.tap_apply]
      exact halike'.tap
    · rw [ScanSetting.report_apply]
      exact halike'.report

/-- An instruction that fills a slot and ends well makes a setting. -/
theorem setting_of_accepted (hslot : a.slot? = some slot)
    (hok : ((execute a session).play bench).1.1 = .ok ()) :
    ∃ setting, a.setting? session.registers = some setting ∧ setting.slot = slot := by
  have hcourse := Dialogue.course_transcript (execute a session) bench
  generalize ((execute a session).play bench).1 = ending at hcourse hok
  obtain ⟨result, middle⟩ := ending
  obtain rfl : result = .ok () := hok
  obtain ⟨setting, hsetting⟩ := exists_setting hcourse hslot
  exact ⟨setting, hsetting,
    Option.some.inj ((Instruction.slot?_of_setting hsetting).symm.trans hslot)⟩

/-- A program that holds a setting and an instruction that does not use it, in either order. The
setting is accepted if its turn comes. -/
theorem executeFrom_swap (hlevels : terms.sameLevels = true) (hslot : a.slot? = some slot)
    (hunused : ¬ slot.IsUsedBy b)
    (hlimit : terms.sameClock = true ∨ ∀ instruction ∈ p ++ a :: b :: q, instruction.IsUnlimited)
    (index : Nat) (halike : session.Alike terms policy policy session')
    (htwin : bench.Twin terms bench')
    (haccepted : ∀ stage ∈ (stagesFrom index (p ++ a :: b :: q) session bench)[p.length]?,
      stage.result = .ok ()) :
    PlayAlike terms (Ends (Session.ReportedAlike terms) fun _ _ => True) (Overflows terms)
      (executeFrom index (p ++ a :: b :: q) session)
      (executeFrom index (p ++ b :: a :: q) session') bench bench' := by
  -- The instructions in front keep the two sessions alike, and then the setting is swapped.
  induction p generalizing index session session' bench bench' with
  | nil =>
    obtain ⟨-, hrest⟩ := unlimited_cons.mp hlimit
    obtain ⟨hsecond, hrest⟩ := unlimited_cons.mp hrest
    obtain ⟨setting, hsetting, rfl⟩ := setting_of_accepted hslot (haccepted _ rfl)
    exact (swap_lockstep hlevels hsetting hunused hsecond hrest index halike).play_twins hlevels
      htwin
  | cons instruction p ih =>
    obtain ⟨hfirst, hrest⟩ := unlimited_cons.mp hlimit
    have htwin := htwin.after (.note (.instruction instruction.name index))
    show PlayAlike terms _ _ ((execute instruction session).bind _)
      ((execute instruction session').bind _)
      (bench.answer (.note (.instruction instruction.name index))).2
      (bench'.answer (.note (.instruction instruction.name index))).2
    generalize hannounced : (bench.answer (.note (.instruction instruction.name index))).2 =
      announced at htwin ⊢
    generalize (bench'.answer (.note (.instruction instruction.name index))).2 = announced'
      at htwin ⊢
    have hexecute := (execute_paired instruction (fun _ => .inl ⟨hlevels, rfl⟩) hfirst
      halike).play_twins hlevels htwin
    refine hexecute.bind (fun hends htwin' => ?_) (fun _ => overflows_followed _) fun _ =>
      overflows_followed _
    generalize hplayed : ((execute instruction session).play announced).1 = ending at hends ⊢
    generalize ((execute instruction session').play announced').1 = ending' at hends ⊢
    cases hends with
    | ok halike' _ =>
      rw [List.cons_append, stagesFrom_cons_of_ok hannounced hplayed, List.length_cons,
        List.getElem?_cons_succ] at haccepted
      exact ih hrest (index + 1) halike' htwin' haccepted
    | error reason halike' => exact .inl ⟨.error reason halike'.reported, rfl, htwin'⟩

/-- So it is once the bus is acquired, on benches where the setting is accepted if the device can be
reset and its turn comes. -/
theorem executeAll_swap (hlevels : terms.sameLevels = true) (config : PlayerConfig)
    (hslot : a.slot? = some slot) (hunused : ¬ slot.IsUsedBy b)
    (hlimit : terms.sameClock = true ∨ ∀ instruction ∈ p ++ a :: b :: q, instruction.IsUnlimited)
    (htwin : bench.Twin terms bench')
    (haccepted : ∀ stage ∈ (stagesAfter (p ++ a :: b :: q)
      ((onTap TapDriver.reset (.initial config)).play bench))[p.length]?, stage.result = .ok ()) :
    PlayAlike terms (Ends (Session.ReportedAlike terms) fun _ _ => True) (Overflows terms)
      (executeAll (p ++ a :: b :: q) (.initial config))
      (executeAll (p ++ b :: a :: q) (.initial config)) bench bench' := by
  have hreset : Lockstep terms (Ends (Session.Alike terms config.continueOnFault
        config.continueOnFault) fun _ _ => True) (Overflows terms)
      (onTap TapDriver.reset (.initial config)) (onTap TapDriver.reset (.initial config)) :=
    onTap_paired alike_drivesAlike TapDriver.reset_paired (initial_alike config _ _)
  refine (hreset.play_twins hlevels htwin).bind (fun hends htwin' => ?_)
    (fun _ => overflows_followed _) fun _ => overflows_followed _
  generalize hplayed : (onTap TapDriver.reset (.initial config)).play bench = ready
    at hends htwin' haccepted ⊢
  generalize (onTap TapDriver.reset (.initial config)).play bench' = ready' at hends htwin' ⊢
  obtain ⟨ending, ready⟩ := ready
  obtain ⟨ending', ready'⟩ := ready'
  cases hends with
  | ok halike _ => exact executeFrom_swap hlevels hslot hunused hlimit 0 halike htwin' haccepted
  | error reason halike => exact .inl ⟨.error reason halike.reported, rfl, htwin'⟩

/-- The bus is asked for in the same way by programs of the same length. -/
theorem acquired_congr {program program' : List Instruction}
    (hlength : program'.length = program.length) :
    acquired program' bench = acquired program bench := by
  rw [acquired, acquired, hlength]

/-- Whole runs with the two in either order. -/
theorem run_swap (hlevels : terms.sameLevels = true) (config : PlayerConfig)
    (hslot : a.slot? = some slot) (hunused : ¬ slot.IsUsedBy b)
    (hlimit : terms.sameClock = true ∨ ∀ instruction ∈ p ++ a :: b :: q, instruction.IsUnlimited)
    (htwin : bench.Twin terms bench')
    (haccepted : ∀ stage ∈ (performance config (p ++ a :: b :: q) bench).stages[p.length]?,
      stage.result = .ok ()) :
    PlayAlike terms (RunOutcome.Alike terms) (RunOutcome.Overflows terms)
      (run config (p ++ a :: b :: q)) (run config (p ++ b :: a :: q)) bench bench' := by
  have hlength : (p ++ b :: a :: q).length = (p ++ a :: b :: q).length := by simp
  have hstart : terms.sameClock = true → (bench.answer .now).1 = (bench'.answer .now).1 :=
    fun hsame => congrArg Clock.now (htwin.clock hsame)
  have hnoted := (htwin.after .now).after (.note (.executing (p ++ a :: b :: q).length))
  have hanswers : (acquired (p ++ a :: b :: q) bench).1 = (acquired (p ++ a :: b :: q) bench').1 :=
    hnoted.answer_eq (c := .acquire) id
  have hready : (acquired (p ++ a :: b :: q) bench).2.Twin terms
      (acquired (p ++ a :: b :: q) bench').2 := hnoted.after .acquire
  -- As far as the bus is acquired the runs are the same, so they are compared from there.
  have hrun := run_acquired config (p ++ a :: b :: q) bench
  have hrun' := run_acquired config (p ++ b :: a :: q) bench'
  rw [acquired_congr hlength] at hrun'
  rw [performance_acquired] at haccepted
  generalize acquired (p ++ a :: b :: q) bench = answered at *
  generalize acquired (p ++ a :: b :: q) bench' = answered' at *
  obtain ⟨answer, ready⟩ := answered
  obtain ⟨answer', ready'⟩ := answered'
  obtain rfl : answer = answer' := hanswers
  have hreports : ReportsAlike terms (Session.ReportedAlike terms) (RunOutcome.Alike terms) :=
    reportedAlike_reportsAlike
  have hacquired : PlayAlike terms (RunOutcome.Alike terms) (RunOutcome.Overflows terms)
      (runAcquired config (p ++ a :: b :: q) (bench.answer .now).1 answer)
      (runAcquired config (p ++ b :: a :: q) (bench'.answer .now).1 answer) ready ready' := by
    cases answer with
    | error error =>
      exact (refused_lockstep hreports hstart config config _ _ error).play_twins hlevels hready
    | ok u =>
      have hall := executeAll_swap hlevels config hslot hunused hlimit hready haccepted
      exact hall.bind
        (fun hends htwin' => (finish_ends hreports hstart hends).play_twins hlevels htwin')
        (fun _ => finish_of_overflows) fun _ => finish_of_overflows
  unfold PlayAlike
  rw [hrun.1, hrun.2, hrun'.1, hrun'.2, onBus_append, onBus_append, onBus_opening, onBus_opening]
  rcases hacquired with ⟨hagrees, hcalls, htwin'⟩ | hlost
  · exact .inl ⟨hagrees, congrArg _ hcalls, htwin'⟩
  · exact .inr hlost

/-- Settings take effect when they are used, and not before. Let the instruction `a` of a program
set a header, a trailer or an end state of a register, and let `b` behind it neither scan that
register nor set the same. On every bus and under either policy, if `a` is accepted or its turn
never comes, `a` and `b` can change places: the run makes the same calls on the bus and ends in the
same way, after the same number of clocks, in the same state and with the same faults. The two runs
may read the same clock or each its own, as `Comparable` says. -/
theorem settings_commute (config : PlayerConfig) (p q : List Instruction) {a b : Instruction}
    {slot : Slot} (bench : Bench β τ) (clock : τ) (hslot : a.slot? = some slot)
    (hunused : ¬ slot.IsUsedBy b)
    (haccepted : ∀ stage ∈ (performance config (p ++ a :: b :: q) bench).stages[p.length]?,
      stage.result = .ok ())
    (hcomparable : Comparable (p ++ a :: b :: q) bench.clock clock
      ((run config (p ++ a :: b :: q)).play bench).1
      ((run config (p ++ b :: a :: q)).play { bench with clock }).1) :
    let exchanges := onBus ((run config (p ++ a :: b :: q)).transcript bench)
    let exchanges' := onBus ((run config (p ++ b :: a :: q)).transcript { bench with clock })
    let outcome := ((run config (p ++ a :: b :: q)).play bench).1
    let outcome' := ((run config (p ++ b :: a :: q)).play { bench with clock }).1
    exchanges' = exchanges ∧ outcome.Alike ⟨false, true⟩ outcome' ∧
      (clock = bench.clock → outcome' = outcome) := by
  intro exchanges exchanges' outcome outcome'
  obtain ⟨terms, hlevels, hsame, hlimit, hkept, hkept'⟩ := hcomparable.exists_terms true
  have htwin : bench.Twin terms { bench with clock } := ⟨rfl, fun h => (hsame.mp h).symm⟩
  obtain ⟨hagrees, hcalls, -⟩ :=
    (run_swap hlevels config hslot hunused hlimit htwin haccepted).resolve_right
      (not_or.mpr ⟨hkept, hkept'⟩)
  exact ⟨hcalls.symm, hagrees.mono nofun fun _ => hlevels, fun heq =>
    (hagrees.eq (hsame.mpr heq) hlevels).symm⟩

/-- A trailer is set in front of a scan of the other register, which records a fault, or behind
it. -/
theorem settings_commute_trailer_and_scan :
    let bench : Bench SimulatedBus IdealClock := { bus := { answers := .invert }, clock := {} }
    let config : PlayerConfig := { continueOnFault := true }
    let p := [Instruction.setEndState .data .drPause]
    let q := [Instruction.shift .data { length := 4, tdi := some [9] } none]
    let a := Instruction.setTrailer .data { length := 3, tdi := some [5] }
    let b := Instruction.shift .instruction { length := 2, tdi := some [1], tdo := some [1] }
      (some "second")
    let outcome := ((run config (p ++ b :: a :: q)).play bench).1
    onBus ((run config (p ++ b :: a :: q)).transcript bench) =
        onBus ((run config (p ++ a :: b :: q)).transcript bench) ∧
      outcome = ((run config (p ++ a :: b :: q)).play bench).1 ∧
      outcome.report?.map (fun report => (report.finalState, report.clockPulses,
        report.faults.faults.map Fault.record)) = some (.drPause, 27, [("second", "02")]) := by
  intro bench config p q a b outcome
  have hslot : a.slot? = some (.pattern ⟨.trailer, .data⟩) := rfl
  have hunused : ¬ (Slot.pattern ⟨.trailer, .data⟩).IsUsedBy b := by decide
  have haccepted : ∀ stage ∈ (performance config (p ++ a :: b :: q) bench).stages[p.length]?,
      stage.result = .ok () := by
    decide +kernel
  obtain ⟨hcalls, -, houtcome⟩ :=
    settings_commute config p q bench bench.clock hslot hunused haccepted (.inl rfl)
  exact ⟨hcalls, houtcome rfl, by decide +kernel⟩

end Player

end JtagPlayer
