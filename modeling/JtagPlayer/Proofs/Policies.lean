import JtagPlayer.Proofs.Completion
import JtagPlayer.Proofs.Parallel

/-!
# Programs under the two policies

A program is carried out on two benches with the same bus. One session records faults, the other
stops at them. `Player.PolicyEnds` says how an instruction can end in both: alike and without a new
fault, or with one, which is what stops the second session. `Player.Parting` says the same of
programs, by induction over the stages: the two sessions part at the first stage that records a
fault, and not before.
-/

namespace JtagPlayer

open JtagPlayer.Action

variable {β β' τ : Type} [Bus β] [Bus β'] [Clock τ]

/-- Two benches with the same bus, and with the same clock if the runs on them share it. -/
structure Bench.Twin (terms : Terms) (bench bench' : Bench β τ) : Prop where
  bus : bench.bus = bench'.bus
  clock : terms.sameClock = true → bench.clock = bench'.clock

namespace Bench.Twin

variable {terms : Terms} {bench bench' : Bench β τ}

/-- The same call on both leaves them twins. -/
theorem after (h : bench.Twin terms bench') (c : Call) :
    (bench.answer c).2.Twin terms (bench'.answer c).2 where
  bus := by cases c <;> simp only [answer, h.bus]
  clock hclock := Bench.clock_answer (h.clock hclock) c

/-- The bus gives the same answers. -/
theorem answer_eq (h : bench.Twin terms bench') {c : Call} (hquiet : ¬ c.IsQuiet) :
    (bench.answer c).1 = (bench'.answer c).1 := by
  cases c with
  | acquire | write | read | release => simp only [answer, h.bus]
  | now | wait | note => exact absurd trivial hquiet

theorem of_not_shares {c : Call} (hshares : ¬ terms.Shares c) :
    (bench.answer c).2.Twin terms bench where
  bus := Bench.bus_answer (Terms.isQuiet_of_not_shares hshares)
  clock hclock := Bench.clock_answer_of_not_shares hclock hshares

omit [Bus β] [Clock τ] in
theorem trans {bench'' : Bench β τ} (h : bench.Twin terms bench') (h' : bench'.Twin terms bench'') :
    bench.Twin terms bench'' where
  bus := h.bus.trans h'.bus
  clock hclock := (h.clock hclock).trans (h'.clock hclock)

omit [Bus β] [Clock τ] in
theorem symm (h : bench.Twin terms bench') : bench'.Twin terms bench where
  bus := h.bus.symm
  clock hclock := (h.clock hclock).symm

end Bench.Twin

/-- Nothing parts two runs on twin benches. -/
def Coupling.ofTwins (terms : Terms) : Coupling terms β β τ τ where
  Holds _ bench bench' := bench.Twin terms bench'
  Breaks _ _ _ := False
  both := by
    intro met bench bench' c htwin hshares
    refine .inr ⟨?_, htwin.after c⟩
    by_cases hquiet : c.IsQuiet
    · have hclock := htwin.clock (Terms.sameClock_of_isQuiet hshares hquiet)
      exact Bench.matches_of_isQuiet hclock hquiet
    · exact htwin.answer_eq hquiet ▸ Terms.matches_self _ _
  first htwin hshares := (Bench.Twin.of_not_shares hshares).trans htwin
  second htwin hshares := htwin.trans (Bench.Twin.of_not_shares hshares).symm

/-- Two dialogues, each on its bench, make the same calls on the bus, end in agreement and leave
twins, unless one of them is lost. -/
def PlayAlike {α : Type} (terms : Terms) (Agrees : α → α → Prop) (Lost : α → Prop)
    (dialogue dialogue' : Dialogue α) (bench bench' : Bench β τ) : Prop :=
  (Agrees (dialogue.play bench).1 (dialogue'.play bench').1 ∧
    onBus (dialogue.transcript bench) = onBus (dialogue'.transcript bench') ∧
    (dialogue.play bench).2.Twin terms (dialogue'.play bench').2) ∨
  Lost (dialogue.play bench).1 ∨ Lost (dialogue'.play bench').1

/-- So it is with dialogues in lockstep on twin benches. -/
theorem Lockstep.play_twins {α : Type} {terms : Terms} {Agrees : α → α → Prop} {Lost : α → Prop}
    {dialogue dialogue' : Dialogue α} (h : Lockstep terms Agrees Lost dialogue dialogue')
    (hlevels : terms.sameLevels = true) {bench bench' : Bench β τ}
    (htwin : bench.Twin terms bench') :
    PlayAlike terms Agrees Lost dialogue dialogue' bench bench' := by
  have hmeeting : Meeting (Coupling.ofTwins terms) Agrees Lost [] (dialogue.transcript bench)
      (dialogue'.transcript bench') (dialogue.play bench) (dialogue'.play bench') := h.play htwin
  by_cases hlost : Lost (dialogue.play bench).1 ∨ Lost (dialogue'.play bench').1
  · exact .inr hlost
  · obtain ⟨hkept, hkept'⟩ := not_or.mp hlost
    rcases hmeeting.together_or_parted hkept hkept' with ⟨hagrees, halike, htwin'⟩ | hparted
    · exact .inl ⟨hagrees, halike.onBus_eq hlevels, htwin'⟩
    · obtain ⟨_, _, _, _, _, _, _, _, _, _, _, hbreaks⟩ := hparted
      exact hbreaks.elim

/-- Two dialogues that go alike are followed by two others that do so after agreeing results. A lost
dialogue has to stay lost. -/
theorem PlayAlike.bind {α γ : Type} {terms : Terms} {Agrees : α → α → Prop} {Lost : α → Prop}
    {Agrees' : γ → γ → Prop} {Lost' : γ → Prop} {dialogue dialogue' : Dialogue α}
    {f f' : α → Dialogue γ} {bench bench' : Bench β τ}
    (h : PlayAlike terms Agrees Lost dialogue dialogue' bench bench')
    (hgoesOn : Agrees (dialogue.play bench).1 (dialogue'.play bench').1 →
      (dialogue.play bench).2.Twin terms (dialogue'.play bench').2 →
        PlayAlike terms Agrees' Lost' (f (dialogue.play bench).1) (f' (dialogue'.play bench').1)
          (dialogue.play bench).2 (dialogue'.play bench').2)
    (hlost : ∀ result, Lost result → ∃ other, f result = .done other ∧ Lost' other)
    (hlost' : ∀ result, Lost result → ∃ other, f' result = .done other ∧ Lost' other) :
    PlayAlike terms Agrees' Lost' (dialogue.bind f) (dialogue'.bind f') bench bench' := by
  unfold PlayAlike
  rw [Dialogue.play_bind, Dialogue.play_bind, Dialogue.transcript_bind, Dialogue.transcript_bind,
    onBus_append, onBus_append]
  rcases h with ⟨hagrees, hcalls, htwin⟩ | hlostFirst | hlostSecond
  · rcases hgoesOn hagrees htwin with ⟨hagrees', hcalls', htwin'⟩ | hlost
    · exact .inl ⟨hagrees', by rw [hcalls, hcalls'], htwin'⟩
    · exact .inr hlost
  · obtain ⟨other, heq, hother⟩ := hlost _ hlostFirst
    rw [heq]
    exact .inr (.inl hother)
  · obtain ⟨other, heq, hother⟩ := hlost' _ hlostSecond
    rw [heq]
    exact .inr (.inr hother)

namespace Player

variable {session session' : Session} {exchanges : List Exchange}

/-- How the report of a session changes during a scan with a given label that may pass or not: it
stays as it is, or the fault that keeps the scan from passing is added. -/
inductive Judged (label : Option String) (report : FaultReport) :
    FaultReport → Except Halt Bool → Prop where
  | accepted {result : Except Halt Bool} (h : ∀ passed, result = .ok passed → passed = true) :
      Judged label report report result
  | refused {result : Except Halt Bool} (fault : Fault)
      (hlabel : fault.label = label.getD Fault.unlabeled)
      (h : ∀ passed, result = .ok passed → passed = false) :
      Judged label report (report.push fault) result

/-- After its comparison a scan is left, and what the comparison has found stands. -/
theorem compare_leave_judged {name : RegisterName} {register : Register} {label : Option String}
    {pattern : Pattern} {observed : List UInt8} {result : Except Halt Bool}
    (h : Course (do
        let passed ← compare name label pattern observed
        leaveScan register
        Pure.pure passed) session exchanges result session') :
    Judged label session.report session'.report result := by
  rcases course_bind.mp h with ⟨_, _, passed, judged, hcompare, hrest, -⟩ | ⟨reason, hcompare, -⟩
  · obtain ⟨-, hpassed, rfl⟩ := compare_course hcompare
    cases hpassed
    have hresult : session'.report =
          (judge label pattern observed session).report ∧
        ∀ passed, result = .ok passed → passed = pattern.accepts observed := by
      rcases course_bind.mp hrest with ⟨_, _, _, left, hleave, hdone, -⟩ | ⟨reason, hleave, rfl⟩
      · obtain ⟨-, rfl, rfl⟩ := course_pure.mp hdone
        exact ⟨leaveScan_upholds keepsReport_obeys _ hleave, fun _ hok => (Except.ok.inj hok).symm⟩
      · exact ⟨leaveScan_upholds keepsReport_obeys _ hleave, nofun⟩
    obtain ⟨hreport, hpassed⟩ := hresult
    rw [hreport, judge]
    split
    · rename_i haccepts
      exact .accepted fun passed hok => (hpassed passed hok).trans haccepts
    · rename_i haccepts
      exact .refused _ rfl fun passed hok =>
        (hpassed passed hok).trans (Bool.eq_false_iff.mpr haccepts)
  · obtain ⟨-, hresult, -⟩ := compare_course hcompare
    cases hresult

/-- A scan adds no fault to the report, or the one that keeps it from passing. -/
theorem probe_judged {register : Register} {delta : Pattern} {label : Option String}
    {result : Except Halt Bool}
    (h : (probe register delta label).Course session exchanges result session') :
    Judged label session.report session'.report result := by
  have hkeeps := keepsReport_obeys
  rcases course_bind.mp h with ⟨_, _, _, updated, hupdate, hrest, -⟩ | ⟨reason, hupdate, rfl⟩
  · have hupdated : updated.report = session.report := update_upholds hkeeps _ _ hupdate
    rcases course_bind.mp hrest with ⟨_, _, _, routed, hroute, hrest, -⟩ | ⟨reason, hroute, rfl⟩
    · have hrouted : routed.report = updated.report := routeTo_upholds hkeeps _ hroute
      rcases course_bind.mp (course_get_bind.mp hrest) with
        ⟨_, _, samples, shifted, hshift, hrest, -⟩ | ⟨reason, hshift, rfl⟩
      · obtain ⟨driver, -, rfl⟩ := onTap_course.mp hshift
        have hjudged := compare_leave_judged hrest
        rw [← hupdated, ← hrouted]
        exact hjudged
      · obtain ⟨driver, -, rfl⟩ := onTap_course.mp hshift
        rw [← hupdated, ← hrouted]
        exact .accepted nofun
    · have hrouted : session'.report = updated.report := routeTo_upholds hkeeps _ hroute
      rw [← hupdated, hrouted]
      exact .accepted nofun
  · have hupdated : session'.report = session.report := update_upholds hkeeps _ _ hupdate
    rw [hupdated]
    exact .accepted nofun

/-- How the end of an instruction under a policy that records faults goes with its end under one
that stops at them: nothing was recorded and they agree, or one fault was, which stops the second
unless both have been stopped by something else. -/
inductive PolicyEnds (terms : Terms) (report : FaultReport)
    (ending ending' : Except Halt Unit × Session) : Prop where
  | agree (hends : Ends (Session.Alike terms true false) (fun _ _ => True) ending ending')
      (hreport : ending.2.report = report)
  | differ (fault : Fault) (halike : ending.2.Alike terms true false ending'.2)
      (hreport : ending.2.report = report.push fault)
      (hresult : (ending.1 = .ok () ∧ ending'.1 = .error (.failed (.verification fault.label))) ∨
        ∃ reason, ending.1 = .error reason ∧ ending'.1 = .error reason)

variable {terms : Terms} {bench bench' : Bench β τ}

/-- The conclusion of a scan says nothing. -/
theorem conclude_eq (passed : Bool) (label : Option String) (session : Session) :
    conclude passed label session = .done (verdict session passed label, session) := by
  show (if _ then _ else _ : Action Session Unit) session = _
  unfold verdict
  split <;> rfl

/-- A scan that is concluded under the two policies. -/
theorem policyEnds_of_judged {label : Option String} {report : FaultReport}
    (halike : session.Alike terms true false session') {passed : Bool}
    (hjudged : Judged label report session.report (.ok passed)) :
    PolicyEnds terms report (verdict session passed label, session)
      (verdict session' passed label, session') := by
  rw [verdict, halike.policy, Bool.or_true, verdict, halike.policy', Bool.or_false]
  generalize hreport : session.report = report' at hjudged
  cases hjudged with
  | accepted h =>
    rw [h passed rfl]
    exact .agree (.ok halike trivial) hreport
  | refused fault hlabel h =>
    rw [h passed rfl, ← hlabel]
    exact .differ fault halike hreport (.inl ⟨rfl, rfl⟩)

/-- A scan that did not come to its conclusion. -/
theorem policyEnds_of_stopped {label : Option String} {report : FaultReport} {reason : Halt}
    (halike : session.Alike terms true false session')
    (hjudged : Judged label report session.report (.error reason)) :
    PolicyEnds terms report (.error reason, session) (.error reason, session') := by
  generalize hreport : session.report = report' at hjudged
  cases hjudged with
  | accepted h => exact .agree (.error reason halike) hreport
  | refused fault hlabel h => exact .differ fault halike hreport (.inr ⟨reason, rfl, rfl⟩)

/-- An action that overflows keeps what was to follow from beginning. -/
theorem overflows_bind {α γ : Type} {action : Action Session α} {f : α → Action Session γ}
    (h : Overflows terms ((action session).play bench).1) :
    Overflows terms (((action >>= f) session).play bench).1 := by
  generalize hplayed : ((action session).play bench).1 = ending at h
  obtain ⟨result, middle⟩ := ending
  obtain ⟨hclock, hoverflow⟩ := h
  cases hoverflow
  rw [play_bind_of_error hplayed]
  exact ⟨hclock, rfl⟩

/-- A scan under the two policies. -/
theorem scan_policies (hlevels : terms.sameLevels = true) (register : Register) (delta : Pattern)
    (label : Option String) (halike : session.Alike terms true false session')
    (htwin : bench.Twin terms bench') :
    PlayAlike terms (PolicyEnds terms session.report) (Overflows terms)
      (scan register delta label session) (scan register delta label session') bench bench' := by
  have hcourse := Dialogue.course_transcript (probe register delta label session) bench
  rw [scan_eq_probe]
  rcases (probe_paired register delta label halike).play_twins hlevels htwin with
    ⟨hends, hcalls, htwin'⟩ | hlost
  · refine .inl ?_
    generalize hplayed : ((probe register delta label session).play bench).1 = ending at hends
    generalize hplayed' : ((probe register delta label session').play bench').1 = ending' at hends
    rw [hplayed] at hcourse
    cases hends with
    | error reason hprobed =>
      rw [play_bind_of_error hplayed, play_bind_of_error hplayed',
        transcript_bind_of_error hplayed, transcript_bind_of_error hplayed']
      exact ⟨policyEnds_of_stopped hprobed (probe_judged hcourse), hcalls, htwin'⟩
    | ok hprobed hpassed =>
      obtain rfl := hpassed hlevels
      rw [play_bind_of_ok hplayed, play_bind_of_ok hplayed', transcript_bind_of_ok hplayed,
        transcript_bind_of_ok hplayed', conclude_eq, conclude_eq, onBus_append, onBus_append,
        hcalls]
      exact ⟨policyEnds_of_judged hprobed (probe_judged hcourse), rfl, htwin'⟩
  · exact .inr (hlost.imp overflows_bind overflows_bind)

/-- An instruction under the two policies. -/
theorem execute_policies (hlevels : terms.sameLevels = true) (instruction : Instruction)
    (hlimit : terms.sameClock = true ∨ instruction.IsUnlimited)
    (halike : session.Alike terms true false session') (htwin : bench.Twin terms bench') :
    PlayAlike terms (PolicyEnds terms session.report) (Overflows terms)
      (execute instruction session) (execute instruction session') bench bench' := by
  by_cases hscan : instruction.IsScan
  · cases instruction with
    | shift register delta label => exact scan_policies hlevels register delta label halike htwin
    | _ => exact hscan.elim
  · have hpaired := execute_paired instruction (fun h => absurd h hscan) hlimit halike
    rcases hpaired.play_twins hlevels htwin with ⟨hends, hcalls, htwin'⟩ | hlost
    · refine .inl ⟨.agree hends ?_, hcalls, htwin'⟩
      refine report_eq (Dialogue.course_transcript _ bench) ?_
      rintro register delta label rfl
      exact hscan trivial
    · exact .inr hlost

/-- How a program goes under the two policies. Either no fault is recorded and all goes the same
way, or the second run ends with the stage of the first one that records a fault first, and reports
that one. -/
inductive Parting (terms : Terms) (index : Nat) (report : FaultReport) (stages : List Stage)
    (exchanges' : List Exchange) (played played' : (Except Halt Unit × Session) × Bench β τ) :
    Prop where
  | agree (hends : Ends (Session.Alike terms true false) (fun _ _ => True) played.1 played'.1)
      (hreport : played.1.2.report = report)
      (hcalls : onBus exchanges' = onBus (said index stages))
      (htwin : played.2.Twin terms played'.2)
  | differ {early later : List Stage} {stage : Stage} {fault : Fault}
      (hstages : stages = early ++ stage :: later) (hbefore : stage.before.report = report)
      (hafter : stage.after.report = report.push fault)
      (hfaults : stage.after.report.faults <+: played.1.2.report.faults)
      (halike : stage.after.Alike terms true false played'.1.2)
      (hcalls : onBus exchanges' = onBus (said index (early ++ [stage])))
      (hresult : stage.result = .ok () →
        played'.1.1 = .error (.failed (.verification fault.label)))
  | lost (h : Overflows terms played.1 ∨ Overflows terms played'.1)

omit [Bus β] [Clock τ] in
/-- What a further stage at the front changes. -/
theorem Parting.cons {index : Nat} {report : FaultReport} {stages : List Stage} {stage : Stage}
    {exchanges' first' : List Exchange}
    {played played' : (Except Halt Unit × Session) × Bench β τ}
    (hcalls : onBus first' = onBus stage.exchanges)
    (h : Parting terms (index + 1) report stages exchanges' played played') :
    Parting terms index report (stage :: stages)
      (announcement index stage.instruction :: (first' ++ exchanges')) played played' := by
  have hsaid : ∀ stages : List Stage, onBus exchanges' = onBus (said (index + 1) stages) →
      onBus (announcement index stage.instruction :: (first' ++ exchanges')) =
        onBus (said index (stage :: stages)) := fun stages hrest => by
    show onBus (first' ++ exchanges') = onBus (stage.exchanges ++ said (index + 1) stages)
    rw [onBus_append, onBus_append, hcalls, hrest]
  cases h with
  | agree hends hreport hrest htwin => exact .agree hends hreport (hsaid stages hrest) htwin
  | @differ early later last fault hstages hbefore hafter hfaults halike hrest hresult =>
    have hstages' : stage :: stages = (stage :: early) ++ last :: later := by
      rw [hstages, List.cons_append]
    exact .differ hstages' hbefore hafter hfaults halike (hsaid _ hrest) hresult
  | lost h => exact .lost h

/-- A stage on its own, and another run that makes the same calls during it. -/
theorem onBus_said_singleton {index : Nat} {stage : Stage} {exchanges' : List Exchange}
    (hcalls : onBus stage.exchanges = onBus exchanges') :
    onBus (announcement index stage.instruction :: exchanges') = onBus (said index [stage]) := by
  show onBus exchanges' = onBus (stage.exchanges ++ [])
  rw [List.append_nil, hcalls]

/-- The first instruction of a program is announced, carried out and followed by the others. -/
theorem executeFrom_cons (index : Nat) (instruction : Instruction) (program : List Instruction)
    (session : Session) (bench : Bench β τ) :
    let announced := (bench.answer (.note (.instruction instruction.name index))).2
    let rest := (execute instruction >>= fun _ => executeFrom (index + 1) program) session
    (executeFrom index (instruction :: program) session).play bench = rest.play announced ∧
      (executeFrom index (instruction :: program) session).transcript bench =
        announcement index instruction :: rest.transcript announced :=
  ⟨rfl, rfl⟩

/-- The stages begin with that instruction, and go on if it ends well. -/
theorem stagesFrom_cons_of_ok {index : Nat} {instruction : Instruction}
    {program : List Instruction} {session middle : Session} {bench announced : Bench β τ}
    (hannounced : (bench.answer (.note (.instruction instruction.name index))).2 = announced)
    (h : ((execute instruction session).play announced).1 = (.ok (), middle)) :
    stagesFrom index (instruction :: program) session bench =
      ⟨instruction, session, (execute instruction session).transcript announced, .ok (), middle⟩ ::
        stagesFrom (index + 1) program middle ((execute instruction session).play announced).2 := by
  rw [stagesFrom]
  simp only [hannounced, h]

theorem stagesFrom_cons_of_error {index : Nat} {instruction : Instruction}
    {program : List Instruction} {session middle : Session} {reason : Halt}
    {bench announced : Bench β τ}
    (hannounced : (bench.answer (.note (.instruction instruction.name index))).2 = announced)
    (h : ((execute instruction session).play announced).1 = (.error reason, middle)) :
    stagesFrom index (instruction :: program) session bench =
      [⟨instruction, session, (execute instruction session).transcript announced, .error reason,
        middle⟩] := by
  rw [stagesFrom]
  simp only [hannounced, h]

/-- Faults are never taken back. -/
theorem faults_prefix_executeFrom (index : Nat) (program : List Instruction) (session : Session)
    (bench : Bench β τ) :
    session.report.faults <+: ((executeFrom index program session).play bench).1.2.report.faults :=
  let device : Device := { state := session.tap.state }
  have hdevice : device.state = session.tap.state := rfl
  ⟨_, ((stagesFrom_unfolds index program session bench).1.faults_eq hdevice).symm⟩

/-- A program under the two policies. -/
theorem executeFrom_parting (hlevels : terms.sameLevels = true) (program : List Instruction)
    (hlimit : terms.sameClock = true ∨ ∀ instruction ∈ program, instruction.IsUnlimited)
    (index : Nat) (halike : session.Alike terms true false session')
    (htwin : bench.Twin terms bench') :
    Parting terms index session.report (stagesFrom index program session bench)
      ((executeFrom index program session').transcript bench')
      ((executeFrom index program session).play bench)
      ((executeFrom index program session').play bench') := by
  induction program generalizing index session session' bench bench' with
  | nil => exact .agree (.ok halike trivial) rfl rfl htwin
  | cons instruction program ih =>
    obtain ⟨hfirst, hrest⟩ := unlimited_cons.mp hlimit
    rw [(executeFrom_cons index instruction program session bench).1,
      (executeFrom_cons index instruction program session' bench').1,
      (executeFrom_cons index instruction program session' bench').2]
    have htwin := htwin.after (.note (.instruction instruction.name index))
    generalize hannounced : (bench.answer (.note (.instruction instruction.name index))).2 =
      announced at htwin ⊢
    generalize (bench'.answer (.note (.instruction instruction.name index))).2 = announced'
      at htwin ⊢
    rcases execute_policies hlevels instruction hfirst halike htwin with
      ⟨hends, hcalls, htwin'⟩ | hlost
    · generalize hplayed : ((execute instruction session).play announced).1 = ending at hends
      generalize hplayed' : ((execute instruction session').play announced').1 = ending' at hends
      -- Where the ends agree the rest follows by induction. Where they differ the runs part for
      -- good.
      cases hends with
      | agree hends hreport =>
        cases hends with
        | ok halike' _ =>
          rw [play_bind_of_ok hplayed, play_bind_of_ok hplayed', transcript_bind_of_ok hplayed',
            stagesFrom_cons_of_ok hannounced hplayed]
          have hparting := ih hrest (index + 1) halike' htwin'
          rw [hreport] at hparting
          exact .cons hcalls.symm hparting
        | error reason halike' =>
          rw [play_bind_of_error hplayed, play_bind_of_error hplayed',
            transcript_bind_of_error hplayed', stagesFrom_cons_of_error hannounced hplayed]
          exact .agree (.error reason halike') hreport (onBus_said_singleton hcalls) htwin'
      | differ fault halike' hreport hresult =>
        obtain ⟨result, middle⟩ := ending
        obtain ⟨result', middle'⟩ := ending'
        rcases hresult with ⟨⟨⟩, ⟨⟩⟩ | ⟨reason, ⟨⟩, ⟨⟩⟩
        · rw [play_bind_of_ok hplayed, play_bind_of_error hplayed',
            transcript_bind_of_error hplayed', stagesFrom_cons_of_ok hannounced hplayed]
          exact .differ (List.nil_append _).symm rfl hreport
            (faults_prefix_executeFrom (index + 1) program middle _) halike'
            (onBus_said_singleton hcalls) fun _ => rfl
        · rw [play_bind_of_error hplayed, play_bind_of_error hplayed',
            transcript_bind_of_error hplayed', stagesFrom_cons_of_error hannounced hplayed]
          exact .differ (List.nil_append _).symm rfl hreport List.prefix_rfl halike'
            (onBus_said_singleton hcalls) nofun
    · exact .lost (hlost.imp overflows_bind overflows_bind)

end Player

end JtagPlayer
