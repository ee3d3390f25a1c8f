import JtagPlayer.Proofs.Law

/-!
# Runs by stages

A `Player.Stage` is one instruction of a run: the sessions before and after it, what was said
meanwhile, and how it ended. `Player.performance` is the series of stages that a run goes through on
a bench, together with what was said before the first of them.

`Player.run_course` says what a run consists of besides its stages, and `Player.Unfolds` says how
the stages hang together; whatever is proved of a run is proved by induction on it. An example is
`Player.Unfolds.upholds`, which extends a law from instructions to programs.
-/

namespace JtagPlayer

open JtagPlayer.Action

namespace Action

variable {σ α γ β τ : Type} [Bus β] [Clock τ]

/-- Two actions in sequence on a bench, where the first one ends well. -/
theorem play_bind_of_ok {action : Action σ α} {f : α → Action σ γ} {s middle : σ} {x : α}
    {bench : Bench β τ} (h : ((action s).play bench).1 = (.ok x, middle)) :
    ((action >>= f) s).play bench = (f x middle).play ((action s).play bench).2 := by
  show ((action s).bind _).play bench = _
  rw [Dialogue.play_bind, h]

theorem transcript_bind_of_ok {action : Action σ α} {f : α → Action σ γ} {s middle : σ} {x : α}
    {bench : Bench β τ} (h : ((action s).play bench).1 = (.ok x, middle)) :
    ((action >>= f) s).transcript bench =
      (action s).transcript bench ++ (f x middle).transcript ((action s).play bench).2 := by
  show ((action s).bind _).transcript bench = _
  rw [Dialogue.transcript_bind, h]

/-- Two actions in sequence on a bench, where the first one stops. -/
theorem play_bind_of_error {action : Action σ α} {f : α → Action σ γ} {s middle : σ}
    {reason : Halt} {bench : Bench β τ}
    (h : ((action s).play bench).1 = (.error reason, middle)) :
    ((action >>= f) s).play bench = ((.error reason, middle), ((action s).play bench).2) := by
  show ((action s).bind _).play bench = _
  rw [Dialogue.play_bind, h]
  rfl

theorem transcript_bind_of_error {action : Action σ α} {f : α → Action σ γ} {s middle : σ}
    {reason : Halt} {bench : Bench β τ}
    (h : ((action s).play bench).1 = (.error reason, middle)) :
    ((action >>= f) s).transcript bench = (action s).transcript bench := by
  show ((action s).bind _).transcript bench = _
  rw [Dialogue.transcript_bind, h]
  exact List.append_nil _

end Action

namespace Player

/-- One instruction of a run: the sessions before and after it, what was said meanwhile, and how it
ended. -/
structure Stage where
  instruction : Instruction
  before : Session
  exchanges : List Exchange
  result : Except Halt Unit
  after : Session

/-- `Unfolds program session stages result session'` says that the instructions of a program can go
one after the other as in `stages`, each from where the one before it ended, until all are carried
out or one of them stops. -/
inductive Unfolds :
    List Instruction → Session → List Stage → Except Halt Unit → Session → Prop where
  | done (session : Session) : Unfolds [] session [] (.ok ()) session
  | stops {instruction program session exchanges reason session'}
      (hstage : (execute instruction).Course session exchanges (.error reason) session') :
      Unfolds (instruction :: program) session
        [⟨instruction, session, exchanges, .error reason, session'⟩] (.error reason) session'
  | goesOn {instruction program session exchanges middle stages result session'}
      (hstage : (execute instruction).Course session exchanges (.ok ()) middle)
      (hrest : Unfolds program middle stages result session') :
      Unfolds (instruction :: program) session
        (⟨instruction, session, exchanges, .ok (), middle⟩ :: stages) result session'

/-- The note that announces an instruction. -/
def announcement (index : Nat) (instruction : Instruction) : Exchange :=
  ⟨.note (.instruction instruction.name index), ()⟩

/-- What is said during some stages, the first of which is number `index`. -/
def said : Nat → List Stage → List Exchange
  | _, [] => []
  | index, stage :: stages =>
    announcement index stage.instruction :: (stage.exchanges ++ said (index + 1) stages)

/-- A program obeys every law that its instructions obey. -/
theorem Unfolds.upholds {law : Law Session} (h : Obeys law)
    (hoverflow : ∀ session, law session [] (some .deadlineOverflow) session)
    {program : List Instruction} {session : Session} {stages : List Stage}
    {result : Except Halt Unit} {session' : Session}
    (hunfolds : Unfolds program session stages result session') (index : Nat) :
    law session (said index stages) (reason? result) session' := by
  induction hunfolds generalizing index with
  | done session => exact h.refl session
  | @stops instruction program session exchanges reason session' hstage =>
    have hnote := h.quiet session (.note (.instruction instruction.name index)) () trivial
    have hlaw := execute_upholds h hoverflow instruction hstage
    rw [said, said, List.append_nil]
    exact h.trans hnote hlaw
  | @goesOn instruction program session exchanges middle stages result session' hstage hrest ih =>
    have hnote := h.quiet session (.note (.instruction instruction.name index)) () trivial
    have hlaw := execute_upholds h hoverflow instruction hstage
    exact h.trans hnote (h.trans hlaw (ih (index + 1)))

/-- Each stage carries out its instruction in a session of which whatever the instructions keep
holds, and all but the last end well. -/
theorem Unfolds.of_mem {P : Session → Prop}
    (hkeeps : ∀ {instruction session exchanges result session'},
      (execute instruction).Course session exchanges result session' → P session → P session')
    {program : List Instruction} {session : Session} {stages : List Stage}
    {result : Except Halt Unit} {session' : Session}
    (h : Unfolds program session stages result session') (hsession : P session) {stage : Stage}
    (hmem : stage ∈ stages) :
    P stage.before ∧
      (execute stage.instruction).Course stage.before stage.exchanges stage.result stage.after ∧
      (stage.result = .ok () ∨ stage.result = result) := by
  induction h with
  | done session => cases hmem
  | stops hstage =>
    obtain rfl := List.mem_singleton.mp hmem
    exact ⟨hsession, hstage, .inr rfl⟩
  | goesOn hstage hrest ih =>
    rcases List.mem_cons.mp hmem with rfl | hlater
    · exact ⟨hsession, hstage, .inl rfl⟩
    · exact ih (hkeeps hstage hsession) hlater

/-- Each stage begins where the one before it ended. -/
theorem Unfolds.before_mem {program : List Instruction} {session : Session} {stages : List Stage}
    {result : Except Halt Unit} {session' : Session}
    (h : Unfolds program session stages result session') {stage : Stage} (hmem : stage ∈ stages) :
    stage.before ∈ session :: stages.map Stage.after := by
  induction h with
  | done session => cases hmem
  | stops hstage =>
    obtain rfl := List.mem_singleton.mp hmem
    exact List.mem_cons_self
  | goesOn hstage hrest ih =>
    rcases List.mem_cons.mp hmem with rfl | hlater
    · exact List.mem_cons_self
    · exact List.mem_cons_of_mem _ (ih hlater)

section Bench

variable {β τ : Type} [Bus β] [Clock τ]

/-- The stages of a program on a bench, the first of which is number `index`. -/
def stagesFrom (index : Nat) : List Instruction → Session → Bench β τ → List Stage
  | [], _, _ => []
  | instruction :: program, session, bench =>
    let bench := (bench.answer (.note (.instruction instruction.name index))).2
    let stage := (execute instruction session).play bench
    { instruction
      before := session
      exchanges := (execute instruction session).transcript bench
      result := stage.1.1
      after := stage.1.2 } ::
        match stage.1.1 with
        | .ok () => stagesFrom (index + 1) program stage.1.2 stage.2
        | .error _ => []

theorem stagesFrom_unfolds (index : Nat) (program : List Instruction) (session : Session)
    (bench : Bench β τ) :
    Unfolds program session (stagesFrom index program session bench)
        ((executeFrom index program session).play bench).1.1
        ((executeFrom index program session).play bench).1.2 ∧
      (executeFrom index program session).transcript bench =
        said index (stagesFrom index program session bench) := by
  -- A stage is played on the bench that its announcement leaves, so all benches are considered.
  induction program generalizing index session bench with
  | nil => exact ⟨.done session, rfl⟩
  | cons instruction program ih =>
    have hnote : ((Action.note (.instruction instruction.name index) : Action Session Unit)
        session).play bench =
          ((.ok (), session), (bench.answer (.note (.instruction instruction.name index))).2) := rfl
    have hfirst := congrArg Prod.fst hnote
    rw [executeFrom, play_bind_of_ok hfirst, transcript_bind_of_ok hfirst, hnote, stagesFrom]
    generalize (bench.answer (.note (.instruction instruction.name index))).2 = announced
    have hcourse := Dialogue.course_transcript (execute instruction session) announced
    rcases hstage : ((execute instruction session).play announced).1 with ⟨_ | _, middle⟩
    · rw [hstage] at hcourse
      rw [play_bind_of_error hstage, transcript_bind_of_error hstage]
      refine ⟨.stops hcourse, ?_⟩
      simp [said, Action.note, Action.ask, Dialogue.transcript, announcement]
    · rw [hstage] at hcourse
      rw [play_bind_of_ok hstage, transcript_bind_of_ok hstage]
      obtain ⟨hrest, htranscript⟩ :=
        ih (index + 1) middle ((execute instruction session).play announced).2
      refine ⟨.goesOn hcourse hrest, ?_⟩
      rw [htranscript]
      rfl

/-- What was said before the first instruction of a run, and its stages. -/
structure Performance where
  prelude : List Exchange
  stages : List Stage

/-- What is said until the bus is acquired. -/
def opening (program : List Instruction) (start : Nat) (answer : Except IoError Unit) :
    List Exchange :=
  [⟨.now, start⟩, ⟨.note (.executing program.length), ()⟩, ⟨.acquire, answer⟩]

/-- The performance of a program on a bench. There are no stages if the bus cannot be acquired or
the device cannot be reset. -/
def performance (config : PlayerConfig) (program : List Instruction) (bench : Bench β τ) :
    Performance :=
  let started := bench.answer .now
  let announced := started.2.answer (.note (.executing program.length))
  let acquired := announced.2.answer .acquire
  match acquired.1 with
  | .error _ => { prelude := opening program started.1 acquired.1, stages := [] }
  | .ok () =>
    let reset := onTap TapDriver.reset (.initial config)
    let ready := reset.play acquired.2
    { prelude := opening program started.1 acquired.1 ++ reset.transcript acquired.2
      stages :=
        match ready.1.1 with
        | .error _ => []
        | .ok () => stagesFrom 0 program ready.1.2 ready.2 }

end Bench

/-- How a session that began at `start` is finished. -/
inductive Finish (start : Nat) (session : Session) :
    Except Halt Unit → List Exchange → RunOutcome → Prop where
  | abandoned : Finish start session (.error .deadlineOverflow) [] .abandoned
  | stopped (error : PlayError) (instant : Nat) :
      Finish start session (.error (.failed error))
        [⟨.release, ()⟩, ⟨.now, instant⟩, ⟨.note (.stopped error), ()⟩]
        (.stopped error (.ofSession session (instant - start)))
  | completed (instant : Nat) :
      Finish start session (.ok ()) [⟨.release, ()⟩, ⟨.now, instant⟩]
        (.completed (.ofSession session (instant - start)))

theorem finish_course {start : Nat} {session : Session} {result : Except Halt Unit}
    {exchanges : List Exchange} {outcome : RunOutcome}
    (h : (finish start session result).Course exchanges outcome) :
    Finish start session result exchanges outcome := by
  match result with
  | .error .deadlineOverflow =>
    obtain ⟨rfl, rfl⟩ := Dialogue.course_done.mp h
    exact .abandoned
  | .error (.failed error) =>
    obtain ⟨⟨⟩, _, rfl, hnow⟩ := Dialogue.course_call.mp h
    obtain ⟨instant, _, rfl, hnote⟩ := Dialogue.course_call.mp hnow
    obtain ⟨⟨⟩, _, rfl, hdone⟩ := Dialogue.course_call.mp hnote
    obtain ⟨rfl, rfl⟩ := Dialogue.course_done.mp hdone
    exact .stopped error instant
  | .ok () =>
    obtain ⟨⟨⟩, _, rfl, hnow⟩ := Dialogue.course_call.mp h
    obtain ⟨instant, _, rfl, hdone⟩ := Dialogue.course_call.mp hnow
    obtain ⟨rfl, rfl⟩ := Dialogue.course_done.mp hdone
    exact .completed instant

/-- A report is one on the session. -/
theorem Finish.report_eq {start : Nat} {session : Session} {result : Except Halt Unit}
    {exchanges : List Exchange} {outcome : RunOutcome} {report : RunReport}
    (h : Finish start session result exchanges outcome) (hreport : outcome.report? = some report) :
    ∃ elapsed, report = .ofSession session elapsed := by
  cases h with
  | abandoned => cases hreport
  | stopped error instant =>
    cases hreport
    exact ⟨_, rfl⟩
  | completed instant =>
    cases hreport
    exact ⟨_, rfl⟩

/-- How a run goes that has the given performance: the bus cannot be acquired, or the device cannot
be reset, or the stages follow. -/
inductive RunCourse (config : PlayerConfig) (program : List Instruction) :
    Performance → List Exchange → RunOutcome → Prop where
  | unstarted (start instant : Nat) (error : IoError) :
      RunCourse config program ⟨opening program start (.error error), []⟩
        (opening program start (.error error) ++
          [⟨.note (.notInitialized error), ()⟩, ⟨.now, instant⟩])
        (.stopped (.hardware error) (.unstarted (instant - start)))
  | unready {start resetting reason session closing outcome}
      (hreset : (onTap TapDriver.reset).Course (.initial config) resetting (.error reason) session)
      (hfinish : Finish start session (.error reason) closing outcome) :
      RunCourse config program ⟨opening program start (.ok ()) ++ resetting, []⟩
        (opening program start (.ok ()) ++ (resetting ++ closing)) outcome
  | ready {start resetting session stages result session' closing outcome}
      (hreset : (onTap TapDriver.reset).Course (.initial config) resetting (.ok ()) session)
      (hstages : Unfolds program session stages result session')
      (hfinish : Finish start session' result closing outcome) :
      RunCourse config program ⟨opening program start (.ok ()) ++ resetting, stages⟩
        (opening program start (.ok ()) ++ (resetting ++ (said 0 stages ++ closing))) outcome

section Bench

variable {β τ : Type} [Bus β] [Clock τ]

/-- What follows the acquisition of the bus. -/
def runAcquired (config : PlayerConfig) (program : List Instruction) (start : Nat) :
    Except IoError Unit → Dialogue RunOutcome
  | .error error => do
    Dialogue.ask (.note (.notInitialized error))
    let instant ← Dialogue.ask .now
    pure (.stopped (.hardware error) (.unstarted (instant - start)))
  | .ok () =>
    (executeAll program (.initial config)).bind fun (result, session) =>
      finish start session result

/-- A run goes on with the answer to the acquisition. -/
theorem run_eq (config : PlayerConfig) (program : List Instruction) :
    run config program = .call .now fun start => .call (.note (.executing program.length)) fun _ =>
      .call .acquire (runAcquired config program start) := rfl

/-- A run on a bench goes as its performance says. -/
theorem run_course (config : PlayerConfig) (program : List Instruction) (bench : Bench β τ) :
    RunCourse config program (performance config program bench)
      ((run config program).transcript bench) ((run config program).play bench).1 := by
  rw [run_eq, performance]
  simp only [Dialogue.transcript, Dialogue.play_call]
  generalize (bench.answer .now).1 = start
  generalize (bench.answer .now).2.answer (.note (.executing program.length)) = announced
  generalize announced.2.answer .acquire = acquired
  obtain ⟨_ | _, bench⟩ := acquired
  · exact .unstarted start _ _
  simp only [runAcquired, Dialogue.play_bind, Dialogue.transcript_bind]
  have hcourse := Dialogue.course_transcript (onTap TapDriver.reset (.initial config)) bench
  unfold executeAll
  rcases hready : ((onTap TapDriver.reset (.initial config)).play bench).1 with ⟨_ | _, session⟩
  · rw [hready] at hcourse
    rw [play_bind_of_error hready, transcript_bind_of_error hready]
    exact .unready hcourse (finish_course (Dialogue.course_transcript _ _))
  · rw [hready] at hcourse
    rw [play_bind_of_ok hready, transcript_bind_of_ok hready]
    obtain ⟨hstages, htranscript⟩ := stagesFrom_unfolds 0 program session
      ((onTap TapDriver.reset (.initial config)).play bench).2
    rw [htranscript, List.append_assoc]
    exact .ready hcourse hstages (finish_course (Dialogue.course_transcript _ _))

end Bench

end Player

end JtagPlayer
