import JtagPlayer.Proofs.Stopping

/-!
# What a run keeps intact

A session is sound if its stored patterns are full and scans end in stable states,
`Session.IsSound`. Every instruction leads from a sound session to a sound one, whatever the bus
answers and wherever the instruction stops, and changes no stored pattern but the one that it names.

That is why the bytes compared at the end of a scan match up: neither the comparison nor the shift
checks a length. `Player.sampling` is a scan up to its comparison, and `Player.sampling_spans` says
that what it hands over has the same number of bytes throughout.

`Player.sessions_sound` puts this together for all sessions of a run.
-/

namespace JtagPlayer

open JtagPlayer.Action

/-- The stored patterns are full, and scans end in stable states. -/
structure Session.IsSound (session : Session) : Prop where
  full : session.registers.IsFull
  ends : ∀ register, session.endState register ∈ TapState.stable

/-- Each byte string of a pattern has as many bytes as came back. -/
def Pattern.Spans (pattern : Pattern) (observed : List UInt8) : Prop :=
  ∀ name bytes, pattern.field name = some bytes → bytes.length = observed.length

theorem Session.isSound_initial (config : PlayerConfig) : (Session.initial config).IsSound where
  full := Registers.isFull_default
  ends register := by
    have hidle : TapState.idle ∈ TapState.stable := by decide
    cases register <;> exact hidle

/-- A change that is accepted concerns one pattern only. -/
theorem Registers.get_of_update {registers updated : Registers} {name other : RegisterName}
    {delta : Pattern} (h : registers.update name delta = .ok updated) (hother : other ≠ name) :
    updated.get other = registers.get other := by
  obtain ⟨merged, -, rfl⟩ := update_eq_ok h
  exact registers.get_set_of_ne merged hother

namespace Player

variable {session session' : Session} {exchanges : List Exchange}

/-- Sound sessions stay sound. -/
def keepsSound : Law Session := fun session _ _ session' => session.IsSound → session'.IsSound

theorem keepsSound_obeys : Obeys keepsSound where
  refl _ := id
  fail _ _ := id
  quiet _ _ _ _ := id
  trans hfirst hsecond hsound := hsecond (hfirst hsound)
  clock _ _ _ _ _ _ _ hsound := ⟨hsound.full, hsound.ends⟩
  setEndState := by
    intro session updated register state hupdated hsound
    have hends := Session.endState_mem_stable hupdated hsound.ends
    obtain ⟨-, endData, endInstruction, rfl⟩ := Session.setEndState_eq_ok hupdated
    exact ⟨hsound.full, hends⟩
  update := by
    intro session updated name delta hupdated hsound
    obtain ⟨registers, hregisters, rfl⟩ := Session.update_eq_ok hupdated
    exact ⟨Registers.update_isFull hsound.full hregisters, hsound.ends⟩
  delay _ _ hsound := ⟨hsound.full, hsound.ends⟩
  addFault _ _ hsound := ⟨hsound.full, hsound.ends⟩

theorem execute_keepsSound {instruction : Instruction} {result : Except Halt Unit}
    (h : (execute instruction).Course session exchanges result session')
    (hsound : session.IsSound) : session'.IsSound :=
  execute_upholds keepsSound_obeys (fun _ => id) instruction h hsound

/-- The stored patterns stay as they are. -/
def keepsRegisters : Law Session := fun session _ _ session' =>
  session'.registers = session.registers

theorem keepsRegisters_composes : keepsRegisters.Composes where
  refl _ := rfl
  fail _ _ := rfl
  quiet _ _ _ _ := rfl
  trans hfirst hsecond := hsecond.trans hfirst

/-- The driver of a session has no access to them. -/
theorem onTap_keepsRegisters {α : Type} (action : Action TapDriver α) :
    (onTap action).Upholds keepsRegisters := by
  intro session exchanges result session' hcourse
  obtain ⟨driver, -, rfl⟩ := onTap_course.mp hcourse
  rfl

/-- A scan changes the payload of its register only. -/
theorem ScanCourse.get_registers {register : Register} {delta : Pattern} {label : Option String}
    {result : Except Halt Unit}
    (h : ScanCourse register delta label session exchanges result session') {name : RegisterName}
    (hname : name ≠ ⟨.payload, register⟩) :
    session'.registers.get name = session.registers.get name := by
  cases h with
  | refused hupdate => rfl
  | unrouted hupdate hroute => exact Registers.get_of_update hupdate hname
  | unshifted hupdate hroute hshift => exact Registers.get_of_update hupdate hname
  | shifted hupdate hroute hshift hleave =>
    rw [registers_judge]
    exact Registers.get_of_update hupdate hname

/-- A change of a header or a trailer changes nothing else. -/
theorem get_registers_of_setPattern {name other : RegisterName} {delta : Pattern}
    {result : Except Halt Unit}
    (h : Course (do let _ ← update name delta; Pure.pure ()) session exchanges result session')
    (hother : other ≠ name) : session'.registers.get other = session.registers.get other := by
  rcases setPattern_course h with ⟨error, -, -, -, rfl⟩ | ⟨registers, hupdate, -, -, rfl⟩
  · rfl
  · exact Registers.get_of_update hupdate hother

/-- An instruction that names no stored pattern leaves all of them as they are. -/
theorem registers_eq {instruction : Instruction} {result : Except Halt Unit}
    (h : (execute instruction).Course session exchanges result session')
    (hnone : instruction.changes? = none) : session'.registers = session.registers := by
  have hkeeps := keepsRegisters_composes
  have hroute : ∀ target, (routeTo target).Upholds keepsRegisters :=
    fun target => onTap_keepsRegisters (TapDriver.routeTo target)
  cases instruction with
  | setEndState register state =>
    refine setEndState_upholds hkeeps (fun session updated hupdated => ?_) h
    obtain ⟨-, endData, endInstruction, rfl⟩ := Session.setEndState_eq_ok hupdated
    rfl
  | setFrequency hz => exact setFrequency_upholds hkeeps (fun _ _ => rfl) hz h
  | setHeader register delta => cases hnone
  | setTrailer register delta => cases hnone
  | shift register delta label => cases hnone
  | runTest test =>
    exact runTest_upholds hkeeps (fun _ => rfl) (onTap_keepsRegisters _)
      (fun target _ => hroute target) (fun target _ => hroute target) h
  | goToState target path =>
    cases path with
    | none => exact hroute target h
    | some path => exact onTap_keepsRegisters _ h
  | unsupported command => exact upholds_fail hkeeps _ h
  | unknown => exact upholds_fail hkeeps _ h

/-- An instruction changes no stored pattern but the one that it names, wherever it stops. -/
theorem get_registers_eq {instruction : Instruction} {result : Except Halt Unit}
    (h : (execute instruction).Course session exchanges result session') {name : RegisterName}
    (hname : instruction.changes? ≠ some name) :
    session'.registers.get name = session.registers.get name := by
  cases instruction with
  | setHeader register delta =>
    exact get_registers_of_setPattern h fun heq => hname (congrArg some heq.symm)
  | setTrailer register delta =>
    exact get_registers_of_setPattern h fun heq => hname (congrArg some heq.symm)
  | shift register delta label =>
    exact (scan_course h).get_registers fun heq => hname (congrArg some heq.symm)
  | _ => rw [registers_eq h rfl]

/-- A scan up to its comparison: the stored payload and the bytes that came back for it. -/
def sampling (register : Register) (delta : Pattern) : Action Session (Pattern × List UInt8) := do
  let _ ← update ⟨.payload, register⟩ delta
  routeTo register.shiftState
  let session ← Action.get
  let segments := session.registers.segments register
  let samples ← onTap segments.shift
  Pure.pure (segments.payload, samples.payload)

/-- The comparison at the end of a scan, and what follows it. -/
def judging (register : Register) (label : Option String) (compared : Pattern × List UInt8) :
    Action Session Unit := do
  let passed ← compare ⟨.payload, register⟩ label compared.1 compared.2
  leaveScan register
  conclude passed label

/-- A scan hands over what is compared. -/
theorem scan_eq_sampling (register : Register) (delta : Pattern) (label : Option String) :
    scan register delta label = sampling register delta >>= judging register label := by
  unfold scan sampling judging
  simp only [Bind.bind, Action.bind_assoc, Pure.pure, Action.pure_bind]

/-- What a scan hands over to be compared has the same number of bytes throughout. -/
theorem sampling_spans {register : Register} {delta : Pattern} {compared : Pattern × List UInt8}
    (h : (sampling register delta).Course session exchanges (.ok compared) session')
    (hsound : session.IsSound) : compared.1.Spans compared.2 := by
  rcases course_bind.mp h with ⟨noting, _, _, updated, hupdate, hrest, -⟩ | ⟨reason, -, hstop⟩
  · rcases update_course hupdate with
      ⟨error, -, -, hresult, -⟩ | ⟨registers, hregisters, -, -, rfl⟩
    · cases hresult
    rcases course_bind.mp hrest with ⟨routing, _, _, routed, hroute, hrest, -⟩ | ⟨reason, -, hstop⟩
    · obtain ⟨driver, -, rfl⟩ := routeTo_course.mp hroute
      rcases course_bind.mp (course_get_bind.mp hrest) with
        ⟨shifting, _, samples, shifted, hshift, hdone, -⟩ | ⟨reason, -, hstop⟩
      · obtain ⟨driver', hdriver', -⟩ := onTap_course.mp hshift
        obtain ⟨-, hcompared, -⟩ := course_pure.mp hdone
        cases hcompared
        obtain ⟨received, hreceived, hlength⟩ := Segments.shift_payload hdriver'
        have hfull := Registers.update_isFull hsound.full hregisters ⟨.payload, register⟩
        intro name bytes hbytes
        show bytes.length = samples.payload.length
        rw [hreceived, Pattern.length_bytesOf, hlength]
        exact hfull.width name bytes hbytes
      · cases hstop
    · cases hstop
  · cases hstop

section Bench

variable {β τ : Type} [Bus β] [Clock τ]

/-- The sessions of a run: the one that it begins with, the one that the reset leads to, and those
that its stages lead to. -/
def sessions (config : PlayerConfig) (program : List Instruction) (bench : Bench β τ) :
    List Session :=
  .initial config ::
    match acquired program bench with
    | (.error _, _) => []
    | (.ok (), ready) =>
      let reset := (onTap TapDriver.reset (.initial config)).play ready
      reset.1.2 :: (stagesAfter program reset).map Stage.after

/-- The stages that follow a reset unfold from the session that it leads to. -/
theorem stagesAfter_unfolds (program : List Instruction)
    (ready : (Except Halt Unit × Session) × Bench β τ) :
    ∃ program' result session', Unfolds program' ready.1.2 (stagesAfter program ready) result
      session' := by
  obtain ⟨⟨_ | _, session⟩, bench⟩ := ready
  · exact ⟨_, _, _, .done session⟩
  · exact ⟨_, _, _, (stagesFrom_unfolds 0 program session bench).1⟩

/-- A reset that may have stopped leads to a sound session. -/
theorem isSound_reset (config : PlayerConfig) (bench : Bench β τ) :
    ((onTap TapDriver.reset (.initial config)).play bench).1.2.IsSound := by
  have hcourse := Dialogue.course_transcript (onTap TapDriver.reset (.initial config)) bench
  generalize ((onTap TapDriver.reset (.initial config)).play bench).1 = ending at hcourse ⊢
  obtain ⟨result, session⟩ := ending
  exact onTap_upholds (TapDriver.reset_upholds keepsSound_obeys.onTap) hcourse
    (Session.isSound_initial config)

/-- In whatever session a run may be, after any number of instructions and on any bus, the stored
patterns are full and scans end in stable states. Each instruction leaves all stored patterns but
the one that it names as they are. What a scan compares has the same number of bytes throughout. -/
theorem sessions_sound (config : PlayerConfig) (program : List Instruction) (bench : Bench β τ) :
    let sessions := sessions config program bench
    let stages := (performance config program bench).stages
    (∀ session ∈ sessions, session.IsSound) ∧
      ∀ stage ∈ stages, stage.before ∈ sessions ∧ stage.after ∈ sessions ∧
        (∀ name, stage.instruction.changes? ≠ some name →
          stage.after.registers.get name = stage.before.registers.get name) ∧
        ∀ register delta label, stage.instruction = .shift register delta label →
          execute stage.instruction = sampling register delta >>= judging register label ∧
          ∀ exchanges compared session,
            (sampling register delta).Course stage.before exchanges (.ok compared) session →
              compared.1.Spans compared.2 := by
  have hperformance := performance_acquired config program bench
  unfold sessions
  rw [hperformance]
  generalize acquired program bench = answered
  obtain ⟨_ | _, ready⟩ := answered
  · simpa using Session.isSound_initial config
  have hreset := isSound_reset config ready
  dsimp only
  generalize (onTap TapDriver.reset (.initial config)).play ready = played at hreset ⊢
  obtain ⟨program', result, session', hunfolds⟩ := stagesAfter_unfolds program played
  generalize stagesAfter program played = stages at hunfolds ⊢
  have hstages := fun stage (hmem : stage ∈ stages) =>
    hunfolds.of_mem (P := Session.IsSound) execute_keepsSound hreset hmem
  refine ⟨?_, fun stage hmem => ?_⟩
  · intro session hmem
    rcases List.mem_cons.mp hmem with rfl | hmem
    · exact Session.isSound_initial config
    rcases List.mem_cons.mp hmem with rfl | hmem
    · exact hreset
    obtain ⟨stage, hstage, rfl⟩ := List.mem_map.mp hmem
    obtain ⟨hbefore, hcourse, -⟩ := hstages stage hstage
    exact execute_keepsSound hcourse hbefore
  · obtain ⟨hbefore, hcourse, -⟩ := hstages stage hmem
    have hafter : stage.after ∈ stages.map Stage.after := List.mem_map_of_mem hmem
    refine ⟨List.mem_cons_of_mem _ (hunfolds.before_mem hmem),
      List.mem_cons_of_mem _ (List.mem_cons_of_mem _ hafter),
      fun name hname => get_registers_eq hcourse hname, ?_⟩
    intro register delta label hinstruction
    rw [hinstruction]
    exact ⟨scan_eq_sampling register delta label, fun exchanges compared session hsampling =>
      sampling_spans hsampling hbefore⟩

end Bench

end Player

end JtagPlayer
