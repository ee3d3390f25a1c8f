import JtagPlayer.Proofs.Keeping
import JtagPlayer.Proofs.Settings

/-!
# Settings that are not used

A header, a trailer or the end state of a register is a `ScanSetting` that fills a `Slot` of the
session. An instruction uses the slots that it fills itself and, if it is a scan, those of its
register. It cannot tell whether any other slot is filled before or after it: `Action.Ignores` says
that an action goes the same way in both cases and leaves the same session, and
`Player.execute_ignores` says so of an instruction and a setting that it does not use.

`Instruction.setting?` computes the setting that an instruction makes, and
`Player.execute_of_setting` says that it does nothing else.
-/

namespace JtagPlayer

open JtagPlayer.Action

/-- A place in a session that settings fill: a stored pattern, or the state that the scans of a
register end in. -/
inductive Slot where
  | pattern (name : RegisterName)
  | endState (register : Register)
  deriving DecidableEq

/-- The register whose scans use the slot. -/
def Slot.register : Slot → Register
  | pattern name => name.register
  | endState register => register

/-- The slot that an instruction sets a header, a trailer or an end state in. -/
def Instruction.slot? : Instruction → Option Slot
  | setHeader register _ => some (.pattern ⟨.header, register⟩)
  | setTrailer register _ => some (.pattern ⟨.trailer, register⟩)
  | setEndState register _ => some (.endState register)
  | _ => none

/-- A scan uses the slots of its register, and a setting uses the one that it fills. -/
def Slot.IsUsedBy (slot : Slot) : Instruction → Prop
  | .shift register _ _ => register = slot.register
  | instruction => instruction.slot? = some slot

instance (slot : Slot) : DecidablePred slot.IsUsedBy
  | .shift register _ _ => inferInstanceAs (Decidable (register = slot.register))
  | .setEndState .. | .setFrequency _ | .setHeader .. | .setTrailer .. | .runTest _
  | .goToState .. | .unsupported _ | .unknown => inferInstanceAs (Decidable (_ = some slot))

/-- A slot together with what it is filled with. -/
inductive ScanSetting where
  | pattern (name : RegisterName) (stored : Pattern)
  | endState (register : Register) (state : TapState)
  deriving DecidableEq

namespace Registers

/-- Different patterns can be set in either order. -/
theorem set_comm (registers : Registers) {name other : RegisterName} (hother : other ≠ name)
    (pattern stored : Pattern) :
    (registers.set name pattern).set other stored =
      (registers.set other stored).set name pattern := by
  obtain ⟨role, register⟩ := name
  obtain ⟨otherRole, otherRegister⟩ := other
  cases register <;> cases otherRegister <;>
    simp only [set, segments, setSegments]
  all_goals
    have hrole : otherRole ≠ role := fun h => hother (by rw [h])
    cases role <;> cases otherRole <;> first | rfl | exact absurd rfl hrole

/-- Setting a pattern leaves the scans of the other register alone. -/
theorem segments_set (registers : Registers) {name : RegisterName} {register : Register}
    (hregister : name.register ≠ register) (pattern : Pattern) :
    (registers.set name pattern).segments register = registers.segments register := by
  obtain ⟨role, named⟩ := name
  cases named <;> cases register <;> first | rfl | exact absurd rfl hregister

/-- A change to one pattern is refused or merged whatever another one is set to. -/
theorem update_set (registers : Registers) {name other : RegisterName} (hother : other ≠ name)
    (pattern delta : Pattern) :
    (registers.set name pattern).update other delta =
      (registers.update other delta).map (·.set name pattern) := by
  rw [update, update, get_set_of_ne _ _ hother]
  cases (registers.get other).merge other delta with
  | error error => rfl
  | ok merged => exact congrArg Except.ok (registers.set_comm hother pattern merged)

end Registers

namespace ScanSetting

/-- The slot that is filled. -/
def slot : ScanSetting → Slot
  | pattern name _ => .pattern name
  | endState register _ => .endState register

/-- The stored patterns with this setting. -/
def store (setting : ScanSetting) (registers : Registers) : Registers :=
  match setting with
  | pattern name stored => registers.set name stored
  | endState _ _ => registers

/-- The session with this setting. -/
def apply (setting : ScanSetting) (session : Session) : Session :=
  match setting with
  | pattern name stored => { session with registers := session.registers.set name stored }
  | endState .data state => { session with endData := state }
  | endState .instruction state => { session with endInstruction := state }

/-- The note that is made of it. -/
def note? : ScanSetting → Option LogEntry
  | pattern name stored => some (.updated name stored)
  | endState _ _ => none

variable (setting : ScanSetting) (session : Session)

@[simp] theorem tap_apply : (setting.apply session).tap = session.tap := by
  unfold apply
  split <;> rfl

@[simp] theorem continueOnFault_apply :
    (setting.apply session).continueOnFault = session.continueOnFault := by
  unfold apply
  split <;> rfl

@[simp] theorem report_apply : (setting.apply session).report = session.report := by
  unfold apply
  split <;> rfl

/-- A setting changes stored patterns only as its slot says. -/
@[simp] theorem registers_apply :
    (setting.apply session).registers = setting.store session.registers := by
  unfold apply
  split <;> rfl

/-- A setting and what the driver does can be taken in either order. -/
theorem apply_withTap (tap : TapDriver) :
    setting.apply { session with tap } = { setting.apply session with tap } := by
  unfold apply
  split <;> rfl

/-- A setting that is made after a change of the stored patterns fills the same slot of the changed
ones. -/
theorem apply_withRegisters (registers : Registers) :
    setting.apply { session with registers } =
      { setting.apply session with registers := setting.store registers } := by
  unfold apply
  split <;> rfl

/-- It does not matter whether a fault is reported before a setting is made or after it. -/
theorem apply_addFault (fault : Fault) :
    setting.apply (session.addFault fault) = (setting.apply session).addFault fault := by
  unfold apply
  split <;> rfl

variable {setting}

/-- A setting leaves other patterns as they are. -/
theorem get_store {name : RegisterName} (hslot : setting.slot ≠ .pattern name)
    (registers : Registers) : (setting.store registers).get name = registers.get name := by
  cases setting with
  | pattern other stored =>
    exact registers.get_set_of_ne stored fun heq => hslot (congrArg Slot.pattern heq.symm)
  | endState register state => rfl

/-- A pattern in another slot is updated, or refused, as it is without the setting. -/
theorem update_store {name : RegisterName} (hslot : setting.slot ≠ .pattern name)
    (registers : Registers) (delta : Pattern) :
    (setting.store registers).update name delta =
      (registers.update name delta).map setting.store := by
  cases setting with
  | pattern other stored =>
    exact registers.update_set (fun heq => hslot (congrArg Slot.pattern heq.symm)) stored delta
  | endState register state =>
    show registers.update name delta = _
    cases registers.update name delta <;> rfl

/-- What a scan sends is not changed by a setting for the other register. -/
theorem segments_store {register : Register} (hregister : setting.slot.register ≠ register)
    (registers : Registers) :
    (setting.store registers).segments register = registers.segments register := by
  cases setting with
  | pattern name stored => exact registers.segments_set hregister stored
  | endState other state => rfl

/-- A setting in another slot leaves the end state of a register as it is. -/
theorem endState_apply {register : Register} (hslot : setting.slot ≠ .endState register)
    (session : Session) :
    (setting.apply session).endState register = session.endState register := by
  cases setting with
  | pattern name stored => cases register <;> rfl
  | endState other state =>
    cases other <;> cases register <;> first | rfl | exact absurd rfl hslot

/-- An end state in another slot is set, or refused, as it is without the setting. -/
theorem setEndState_apply {register : Register} (hslot : setting.slot ≠ .endState register)
    (session : Session) (state : TapState) :
    (setting.apply session).setEndState register state =
      (session.setEndState register state).map setting.apply := by
  unfold Session.setEndState
  split
  · cases setting with
    | pattern name stored => cases register <;> rfl
    | endState other chosen =>
      cases other <;> cases register <;> first | rfl | exact absurd rfl hslot
  · rfl

end ScanSetting

namespace Action

variable {σ ρ α β : Type} {f : σ → σ}

/-- An action that goes the same way whether the state was changed before it or is changed
afterwards, and to which this makes no difference in the end. -/
def Ignores (f : σ → σ) (action : Action σ α) : Prop :=
  ∀ s, action (f s) = (action s).bind fun ending => .done (ending.1, f ending.2)

theorem ignores_pure (x : α) : (Pure.pure x : Action σ α).Ignores f :=
  fun _ => rfl

theorem ignores_fail (error : PlayError) : (fail error : Action σ α).Ignores f :=
  fun _ => rfl

theorem ignores_ask (c : Call) : (ask c : Action σ c.Answer).Ignores f :=
  fun _ => rfl

/-- Two actions in a row ignore a change that each of them ignores. -/
theorem ignores_bind {action : Action σ α} {g : α → Action σ β} (haction : action.Ignores f)
    (hg : ∀ x, (g x).Ignores f) : (action >>= g).Ignores f := by
  intro s
  show (action (f s)).bind _ = ((action s).bind _).bind _
  rw [haction, Dialogue.bind_assoc, Dialogue.bind_assoc]
  congr 1
  funext ending
  rcases ending with ⟨_ | x, s'⟩
  · rfl
  · exact hg x s'

/-- What is looked at must not be what was changed. -/
theorem ignores_get_bind {g : σ → Action σ β} (hlook : ∀ s, g (f s) = g s)
    (hg : ∀ s, (g s).Ignores f) : (get >>= g).Ignores f := by
  intro s
  show g (f s) (f s) = (g s s).bind _
  rw [hlook, hg s s]

/-- A change of the state ignores another one that it commutes with. -/
theorem ignores_modify {g : σ → σ} (h : ∀ s, g (f s) = f (g s)) : (modify g).Ignores f :=
  fun s => congrArg (fun s' => Dialogue.done (Except.ok (), s')) (h s)

theorem ignores_ofParameter (parameter : Except ParameterError α) :
    (ofParameter parameter : Action σ α).Ignores f := by
  cases parameter with
  | error error => exact ignores_fail _
  | ok x => exact ignores_pure x

/-- A wait does not look at the state at all. -/
theorem ignores_waitFor (start duration spinThreshold : Nat) :
    (waitFor start duration spinThreshold : Action σ Unit).Ignores f := by
  unfold waitFor
  cases Instant.after? start duration with
  | none => exact fun _ => rfl
  | some deadline => exact ignores_ask _

/-- An action on a part of a state ignores what concerns the other parts. -/
theorem ignores_on {part : σ → ρ} {put : σ → ρ → σ} {action : Action ρ α}
    (hpart : ∀ s, part (f s) = part s) (hput : ∀ s inner, put (f s) inner = f (put s inner)) :
    (action.on part put).Ignores f := by
  intro s
  show (action (part (f s))).bind _ = ((action (part s)).bind _).bind _
  rw [hpart, Dialogue.bind_assoc]
  congr 1
  funext ending
  exact congrArg (fun s' => Dialogue.done (ending.1, s')) (hput s ending.2)

end Action

namespace Player

variable {setting : ScanSetting}

/-- Whatever is done with the driver ignores all settings. -/
theorem onTap_ignores {α : Type} (action : Action TapDriver α) :
    (onTap action).Ignores setting.apply :=
  ignores_on setting.tap_apply fun session tap => (setting.apply_withTap session tap).symm

theorem routeTo_ignores (target : TapState) : (routeTo target).Ignores setting.apply :=
  onTap_ignores _

theorem routeToGiven_ignores (given : Option TapState) :
    (routeToGiven given).Ignores setting.apply := by
  cases given with
  | none => exact ignores_pure ()
  | some target => exact routeTo_ignores target

/-- Setting an end state ignores all slots but its own. -/
theorem setEndState_ignores {register : Register} (hslot : setting.slot ≠ .endState register)
    (state : TapState) : (setEndState register state).Ignores setting.apply := by
  intro session
  rw [setEndState_eq, setEndState_eq, ScanSetting.setEndState_apply hslot]
  cases session.setEndState register state <;> rfl

/-- Updating a pattern ignores all slots but its own. -/
theorem update_ignores {name : RegisterName} (hslot : setting.slot ≠ .pattern name)
    (delta : Pattern) : (update name delta).Ignores setting.apply := by
  intro session
  rw [update_eq, update_eq, ScanSetting.registers_apply, ScanSetting.update_store hslot]
  cases session.registers.update name delta with
  | error error => rfl
  | ok registers =>
    show Dialogue.call (.note (.updated name ((setting.store registers).get name))) _ = _
    rw [ScanSetting.get_store hslot]
    show _ = Dialogue.call _ fun _ => .done (_, setting.apply { session with registers })
    rw [setting.apply_withRegisters session registers]

/-- A change to a stored pattern that is not scanned. -/
theorem setPattern_ignores {name : RegisterName} (hslot : setting.slot ≠ .pattern name)
    (delta : Pattern) : Ignores setting.apply (do let _ ← update name delta; Pure.pure ()) :=
  ignores_bind (update_ignores hslot delta) fun _ => ignores_pure ()

theorem setFrequency_ignores (hz : Float) : (setFrequency hz).Ignores setting.apply := by
  refine ignores_bind (onTap_ignores _) fun _ => ?_
  refine ignores_get_bind (fun session => ?_) fun session => ?_
  · rw [ScanSetting.tap_apply]
  · exact ignores_ask _

/-- A comparison looks at the samples and at the stored pattern it is given. -/
theorem compare_ignores (name : RegisterName) (label : Option String) (pattern : Pattern)
    (observed : List UInt8) : (compare name label pattern observed).Ignores setting.apply := by
  unfold compare
  split
  · exact ignores_pure true
  · refine ignores_bind (ignores_ask _) fun _ => ?_
    refine ignores_bind (ignores_modify fun session => ?_) fun _ => ignores_pure false
    exact (setting.apply_addFault session _).symm

/-- A conclusion looks at the policy only, which is in no slot. -/
theorem conclude_ignores (passed : Bool) (label : Option String) :
    (conclude passed label).Ignores setting.apply := by
  refine ignores_get_bind (fun session => ?_) fun session => ?_
  · rw [ScanSetting.continueOnFault_apply]
  · split
    · exact ignores_pure ()
    · exact ignores_fail _

/-- On its way out a scan uses the end state of its register and no other slot. -/
theorem leaveScan_ignores {register : Register} (hslot : setting.slot ≠ .endState register) :
    (leaveScan register).Ignores setting.apply := by
  refine ignores_bind (onTap_ignores _) fun _ => ?_
  refine ignores_get_bind (fun session => ?_) fun session => ?_
  · rw [ScanSetting.endState_apply hslot]
  · exact routeTo_ignores _

/-- A scan ignores the settings of the other register. -/
theorem scan_ignores {register : Register} (hregister : setting.slot.register ≠ register)
    (delta : Pattern) (label : Option String) :
    (scan register delta label).Ignores setting.apply := by
  have hpattern : setting.slot ≠ .pattern ⟨.payload, register⟩ :=
    fun heq => hregister (congrArg Slot.register heq)
  have hend : setting.slot ≠ .endState register :=
    fun heq => hregister (congrArg Slot.register heq)
  refine ignores_bind (update_ignores hpattern delta) fun _ => ?_
  refine ignores_bind (routeTo_ignores _) fun _ => ?_
  refine ignores_get_bind (fun session => ?_) fun session => ?_
  · rw [ScanSetting.registers_apply, ScanSetting.segments_store hregister]
  · refine ignores_bind (onTap_ignores _) fun samples => ?_
    refine ignores_bind (compare_ignores _ _ _ _) fun passed => ?_
    exact ignores_bind (leaveScan_ignores hend) fun _ => conclude_ignores passed label

theorem idle_ignores (start : Nat) (maxTime : Option Nat) (count remaining : Nat) :
    (idle start maxTime count remaining).Ignores setting.apply := by
  have hlook : (isOver start maxTime).Ignores setting.apply := by
    cases maxTime with
    | none => exact ignores_pure false
    | some limit => exact ignores_bind (ignores_ask .now) fun _ => ignores_pure _
  induction remaining with
  | zero => exact ignores_pure ()
  | succ remaining ih =>
    refine ignores_bind hlook fun isLate => ?_
    split
    · exact ignores_ask _
    · exact ignores_bind (onTap_ignores _) fun _ => ih

theorem waitFor_ignores (start duration : Nat) :
    (waitFor start duration).Ignores setting.apply := by
  refine ignores_get_bind (fun session => ?_) fun session => ?_
  · rw [ScanSetting.tap_apply]
  · exact ignores_waitFor _ _ _

theorem optionalDuration_ignores (seconds : Option Float) :
    (optionalDuration seconds).Ignores setting.apply := by
  cases seconds with
  | none => exact ignores_pure none
  | some seconds => exact ignores_bind (ignores_ofParameter _) fun _ => ignores_pure _

/-- An idle period uses no slot. -/
theorem runTest_ignores (test : RunTest) : (runTest test).Ignores setting.apply := by
  refine ignores_bind (ignores_ofParameter _) fun minTime => ?_
  refine ignores_bind (optionalDuration_ignores _) fun maxTime => ?_
  refine ignores_bind (ignores_ask .now) fun start => ?_
  refine ignores_get_bind (fun session => ?_) fun session => ?_
  · rw [ScanSetting.tap_apply]
  · refine ignores_bind (routeToGiven_ignores _) fun _ => ?_
    refine ignores_bind (idle_ignores _ _ _ _) fun _ => ?_
    exact ignores_bind (waitFor_ignores _ _) fun _ => routeToGiven_ignores _

/-- Instructions ignore the settings that they do not use. -/
theorem execute_ignores {instruction : Instruction} (h : ¬ setting.slot.IsUsedBy instruction) :
    (execute instruction).Ignores setting.apply := by
  cases instruction with
  | setEndState register state =>
    exact setEndState_ignores (fun heq => h (congrArg some heq.symm)) state
  | setFrequency hz => exact setFrequency_ignores hz
  | setHeader register delta | setTrailer register delta =>
    exact setPattern_ignores (fun heq => h (congrArg some heq.symm)) delta
  | shift register delta label => exact scan_ignores (fun heq => h heq.symm) delta label
  | runTest test => exact runTest_ignores test
  | goToState target path =>
    cases path with
    | none => exact routeTo_ignores target
    | some path => exact onTap_ignores _
  | unsupported command => exact ignores_fail _
  | unknown => exact ignores_fail _

end Player

/-- The setting that a change to a stored pattern comes to, if it is accepted. -/
def Registers.setting? (registers : Registers) (name : RegisterName) (delta : Pattern) :
    Option ScanSetting :=
  match (registers.get name).merge name delta with
  | .ok pattern => some (.pattern name pattern)
  | .error _ => none

/-- The setting that an instruction makes where the given patterns are stored, if it makes one and
is accepted. -/
def Instruction.setting? (registers : Registers) : Instruction → Option ScanSetting
  | setEndState register state =>
    if state.isStable then some (.endState register state) else none
  | setHeader register delta => registers.setting? ⟨.header, register⟩ delta
  | setTrailer register delta => registers.setting? ⟨.trailer, register⟩ delta
  | _ => none

/-- A dialogue that begins with a note, if there is one to be made. -/
def Dialogue.noting {α : Type} (note? : Option LogEntry) (dialogue : Dialogue α) : Dialogue α :=
  match note? with
  | some entry => .call (.note entry) fun _ => dialogue
  | none => dialogue

theorem Dialogue.bind_noting {α γ : Type} (note? : Option LogEntry) (dialogue : Dialogue α)
    (f : α → Dialogue γ) : (dialogue.noting note?).bind f = (dialogue.bind f).noting note? := by
  cases note? <;> rfl

/-- A pattern makes a setting if it can be merged with the one that is stored. -/
theorem Registers.setting?_eq_some {registers : Registers} {name : RegisterName} {delta : Pattern}
    {setting : ScanSetting} : registers.setting? name delta = some setting ↔
      ∃ stored, (registers.get name).merge name delta = .ok stored ∧
        setting = .pattern name stored := by
  unfold setting?
  cases (registers.get name).merge name delta <;> simp [eq_comm]

section Accepted

variable {instruction : Instruction} {registers registers' : Registers} {setting : ScanSetting}
  {slot : Slot}

/-- The setting fills the slot of the instruction. -/
theorem Instruction.slot?_of_setting (h : instruction.setting? registers = some setting) :
    instruction.slot? = some setting.slot := by
  cases instruction with
  | setEndState register state =>
    simp only [setting?, Option.ite_none_right_eq_some, Option.some.injEq] at h
    obtain ⟨-, rfl⟩ := h
    rfl
  | setHeader register delta | setTrailer register delta =>
    obtain ⟨stored, -, rfl⟩ := Registers.setting?_eq_some.mp h
    rfl
  | _ => cases h

/-- It depends on no pattern but the one that it replaces. -/
theorem Instruction.setting?_congr
    (h : ∀ name, instruction.slot? = some (.pattern name) →
      registers.get name = registers'.get name) :
    instruction.setting? registers = instruction.setting? registers' := by
  cases instruction with
  | setHeader register delta | setTrailer register delta =>
    rw [setting?, setting?, Registers.setting?, Registers.setting?, h _ rfl]
  | _ => rfl

namespace Player

variable {session session' : Session} {exchanges : List Exchange}

/-- An update of a header or a trailer does nothing but make its setting and note it. -/
theorem setPattern_of_setting {name : RegisterName} {delta : Pattern}
    (h : session.registers.setting? name delta = some setting) :
    (do let _ ← update name delta; Pure.pure () : Action Session Unit) session =
      Dialogue.noting setting.note? (.done (.ok (), setting.apply session)) := by
  obtain ⟨stored, hmerge, rfl⟩ := Registers.setting?_eq_some.mp h
  show (update name delta session).bind _ = _
  rw [update_eq, Registers.update, hmerge]
  show Dialogue.call (.note (.updated name ((session.registers.set name stored).get name))) _ = _
  rw [Registers.get_set]
  rfl

/-- An accepted setting makes at most a note and is applied. -/
theorem execute_of_setting (h : instruction.setting? session.registers = some setting) :
    execute instruction session =
      Dialogue.noting setting.note? (.done (.ok (), setting.apply session)) := by
  cases instruction with
  | setEndState register state =>
    simp only [Instruction.setting?, Option.ite_none_right_eq_some, Option.some.injEq] at h
    obtain ⟨hstable, rfl⟩ := h
    show setEndState register state session = _
    rw [setEndState_eq]
    unfold Session.setEndState
    rw [if_pos hstable]
    cases register <;> rfl
  | setHeader register delta | setTrailer register delta => exact setPattern_of_setting h
  | _ => cases h

/-- A setting that ends well has been accepted. -/
theorem exists_setting
    (h : (execute instruction).Course session exchanges (.ok ()) session')
    (hslot : instruction.slot? = some slot) :
    ∃ setting, instruction.setting? session.registers = some setting := by
  have hpattern : ∀ {name : RegisterName} {delta : Pattern},
      Course (do let _ ← update name delta; Pure.pure ()) session exchanges (.ok ()) session' →
        ∃ setting, session.registers.setting? name delta = some setting := by
    intro name delta hcourse
    rcases setPattern_course hcourse with ⟨error, -, -, ⟨⟩, -⟩ | ⟨updated, hupdate, -, -, -⟩
    obtain ⟨stored, hmerge, -⟩ := Registers.update_eq_ok hupdate
    exact ⟨_, Registers.setting?_eq_some.mpr ⟨stored, hmerge, rfl⟩⟩
  cases instruction with
  | setEndState register state =>
    rcases setEndState_course h with ⟨error, -, -, ⟨⟩, -⟩ | ⟨updated, hset, -, -, -⟩
    obtain ⟨hstable, -⟩ := Session.setEndState_eq_ok hset
    exact ⟨_, if_pos hstable⟩
  | setHeader register delta | setTrailer register delta => exact hpattern h
  | _ => cases hslot

/-- An instruction that does not use a slot leaves what is stored there. -/
theorem get_registers_of_not_isUsedBy {result : Except Halt Unit}
    (h : (execute instruction).Course session exchanges result session') {name : RegisterName}
    (hunused : ¬ (Slot.pattern name).IsUsedBy instruction) :
    session'.registers.get name = session.registers.get name := by
  refine get_registers_eq h fun hchanges => hunused ?_
  cases instruction with
  | setHeader register delta | setTrailer register delta =>
    exact congrArg (Option.map Slot.pattern) hchanges
  | shift register delta label =>
    exact congrArg RegisterName.register (Option.some.inj hchanges)
  | _ => cases hchanges

end Player

end Accepted

end JtagPlayer
