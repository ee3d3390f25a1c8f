import JtagPlayer.Instruction.Reader
import JtagPlayer.Instruction.Writer
import JtagPlayer.Proofs.Hexadecimal

/-!
# Instructions and their members

The members that are written for an instruction lead back to it, whatever of its optional fields is
absent: `Instruction.ofContent_members`.

Each field is taken on its own. A list of members `Fills` what is known of the fields from one state
to another, lists of members are taken one after the other, and a member that is left out leaves its
field as absent as it is in the value.
-/

namespace JtagPlayer

open Json

namespace Json

/-! ## Fields -/

section Fields

variable {α σ : Type} {names : List String} {field : σ → String → Json → Except ReadFailure σ}
  {state state' state'' : σ}

/-- The fields of some members are taken, and lead from one state to another. -/
def Fills (names : List String) (field : σ → String → Json → Except ReadFailure σ) (state : σ)
    (members : List (String × Json)) (state' : σ) : Prop :=
  Content.fold names field state (.members members) = .ok state'

/-- Members that fill some fields may be followed by members that fill others. -/
theorem Fills.append {members more : List (String × Json)}
    (h : Fills names field state members state') (hmore : Fills names field state' more state'') :
    Fills names field state (members ++ more) state'' := by
  rw [Fills, Content.fold] at h hmore ⊢
  rw [List.filter_append, List.foldlM_append, h]
  exact hmore

/-- A member fills the field that has its name. -/
theorem Fills.single {name : String} {value : Json} (hname : name ∈ names)
    (h : field state name value = .ok state') :
    Fills names field state [(name, value)] state' := by
  have hcontains : names.contains name = true := by
    simp [hname]
  rw [Fills, Content.fold, List.filter_cons, if_pos hcontains, List.filter_nil]
  exact congrArg (· >>= pure) h

/-- A member that may be left out leads to a state that knows whether it was. -/
theorem Fills.optional {name : String} {json : α → Json} {value : Option α} (hname : name ∈ names)
    (hnone : value = none → state = state')
    (hsome : ∀ given, value = some given → field state name (json given) = .ok state') :
    Fills names field state (optional name json value) state' := by
  cases value with
  | none => exact congrArg Except.ok (hnone rfl)
  | some given => exact .single hname (hsome given rfl)

/-- What is known of a member that may be left out is the member itself. -/
theorem join_map_some (value : Option α) : (value.map some).join = value := by
  cases value <;> rfl

end Fields

/-! ## Values of fields -/

section Values

variable {α : Type}

/-- A field that has not been given takes its value. -/
theorem once_of_ok {decode : Json → Except ReadFailure α} {value : Json} {given : α}
    (h : decode value = .ok given) : once none decode value = .ok (some given) := by
  rw [once, h]
  rfl

theorem asOption_of_ok {decode : Json → Except ReadFailure α} {value : Json} {given : α}
    (hne : value ≠ .null) (h : decode value = .ok given) :
    asOption decode value = .ok (some given) := by
  unfold asOption
  split
  · exact absurd rfl hne
  · rw [h]
    rfl

/-- The name of a choice is decoded to the choice. -/
theorem asChoice_string {ofName? : String → Option α} {name : String} {choice : α}
    (h : ofName? name = some choice) : asChoice ofName? (.string name) = .ok choice := by
  delta asChoice
  dsimp only [Option.bind_some]
  rw [h]

theorem asState_toJson (state : TapState) :
    asChoice TapState.ofName? state.toJson = .ok state :=
  asChoice_string state.ofName?_name

theorem asOption_state (state : TapState) :
    asOption (asChoice TapState.ofName?) state.toJson = .ok (some state) :=
  asOption_of_ok nofun (asState_toJson state)

theorem asRegister_toJson (register : Register) :
    asChoice Register.ofName? register.toJson = .ok register :=
  asChoice_string register.ofName?_name

theorem asWord_ofNat (value : UInt32) : asWord (ofNat value.toNat) = .ok value := by
  have hrange : (0 : Int) ≤ value.toNat ∧ (value.toNat : Int) < UInt32.size :=
    ⟨Int.natCast_nonneg _, Int.ofNat_lt.mpr value.toNat_lt⟩
  rw [ofNat, asWord, if_pos hrange, Int.toNat_natCast, UInt32.ofNat_toNat]

/-- Bytes come back from their digits. -/
theorem asBytes_encode (bytes : List UInt8) :
    asBytes (.string (Hex.encode bytes)) = .ok bytes := by
  rw [asBytes, asString]
  dsimp only
  rw [Hex.decode_encode]

/-- A list is decoded item by item. -/
theorem asList_map {decode : Json → Except ReadFailure α} {json : α → Json}
    (h : ∀ value, decode (json value) = .ok value) (values : List α) :
    asList decode (.array (values.map json)) = .ok values := by
  show (values.map json).mapM decode = _
  induction values with
  | nil => rfl
  | cons value values ih =>
    rw [List.map_cons, List.mapM_cons, h, ih]
    rfl

end Values

end Json

/-! ## Patterns -/

namespace PatternFields

/-- The name of a byte string in a stream. -/
def key : PatternField → String
  | .tdi => "tdi"
  | .tdo => "tdo"
  | .mask => "mask"
  | .smask => "smask"

/-- The fields with one of the byte strings, or with nothing known of it. -/
def put (fields : PatternFields) (bytes : Option (List UInt8)) : PatternField → PatternFields
  | .tdi => { fields with tdi := bytes.map some }
  | .tdo => { fields with tdo := bytes.map some }
  | .mask => { fields with mask := bytes.map some }
  | .smask => { fields with smask := bytes.map some }

/-- A byte string that has not been given is taken from its member, if there is one. -/
theorem fills_put {fields : PatternFields} (field : PatternField) (bytes : Option (List UInt8))
    (h : fields.put none field = fields) :
    Fills names take fields (optional (key field) (fun bytes => .string (Hex.encode bytes)) bytes)
      (fields.put bytes field) := by
  have honce (given : List UInt8) :
      once none (asOption asBytes) (.string (Hex.encode given)) = .ok (some (some given)) :=
    once_of_ok (asOption_of_ok nofun (asBytes_encode given))
  refine .optional (by cases field <;> decide) (by rintro rfl; exact h.symm) ?_
  rintro given rfl
  rw [← h]
  cases field <;>
    · simp only [key, put, take, Option.map_none, honce]
      rfl

end PatternFields

/-- A pattern is recovered from its members. -/
theorem Json.asPattern_toJson (pattern : Pattern) : asPattern pattern.toJson = .ok pattern := by
  obtain ⟨length, tdi, tdo, mask, smask⟩ := pattern
  have hlength : Fills PatternFields.names PatternFields.take {} [("length", ofNat length.toNat)]
      { length := some length } := by
    refine .single (by decide) ?_
    simp only [PatternFields.take, once_of_ok (asWord_ofNat length)]
    rfl
  have htdi := hlength.append (PatternFields.fills_put .tdi tdi rfl)
  have htdo := htdi.append (PatternFields.fills_put .tdo tdo rfl)
  have hmask := htdo.append (PatternFields.fills_put .mask mask rfl)
  have hsmask := hmask.append (PatternFields.fills_put .smask smask rfl)
  refine (congrArg (· >>= PatternFields.toPattern) hsmask).trans ?_
  show Except.ok (Pattern.mk length _ _ _ _) = _
  simp only [PatternFields.put, join_map_some]

/-! ## Instructions -/

namespace InstructionKind

theorem ofName?_name (kind : InstructionKind) : ofName? kind.name = some kind := by
  cases kind <;> decide

end InstructionKind

namespace InstructionFields

/-- The members of an instruction of some kind lead from what has been read to more. -/
def Fill (kind : InstructionKind) (fields : InstructionFields) (members : List (String × Json))
    (fields' : InstructionFields) : Prop :=
  Fills kind.fieldNames take fields members fields'

variable {kind : InstructionKind}

theorem fill_register (hkind : "register" ∈ kind.fieldNames) (register : Register) :
    Fill kind {} [("register", register.toJson)] { register := some register } := by
  refine .single hkind ?_
  simp only [take, once_of_ok (asRegister_toJson register)]
  rfl

/-- A register and the pattern to scan through it. -/
theorem fill_scan (hregister : "register" ∈ kind.fieldNames)
    (hpattern : "pattern" ∈ kind.fieldNames) (register : Register) (pattern : Pattern) :
    Fill kind {} [("register", register.toJson), ("pattern", pattern.toJson)]
      { register := some register, pattern := some pattern } := by
  refine (fill_register hregister register).append (.single hpattern ?_)
  simp only [take, once_of_ok (asPattern_toJson pattern)]
  rfl

end InstructionFields

namespace Instruction

open InstructionFields

/-- An instruction is made of the fields that its members lead to. -/
theorem ofContent_of_fill {kind : InstructionKind} {members : List (String × Json)}
    {fields : InstructionFields} (h : Fill kind {} members fields) :
    ofContent kind.name (.members members) = fields.toInstruction kind := by
  unfold ofContent
  rw [kind.ofName?_name]
  exact congrArg (· >>= fun fields => fields.toInstruction kind) h

/-- The fields of a period of idling. -/
theorem fill_runTest (test : RunTest) :
    Fill .runTest {} (runTest test).members {
      runState := test.runState.map some
      runCount := some test.runCount
      minTime := some test.minTime
      maxTime := test.maxTime.map some
      endState := test.endState.map some } := by
  obtain ⟨runState, runCount, minTime, maxTime, endState⟩ := test
  have hrunState : Fill .runTest {} (optional "run_state" TapState.toJson runState)
      { runState := runState.map some } := by
    refine .optional (by decide) (by rintro rfl; rfl) ?_
    rintro given rfl
    simp only [take, once_of_ok (asOption_state given)]
    rfl
  have hrunCount : Fill .runTest { runState := runState.map some }
      [("run_count", ofNat runCount.toNat)]
      { runState := runState.map some, runCount := some runCount } := by
    refine .single (by decide) ?_
    simp only [take, once_of_ok (asWord_ofNat runCount)]
    rfl
  have hminTime : Fill .runTest { runState := runState.map some, runCount := some runCount }
      [("min_time", ofFloat minTime)]
      { runState := runState.map some, runCount := some runCount, minTime := some minTime } :=
    .single (by decide) rfl
  have hmaxTime : Fill .runTest
      { runState := runState.map some, runCount := some runCount, minTime := some minTime }
      (optional "max_time" ofFloat maxTime)
      { runState := runState.map some, runCount := some runCount, minTime := some minTime
        maxTime := maxTime.map some } := by
    refine .optional (by decide) (by rintro rfl; rfl) ?_
    rintro given rfl
    rfl
  have hendState : Fill .runTest
      { runState := runState.map some, runCount := some runCount, minTime := some minTime
        maxTime := maxTime.map some }
      (optional "end_state" TapState.toJson endState)
      { runState := runState.map some, runCount := some runCount, minTime := some minTime
        maxTime := maxTime.map some, endState := endState.map some } := by
    refine .optional (by decide) (by rintro rfl; rfl) ?_
    rintro given rfl
    simp only [take, once_of_ok (asOption_state given)]
    rfl
  exact ((hrunState.append (hrunCount.append hminTime)).append hmaxTime).append hendState

/-- The fields of a scan. -/
theorem fill_shift (register : Register) (pattern : Pattern) (label : Option String) :
    Fill .shift {} (shift register pattern label).members
      { register := some register, pattern := some pattern, label := label.map some } := by
  have hscan : Fill .shift {} [("register", register.toJson), ("pattern", pattern.toJson)]
      { register := some register, pattern := some pattern } :=
    fill_scan (by decide) (by decide) register pattern
  have hlabel : Fill .shift { register := some register, pattern := some pattern }
      (optional "label" Json.string label)
      { register := some register, pattern := some pattern, label := label.map some } := by
    refine .optional (by decide) (by rintro rfl; rfl) ?_
    rintro given rfl
    rfl
  exact hscan.append hlabel

/-- The fields of a way through the states. -/
theorem fill_goToState (target : TapState) (path : Option (List TapState)) :
    Fill .goToState {} (goToState target path).members
      { target := some target, path := path.map some } := by
  have hstates (states : List TapState) : asOption (asList (asChoice TapState.ofName?))
      (.array (states.map TapState.toJson)) = .ok (some states) :=
    asOption_of_ok nofun (asList_map asState_toJson states)
  have htarget : Fill .goToState {} [("target", target.toJson)] { target := some target } := by
    refine .single (by decide) ?_
    simp only [take, once_of_ok (asState_toJson target)]
    rfl
  have hpath : Fill .goToState { target := some target }
      (optional "path" (fun path => .array (path.map TapState.toJson)) path)
      { target := some target, path := path.map some } := by
    refine .optional (by decide) (by rintro rfl; rfl) ?_
    rintro given rfl
    simp only [take, once_of_ok (hstates given)]
    rfl
  exact htarget.append hpath

/-- An instruction is recovered from its kind and its members. -/
theorem ofContent_members (instruction : Instruction) :
    ofContent instruction.kindName (.members instruction.members) = .ok instruction := by
  cases instruction with
  | setEndState register state =>
    have hstate : Fill .setEndState { register := some register } [("state", state.toJson)]
        { register := some register, state := some state } := by
      refine .single (by decide) ?_
      simp only [take, once_of_ok (asState_toJson state)]
      rfl
    exact ofContent_of_fill ((fill_register (by decide) register).append hstate)
  | setFrequency hz =>
    have hhz : Fill .setFrequency {} [("hz", ofFloat hz)] { hz := some hz } :=
      .single (by decide) rfl
    exact ofContent_of_fill hhz
  | setHeader register pattern =>
    have hscan : Fill .setHeader {} (setHeader register pattern).members
        { register := some register, pattern := some pattern } :=
      fill_scan (by decide) (by decide) register pattern
    exact ofContent_of_fill hscan
  | setTrailer register pattern =>
    have hscan : Fill .setTrailer {} (setTrailer register pattern).members
        { register := some register, pattern := some pattern } :=
      fill_scan (by decide) (by decide) register pattern
    exact ofContent_of_fill hscan
  | shift register pattern label =>
    refine (ofContent_of_fill (fill_shift register pattern label)).trans ?_
    show Except.ok (shift register pattern (label.map some).join) = _
    rw [join_map_some]
  | runTest test =>
    refine (ofContent_of_fill (fill_runTest test)).trans ?_
    simp only [toInstruction, join_map_some]
    rfl
  | goToState target path =>
    refine (ofContent_of_fill (fill_goToState target path)).trans ?_
    show Except.ok (goToState target (path.map some).join) = _
    rw [join_map_some]
  | unsupported command =>
    have hcommand : Fill .unsupported {} [("command", .string command.name)]
        { command := some command } := by
      refine .single (by decide) ?_
      simp only [take, once_of_ok (asChoice_string command.ofName?_name)]
      rfl
    exact ofContent_of_fill hcommand
  | unknown => rfl

end Instruction

end JtagPlayer
