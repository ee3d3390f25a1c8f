import JtagPlayer.Instruction.Reader
import JtagPlayer.Proofs.Finiteness
import JtagPlayer.Proofs.Merging

/-!
# What readers yield

A reader `Yields` a property if every value that it takes has it. The property passes from the items
to an array and from the values of the members to an object, so that a value that is read holds
finite numbers only: `Json.valueReader_yields`. From this it follows, field by field, that the
numbers of an instruction stream are finite, and that is `Program.isFinite_of_read`.
-/

namespace JtagPlayer

/-- Whatever a reader takes has a property. -/
def Reader.Yields {α : Type} (reader : Reader α) (P : α → Prop) : Prop :=
  ∀ ⦃text value rest⦄, reader.read text = .ok (value, rest) → P value

/-- What is made of a value has a property that follows from the one of the value. -/
theorem Reader.Yields.map {α β : Type} {reader : Reader α} {P : α → Prop} {Q : β → Prop}
    {f : α → β} (h : reader.Yields P) (hmap : ∀ value, P value → Q (f value)) :
    (reader.map f).Yields Q := by
  intro text value rest hread
  dsimp only [Reader.map] at hread
  split at hread
  · cases hread
    exact hmap _ (h ‹_›)
  · cases hread

namespace Json

/-! ## Arrays and objects -/

section Arrays

variable {α : Type} {item : Reader α} {P : α → Prop} {text rest : List UInt8} {items : List α}

/-- The items behind the first one have the property that an item has. -/
theorem forall_mem_of_readMore (h : item.Yields P)
    (hread : readMore item text = .ok (items, rest)) : ∀ value ∈ items, P value := by
  fun_induction readMore item text generalizing items rest with
  | case1 | case3 | case4 | case6 => cases hread
  | case2 =>
    cases hread
    exact List.forall_mem_nil _
  | case5 text after first afterFirst hitem more afterMore hmore hspace _ ih =>
    cases hread
    exact List.forall_mem_cons.mpr ⟨h hitem, ih hmore⟩

theorem forall_mem_of_readItems (h : item.Yields P)
    (hread : readItems item text = .ok (items, rest)) : ∀ value ∈ items, P value := by
  unfold readItems at hread
  repeat' split at hread
  all_goals cases hread
  · exact List.forall_mem_nil _
  · exact List.forall_mem_cons.mpr ⟨h ‹_›, forall_mem_of_readMore h ‹_›⟩

/-- Each item of an array has the property that an item has. -/
theorem arrayReader_yields (h : item.Yields P) :
    (arrayReader item).Yields fun items => ∀ value ∈ items, P value := by
  intro text items rest hread
  dsimp only [arrayReader] at hread
  repeat' split at hread
  all_goals first
    | exact forall_mem_of_readItems h hread
    | cases hread

end Arrays

section Objects

variable {σ : Type} {value : σ → String → Except ReadFailure (Reader σ)} {P : σ → Prop}
  {state result : σ} {text rest : List UInt8}

/-- What every member preserves holds after all of them. -/
theorem of_readMembers
    (h : ∀ state name reader, P state → value state name = .ok reader → reader.Yields P)
    (hstate : P state) (hread : readMembers value state text = .ok (result, rest)) : P result := by
  fun_induction readMembers value state text with
  | case1 | case2 | case3 | case4 | case5 | case8 => cases hread
  | case6 state text name afterName hname reader hreader afterColon hcolon state' afterValue
      hvalue =>
    cases hread
    exact h state name reader hstate hreader hvalue
  | case7 state text name afterName hname reader hreader afterColon hcolon state' afterValue hvalue
      after hspace _ ih =>
    exact ih (h state name reader hstate hreader hvalue) hread

/-- What every member preserves holds of the whole object. -/
theorem of_readObject
    (h : ∀ state name reader, P state → value state name = .ok reader → reader.Yields P)
    (hstate : P state) (hread : readObject value state text = .ok (result, rest)) : P result := by
  unfold readObject at hread
  repeat' split at hread
  · cases hread
  · cases hread
    exact hstate
  · exact of_readMembers h hstate hread

end Objects

/-! ## Values -/

/-- A value that holds finite numbers only. -/
inductive Finite : Json → Prop where
  | null : Finite .null
  | bool (value : Bool) : Finite (.bool value)
  | number {value : Number} (h : value.toFloat.isFinite = true) : Finite (.number value)
  | string (value : String) : Finite (.string value)
  | array {items : List Json} (h : ∀ item ∈ items, Finite item) : Finite (.array items)
  | object {members : List (String × Json)} (h : ∀ member ∈ members, Finite member.2) :
      Finite (.object members)

/-- A number that is read is finite, and nothing else that holds no other values has numbers. -/
theorem finite_of_readScalar {text rest : List UInt8} {value : Json}
    (h : readScalar text = .ok (value, rest)) : value.Finite := by
  unfold readScalar at h
  repeat' split at h
  all_goals cases h
  · exact .null
  · exact .bool true
  · exact .bool false
  · exact .string _
  · exact .number (Lexical.isFinite_of_readNumber ‹_›)

/-- Members that are collected hold finite numbers if the values do. -/
theorem memberReader_yields {item : Reader Json} (h : item.Yields Finite)
    (members : List (String × Json)) (name : String) (reader : Reader (List (String × Json)))
    (hmembers : ∀ member ∈ members, member.2.Finite)
    (hreader : memberReader item members name = .ok reader) :
    reader.Yields fun members => ∀ member ∈ members, member.2.Finite := by
  cases hreader
  exact h.map fun value hvalue => List.forall_mem_cons.mpr ⟨hvalue, hmembers⟩

/-- An object holds finite numbers if the values in it do. -/
theorem finite_of_readObject {item : Reader Json} (h : item.Yields Finite)
    {text rest : List UInt8} {members : List (String × Json)}
    (hread : readObject (memberReader item) [] text = .ok (members, rest)) :
    (Json.object members.reverse).Finite := by
  have hmembers : ∀ member ∈ members, member.2.Finite :=
    of_readObject (memberReader_yields h) (List.forall_mem_nil _) hread
  exact .object fun member hmem => hmembers member (List.mem_reverse.mp hmem)

/-- A value holds what the reader for the values in it yields. -/
theorem nestedReader_yields {item : Option (Reader Json)}
    (h : ∀ reader, item = some reader → reader.Yields Finite) :
    (nestedReader item).Yields Finite := by
  intro text value rest hread
  dsimp only [nestedReader] at hread
  unfold readValue at hread
  repeat' split at hread
  all_goals first
    | exact finite_of_readScalar hread
    | cases hread
  · exact .array (forall_mem_of_readItems (h _ rfl) ‹_›)
  · exact finite_of_readObject (h _ rfl) ‹_›

/-- Values that are read hold finite numbers only. -/
theorem valueReader_yields (levels : Nat) : (valueReader levels).Yields Finite := by
  induction levels with
  | zero => exact nestedReader_yields fun reader hreader => by cases hreader
  | succ levels ih =>
    refine nestedReader_yields fun reader hreader => ?_
    cases hreader
    exact ih

/-! ## Fields -/

section Fields

variable {α : Type} {P : α → Prop} {decode : Json → Except ReadFailure α} {value : Json}

/-- A number taken from a finite value is finite. -/
theorem isFinite_of_asFloat {x : Float} (h : value.Finite) (hx : asFloat value = .ok x) :
    x.isFinite = true := by
  cases h with
  | number h =>
    cases hx
    exact h
  | null | bool | string | array | object => cases hx

/-- A property of all that can be decoded holds of what is decoded where it may be left out. -/
theorem forall_of_asOption {given : Option α} (h : ∀ x, decode value = .ok x → P x)
    (hgiven : asOption decode value = .ok given) : ∀ x ∈ given, P x := by
  unfold asOption at hgiven
  split at hgiven
  · cases hgiven
    nofun
  · cases hdecode : decode value with
    | error failure =>
      rw [hdecode] at hgiven
      cases hgiven
    | ok x =>
      rw [hdecode] at hgiven
      cases hgiven
      exact fun y hy => Option.mem_some.mp hy ▸ h x hdecode

/-- It also holds of a field that is given at most once. -/
theorem forall_of_once {before after : Option α} (h : ∀ x, decode value = .ok x → P x)
    (hafter : once before decode value = .ok after) : ∀ x ∈ after, P x := by
  cases before with
  | some _ => cases hafter
  | none =>
    cases hdecode : decode value with
    | error failure =>
      rw [once, hdecode] at hafter
      cases hafter
    | ok x =>
      rw [once, hdecode] at hafter
      cases hafter
      exact fun y hy => Option.mem_some.mp hy ▸ h x hdecode

/-- The values of all fields hold finite numbers only. -/
def Content.Finite : Content → Prop
  | .members given => ∀ member ∈ given, member.2.Finite
  | .items given => ∀ value ∈ given, value.Finite

/-- What each step preserves holds after all of them. -/
theorem of_foldlM {σ β : Type} {Q : σ → Prop} {step : σ → β → Except ReadFailure σ}
    {steps : List β} {state result : σ}
    (h : ∀ state, ∀ x ∈ steps, ∀ result, Q state → step state x = .ok result → Q result)
    (hstate : Q state) (hfold : steps.foldlM step state = .ok result) : Q result := by
  induction steps generalizing state with
  | nil =>
    cases hfold
    exact hstate
  | cons x steps ih =>
    rw [List.foldlM_cons] at hfold
    obtain ⟨next, hnext, hfold⟩ := bind_eq_ok hfold
    exact ih (fun state y hy => h state y (List.mem_cons_of_mem x hy))
      (h state x List.mem_cons_self next hstate hnext) hfold

/-- What each field preserves holds after all of them. -/
theorem Content.of_fold {σ : Type} {Q : σ → Prop} {names : List String}
    {field : σ → String → Json → Except ReadFailure σ} {content : Content} {state result : σ}
    (hfield : ∀ state name value result, Q state → value.Finite →
      field state name value = .ok result → Q result)
    (hcontent : content.Finite) (hstate : Q state)
    (h : content.fold names field state = .ok result) : Q result := by
  cases content with
  | members given =>
    refine of_foldlM (fun state member hmember result hstate hstep => ?_) hstate h
    exact hfield state _ _ result hstate (hcontent member (List.mem_filter.mp hmember).1) hstep
  | items given =>
    obtain ⟨folded, hfold, h⟩ := bind_eq_ok h
    have hfolded : Q folded := by
      refine of_foldlM (fun state member hmember result hstate hstep => ?_) hstate hfold
      exact hfield state _ _ result hstate (hcontent _ (List.of_mem_zip hmember).2) hstep
    dsimp only at h
    split at h
    · cases h
    · cases h
      exact hfolded

end Fields

end Json

open Json

namespace InstructionFields

/-- The fields that hold numbers hold finite ones. -/
structure Finite (fields : InstructionFields) : Prop where
  hz : ∀ x ∈ fields.hz, x.isFinite = true
  minTime : ∀ x ∈ fields.minTime, x.isFinite = true
  maxTime : ∀ x? ∈ fields.maxTime, ∀ x ∈ x?, x.isFinite = true

theorem finite_empty : Finite {} where
  hz _ h := by cases h
  minTime _ h := by cases h
  maxTime _ h := by cases h

/-- Fields stay finite when a member with a finite value is taken. -/
theorem finite_take {fields result : InstructionFields} {name : String} {value : Json}
    (hfields : fields.Finite) (hvalue : value.Finite) (h : fields.take name value = .ok result) :
    result.Finite := by
  unfold take at h
  dsimp only at h
  split at h
  case h_3 =>
    obtain ⟨hz, hhz, h⟩ := bind_eq_ok h
    cases h
    exact ⟨forall_of_once (fun x => isFinite_of_asFloat hvalue) hhz, hfields.minTime,
      hfields.maxTime⟩
  case h_8 =>
    obtain ⟨minTime, hminTime, h⟩ := bind_eq_ok h
    cases h
    exact ⟨hfields.hz, forall_of_once (fun x => isFinite_of_asFloat hvalue) hminTime,
      hfields.maxTime⟩
  case h_9 =>
    obtain ⟨maxTime, hmaxTime, h⟩ := bind_eq_ok h
    cases h
    exact ⟨hfields.hz, hfields.minTime, forall_of_once
      (fun x? => forall_of_asOption fun x => isFinite_of_asFloat hvalue) hmaxTime⟩
  case h_14 =>
    cases h
    exact hfields
  all_goals
    obtain ⟨_, -, h⟩ := bind_eq_ok h
    cases h
    exact ⟨hfields.hz, hfields.minTime, hfields.maxTime⟩

end InstructionFields

/-! ## Instructions -/

namespace Instruction

/-- The numbers in double precision that an instruction holds. -/
def numbers : Instruction → List Float
  | setFrequency hz => [hz]
  | runTest test => test.minTime :: test.maxTime.toList
  | _ => []

/-- Finite fields make an instruction with finite numbers, whichever kind it is of. -/
theorem isFinite_of_toInstruction {fields : InstructionFields} {kind : InstructionKind}
    {instruction : Instruction} (hfields : fields.Finite)
    (h : fields.toInstruction kind = .ok instruction) :
    ∀ x ∈ instruction.numbers, x.isFinite = true := by
  cases kind with
  | setFrequency =>
    obtain ⟨hz, hrequired, h⟩ := bind_eq_ok h
    cases h
    have hgiven : hz ∈ fields.hz := by
      cases hhz : fields.hz with
      | none =>
        rw [hhz] at hrequired
        cases hrequired
      | some given =>
        rw [hhz] at hrequired
        cases hrequired
        rfl
    exact List.forall_mem_singleton.mpr (hfields.hz hz hgiven)
  | runTest =>
    cases h
    have hzero : (0 : Float).isFinite = true := by decide +kernel
    refine List.forall_mem_cons.mpr ⟨?_, fun x hx => ?_⟩
    · cases hminTime : fields.minTime with
      | none => exact hzero
      | some given => exact hfields.minTime given hminTime
    · have hx : fields.maxTime = some (some x) :=
        Option.join_eq_some_iff.mp (Option.mem_toList.mp hx)
      exact hfields.maxTime (some x) hx x rfl
  | setEndState | setHeader | setTrailer | shift =>
    obtain ⟨_, -, h⟩ := bind_eq_ok h
    obtain ⟨_, -, h⟩ := bind_eq_ok h
    cases h
    nofun
  | goToState | unsupported =>
    obtain ⟨_, -, h⟩ := bind_eq_ok h
    cases h
    nofun

/-- The numbers of an instruction are finite if those of its fields are. -/
theorem isFinite_of_ofContent {kind : String} {content : Content} {instruction : Instruction}
    (hcontent : content.Finite) (h : ofContent kind content = .ok instruction) :
    ∀ x ∈ instruction.numbers, x.isFinite = true := by
  unfold ofContent at h
  split at h
  · obtain ⟨fields, hfold, h⟩ := bind_eq_ok h
    have hfields : fields.Finite :=
      Content.of_fold (fun _ _ _ _ hfields hvalue => InstructionFields.finite_take hfields hvalue)
        hcontent InstructionFields.finite_empty hfold
    exact isFinite_of_toInstruction hfields h
  · split at h
    · cases h
    · cases h
      nofun

/-- The members collected for an instruction that is not yet complete are finite. -/
theorem draftReader_yields {item : Reader Json} (h : item.Yields Json.Finite) (draft : Draft)
    (name : String) (reader : Reader Draft) (hdraft : ∀ member ∈ draft.members, member.2.Finite)
    (hreader : draftReader item draft name = .ok reader) :
    reader.Yields fun draft => ∀ member ∈ draft.members, member.2.Finite := by
  unfold draftReader at hreader
  repeat' split at hreader
  · cases hreader
  · cases hreader
    exact Reader.Yields.map (P := fun _ => True) (fun _ _ _ _ => trivial) fun kind _ => hdraft
  · cases hreader
    exact h.map fun value hvalue => List.forall_mem_cons.mpr ⟨hvalue, hdraft⟩

section Forms

variable {item : Reader Json} {text rest : List UInt8} {instruction : Instruction}

/-- An instruction written as an array has finite numbers. -/
theorem isFinite_of_readItemForm (h : item.Yields Json.Finite)
    (hread : readItemForm item text = .ok (instruction, rest)) :
    ∀ x ∈ instruction.numbers, x.isFinite = true := by
  unfold readItemForm at hread
  repeat' split at hread
  all_goals cases hread
  rename_i items _ hcontent hitems
  have hfinite : (Content.items items).Finite := forall_mem_of_readMore h hitems
  exact isFinite_of_ofContent hfinite hcontent

/-- An instruction written as an object has finite numbers. -/
theorem isFinite_of_readMemberForm (h : item.Yields Json.Finite)
    (hread : readMemberForm item text = .ok (instruction, rest)) :
    ∀ x ∈ instruction.numbers, x.isFinite = true := by
  unfold readMemberForm at hread
  split at hread
  · cases hread
  rename_i draft afterDraft hobject
  have hdraft : ∀ member ∈ draft.members, member.2.Finite :=
    of_readObject (draftReader_yields h) (List.forall_mem_nil _) hobject
  have hfinite : (Content.members draft.members.reverse).Finite :=
    fun member hmem => hdraft member (List.mem_reverse.mp hmem)
  repeat' split at hread
  all_goals cases hread
  exact isFinite_of_ofContent hfinite ‹_›

/-- The numbers of an instruction that is read are finite. -/
theorem reader_yields (h : item.Yields Json.Finite) :
    (reader item).Yields fun instruction => ∀ x ∈ instruction.numbers, x.isFinite = true := by
  intro text instruction rest hread
  dsimp only [reader] at hread
  repeat' split at hread
  · cases hread
  · exact isFinite_of_readItemForm h hread
  · exact isFinite_of_readMemberForm h hread
  · cases hread

end Forms

end Instruction

/-- The numbers of an instruction stream that is read are finite. -/
theorem Program.isFinite_of_read {text : List UInt8} {program : List Instruction}
    (h : read text = .ok program) :
    ∀ instruction ∈ program, ∀ x ∈ instruction.numbers, x.isFinite = true := by
  unfold read readDocument at h
  repeat' split at h
  all_goals cases h
  exact arrayReader_yields (Instruction.reader_yields (valueReader_yields _)) ‹_›

end JtagPlayer
