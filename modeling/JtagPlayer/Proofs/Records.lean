import JtagPlayer.Proofs.Members
import JtagPlayer.Proofs.Merging
import Mathlib.Logic.Function.Basic

/-!
# Fields in any order

The fields of a record are taken one by one. A `FieldTable` gives what is known of each of them by a
key, and says that taking a field of some name changes what is known under its key, if nothing was
known there before, and nothing else. So it does not matter in which order fields are taken.

`Json.Rearranged` relates the members of objects that tell the same: their order, members that are
no fields, and nulls for optional fields that are absent make no difference.
`FieldTable.read_rearranged` says so of any record that has a table, with the table of patterns as
its first case and that of instructions as its second.
-/

namespace JtagPlayer

open Json

/-- What is known of the fields of a record, by keys, and how a field is taken. -/
structure FieldTable {σ : Type} (take : σ → String → Json → Except ReadFailure σ) where
  Key : Type
  decEq : DecidableEq Key
  Value : Key → Type
  name : Key → String
  decode : (key : Key) → Json → Except ReadFailure (Value key)
  get : σ → (key : Key) → Option (Value key)
  make : ((key : Key) → Option (Value key)) → σ
  get_make : ∀ known, get (make known) = known
  take_name : ∀ fields key value, take fields (name key) value =
    (once (get fields key) (decode key) value).map fun given =>
      make (Function.update (get fields) key given)

namespace FieldTable

variable {σ α : Type} {take : σ → String → Json → Except ReadFailure σ} (table : FieldTable take)

instance : DecidableEq table.Key := table.decEq

/-- The fields with a value that has been taken. -/
def put (fields : σ) (key : table.Key) (given : table.Value key) : σ :=
  table.make (Function.update (table.get fields) key (some given))

theorem get_put_self (fields : σ) (key : table.Key) (given : table.Value key) :
    table.get (table.put fields key given) key = some given := by
  rw [put, table.get_make, Function.update_self]

theorem get_put_of_ne (fields : σ) {key other : table.Key} (given : table.Value key)
    (hother : other ≠ key) :
    table.get (table.put fields key given) other = table.get fields other := by
  rw [put, table.get_make, Function.update_of_ne hother]

theorem put_comm (fields : σ) {key other : table.Key} (given : table.Value key)
    (given' : table.Value other) (hne : key ≠ other) :
    table.put (table.put fields key given) other given' =
      table.put (table.put fields other given') key given := by
  simp only [put, table.get_make]
  rw [Function.update_comm hne]

/-- A field is taken if it can be decoded and nothing is known of it. -/
theorem take_eq_ok {fields fields' : σ} {key : table.Key} {value : Json} :
    take fields (table.name key) value = .ok fields' ↔
      table.get fields key = none ∧
        ∃ given, table.decode key value = .ok given ∧ fields' = table.put fields key given := by
  rw [table.take_name]
  unfold once
  cases table.get fields key with
  | some before => exact ⟨nofun, nofun⟩
  | none =>
    cases hdecode : table.decode key value with
    | error failure => exact ⟨nofun, nofun⟩
    | ok given =>
      refine ⟨fun h => ⟨rfl, given, rfl, ?_⟩, ?_⟩
      · cases h
        rfl
      · rintro ⟨-, given, ⟨⟩, rfl⟩
        rfl

/-- Two fields can be taken in either order. -/
theorem take_comm {fields fields' fields'' : σ} {key key' : table.Key} {value value' : Json}
    (h : take fields (table.name key) value = .ok fields')
    (h' : take fields' (table.name key') value' = .ok fields'') :
    ∃ middle, take fields (table.name key') value' = .ok middle ∧
      take middle (table.name key) value = .ok fields'' := by
  obtain ⟨hnone, given, hgiven, rfl⟩ := table.take_eq_ok.mp h
  obtain ⟨hnone', given', hgiven', rfl⟩ := table.take_eq_ok.mp h'
  have hne : key' ≠ key := by
    rintro rfl
    rw [table.get_put_self] at hnone'
    cases hnone'
  rw [table.get_put_of_ne _ _ hne] at hnone'
  refine ⟨_, table.take_eq_ok.mpr ⟨hnone', given', hgiven', rfl⟩,
    table.take_eq_ok.mpr ⟨?_, given, hgiven, table.put_comm _ _ _ hne.symm⟩⟩
  rw [table.get_put_of_ne _ _ hne.symm, hnone]

/-- All fields of some members are taken, one after the other. -/
inductive TakesAll (take : σ → String → Json → Except ReadFailure σ) :
    σ → List (String × Json) → σ → Prop where
  | nil (fields : σ) : TakesAll take fields [] fields
  | cons {fields name value middle members fields'} (htake : take fields name value = .ok middle)
    (hmore : TakesAll take middle members fields') :
    TakesAll take fields ((name, value) :: members) fields'

theorem takesAll_iff {fields fields' : σ} {members : List (String × Json)} :
    TakesAll take fields members fields' ↔
      members.foldlM (fun fields (name, value) => take fields name value) fields = .ok fields' := by
  refine ⟨fun h => ?_, fun h => ?_⟩
  · induction h with
    | nil fields => rfl
    | cons htake hmore ih =>
      rw [List.foldlM_cons]
      exact (congrArg (· >>= _) htake).trans ih
  · induction members generalizing fields with
    | nil =>
      cases h
      exact .nil _
    | cons member members ih =>
      obtain ⟨middle, htake, hmore⟩ := bind_eq_ok (List.foldlM_cons.symm.trans h)
      exact .cons htake (ih hmore)

/-- Members in a row are taken one after the other. -/
theorem TakesAll.append {fields middle fields' : σ} {first second : List (String × Json)}
    (hfirst : TakesAll take fields first middle) (hsecond : TakesAll take middle second fields') :
    TakesAll take fields (first ++ second) fields' := by
  induction hfirst with
  | nil fields => exact hsecond
  | cons htake hmore ih => exact .cons htake (ih hsecond)

/-- Where members in a row were taken, there are fields in between. -/
theorem exists_of_takesAll_append {fields fields' : σ} {first second : List (String × Json)}
    (h : TakesAll take fields (first ++ second) fields') :
    ∃ middle, TakesAll take fields first middle ∧ TakesAll take middle second fields' := by
  induction first generalizing fields with
  | nil => exact ⟨fields, .nil fields, h⟩
  | cons member first ih =>
    cases h with
    | cons htake hmore =>
      obtain ⟨middle, hfirst, hsecond⟩ := ih hmore
      exact ⟨middle, .cons htake hfirst, hsecond⟩

/-- All names of some members are names of fields. -/
def Names (members : List (String × Json)) : Prop :=
  ∀ member ∈ members, ∃ key, table.name key = member.1

variable {fields fields' : σ} {members members' : List (String × Json)}

/-- The order of fields makes no difference. -/
theorem takesAll_perm (hperm : members.Perm members') (hnames : table.Names members)
    (h : TakesAll take fields members fields') : TakesAll take fields members' fields' := by
  induction hperm generalizing fields with
  | nil => exact h
  | cons member hperm ih =>
    cases h with
    | cons htake hmore => exact .cons htake (ih (List.forall_mem_cons.mp hnames).2 hmore)
  | swap second first members =>
    obtain ⟨⟨key, hkey⟩, hnames⟩ := List.forall_mem_cons.mp hnames
    obtain ⟨⟨key', hkey'⟩, -⟩ := List.forall_mem_cons.mp hnames
    cases h with
    | cons htake hmore =>
      cases hmore with
      | cons htake' hmore =>
        subst hkey hkey'
        obtain ⟨other, hother, hother'⟩ := table.take_comm htake htake'
        exact .cons hother (.cons hother' hmore)
  | trans hfirst hsecond ih ih' =>
    exact ih' (fun member hmem => hnames member (hfirst.mem_iff.mpr hmem)) (ih hnames h)

/-- Of a field that is not among some members nothing more is known after them. -/
theorem get_of_takesAll {key : table.Key} (hnames : table.Names members)
    (hnew : ∀ member ∈ members, member.1 ≠ table.name key)
    (h : TakesAll take fields members fields') : table.get fields' key = table.get fields key := by
  induction h with
  | nil fields => rfl
  | cons htake _ ih =>
    obtain ⟨⟨other, hother⟩, hnames'⟩ := List.forall_mem_cons.mp hnames
    obtain ⟨hfirst, hnew'⟩ := List.forall_mem_cons.mp hnew
    subst hother
    obtain ⟨-, given, -, rfl⟩ := table.take_eq_ok.mp htake
    rw [ih hnames' hnew']
    exact table.get_put_of_ne _ _ fun heq => hfirst (heq ▸ rfl)

/-- A value may be replaced by one that is decoded to the same. -/
theorem takesAll_replaced (key : table.Key) {value value' : Json}
    (hdecode : ∀ given, table.decode key value = .ok given → table.decode key value' = .ok given)
    {before after : List (String × Json)}
    (h : TakesAll take fields (before ++ (table.name key, value) :: after) fields') :
    TakesAll take fields (before ++ (table.name key, value') :: after) fields' := by
  obtain ⟨middle, hbefore, hrest⟩ := exists_of_takesAll_append h
  cases hrest with
  | cons htake hafter =>
    obtain ⟨hnone, given, hgiven, hput⟩ := table.take_eq_ok.mp htake
    have htake' := table.take_eq_ok.mpr ⟨hnone, given, hdecode given hgiven, hput⟩
    exact hbefore.append (.cons htake' hafter)

end FieldTable

namespace Json

/-- The members of an object with some fields may be rearranged: their order changes, members that
are no fields are added, and members with the value null for absent optional fields. -/
inductive Rearranged (names optional : List String) :
    List (String × Json) → List (String × Json) → Prop where
  | perm {members members'} (hperm : members.Perm members') :
    Rearranged names optional members members'
  | extra {name} (value) {members} (hname : name ∉ names) :
    Rearranged names optional members ((name, value) :: members)
  | null {name members} (hname : name ∈ optional)
    (hnew : ∀ member ∈ members, member.1 ≠ name) :
    Rearranged names optional members ((name, .null) :: members)
  | trans {members members' members''} (h : Rearranged names optional members members')
    (h' : Rearranged names optional members' members'') :
    Rearranged names optional members members''

end Json

namespace FieldTable

variable {σ α : Type} {take : σ → String → Json → Except ReadFailure σ} (table : FieldTable take)
  {fields fields' : σ}

/-- A field of which it makes no difference for the result whether it is absent or null. -/
def MayBeNull (finish : σ → Except ReadFailure α) (name : String) : Prop :=
  ∃ key given, table.name key = name ∧ table.decode key .null = .ok given ∧
    ∀ fields, table.get fields key = none → finish (table.put fields key given) = finish fields

/-- What is made of the members of an object. -/
def read (names : List String) (take : σ → String → Json → Except ReadFailure σ) (empty : σ)
    (finish : σ → Except ReadFailure α) (members : List (String × Json)) : Except ReadFailure α :=
  (Content.members members).fold names take empty >>= finish

/-- A record is read from the members that have the name of a field. -/
theorem read_eq_ok {names : List String} {empty : σ} {finish : σ → Except ReadFailure α}
    {members : List (String × Json)} {result : α} :
    read names take empty finish members = .ok result ↔
      ∃ fields, TakesAll take empty (members.filter fun member => names.contains member.1) fields ∧
        finish fields = .ok result := by
  refine ⟨fun h => ?_, fun ⟨fields, hfields, hfinish⟩ => ?_⟩
  · obtain ⟨fields, hfields, hfinish⟩ := bind_eq_ok h
    exact ⟨fields, takesAll_iff.mpr hfields, hfinish⟩
  · rw [read, Content.fold, takesAll_iff.mp hfields]
    exact hfinish

/-- A member may have another value that is decoded to the same. -/
theorem read_replaced (key : table.Key) {names : List String} {empty : σ}
    {finish : σ → Except ReadFailure α} {value value' : Json}
    (hdecode : ∀ given, table.decode key value = .ok given → table.decode key value' = .ok given)
    {before after : List (String × Json)} {result : α}
    (hread : read names take empty finish (before ++ (table.name key, value) :: after) =
      .ok result) :
    read names take empty finish (before ++ (table.name key, value') :: after) = .ok result := by
  obtain ⟨fields, hfields, hfinish⟩ := read_eq_ok.mp hread
  refine read_eq_ok.mpr ⟨fields, ?_, hfinish⟩
  by_cases hname : names.contains (table.name key) = true
  · simp only [List.filter_append, List.filter_cons, if_pos hname] at hfields ⊢
    exact table.takesAll_replaced key hdecode hfields
  · simp only [List.filter_append, List.filter_cons, if_neg hname] at hfields ⊢
    exact hfields

/-- The items of an array are taken as the fields in order, if there are not too many. -/
theorem fold_items_eq_ok {names : List String} {given : List Json} {fields fields' : σ} :
    (Content.items given).fold names take fields = .ok fields' ↔
      TakesAll take fields (names.zip given) fields' ∧ ¬ names.length < given.length := by
  rw [takesAll_iff, Content.fold]
  cases (names.zip given).foldlM (fun fields (name, value) => take fields name value) fields with
  | error failure =>
    refine ⟨fun h => ?_, fun h => ?_⟩
    · cases h
    · cases h.1
  | ok taken =>
    by_cases hlength : names.length < given.length
    · refine ⟨fun h => ?_, fun h => absurd hlength h.2⟩
      simp only [if_pos hlength] at h
      cases h
    · simp only [if_neg hlength]
      exact ⟨fun h => ⟨h, hlength⟩, And.left⟩

/-- An item may be another value that is decoded to the same. -/
theorem fold_items_replaced (key : table.Key) {names : List String} {value value' : Json}
    (hdecode : ∀ given, table.decode key value = .ok given → table.decode key value' = .ok given)
    {before after : List Json} (hname : names[before.length]? = some (table.name key))
    (h : (Content.items (before ++ value :: after)).fold names take fields = .ok fields') :
    (Content.items (before ++ value' :: after)).fold names take fields = .ok fields' := by
  obtain ⟨first, second, rfl, hlength⟩ : ∃ first second,
      names = first ++ table.name key :: second ∧ first.length = before.length := by
    obtain ⟨hlt, hget⟩ := List.getElem?_eq_some_iff.mp hname
    refine ⟨names.take before.length, names.drop (before.length + 1), ?_,
      List.length_take_of_le (Nat.le_of_lt hlt)⟩
    rw [← hget, List.getElem_cons_drop, List.take_append_drop]
  rw [fold_items_eq_ok, List.zip_append hlength, List.zip_cons_cons] at h ⊢
  refine ⟨table.takesAll_replaced key hdecode h.1, ?_⟩
  simpa using h.2

/-- Rearranging members makes no difference. -/
theorem read_rearranged {names optional : List String} {empty : σ}
    {finish : σ → Except ReadFailure α} (hnames : ∀ name ∈ names, ∃ key, table.name key = name)
    (hempty : ∀ key, table.get empty key = none)
    (hsubset : optional ⊆ names) (hoptional : ∀ name ∈ optional, table.MayBeNull finish name)
    {members members' : List (String × Json)} (h : Rearranged names optional members members')
    {result : α} (hread : read names take empty finish members = .ok result) :
    read names take empty finish members' = .ok result := by
  have hfiltered : ∀ members : List (String × Json),
      table.Names (members.filter fun member => names.contains member.1) := by
    intro members member hmem
    exact hnames _ (by simpa using (List.mem_filter.mp hmem).2)
  induction h with
  | perm hperm =>
    obtain ⟨fields, hfields, hfinish⟩ := read_eq_ok.mp hread
    exact read_eq_ok.mpr
      ⟨fields, table.takesAll_perm (hperm.filter _) (hfiltered _) hfields, hfinish⟩
  | @extra name value members hname =>
    obtain ⟨fields, hfields, hfinish⟩ := read_eq_ok.mp hread
    refine read_eq_ok.mpr ⟨fields, ?_, hfinish⟩
    rwa [List.filter_cons_of_neg (by simpa using hname)]
  | @null name members hname hnew =>
    obtain ⟨fields, hfields, hfinish⟩ := read_eq_ok.mp hread
    obtain ⟨key, given, rfl, hgiven, hsame⟩ := hoptional name hname
    -- The null may as well come last, when nothing is known of its field.
    have hnone : table.get fields key = none := by
      rw [table.get_of_takesAll (hfiltered members)
        (fun member hmem => hnew member (List.mem_filter.mp hmem).1) hfields, hempty]
    have hlast : take fields (table.name key) .null = .ok (table.put fields key given) :=
      table.take_eq_ok.mpr ⟨hnone, given, hgiven, rfl⟩
    have hall := hfields.append (.cons hlast (.nil _))
    have hfiltered' := hfiltered ((table.name key, .null) :: members)
    rw [List.filter_cons_of_pos (by simpa using hsubset hname)] at hfiltered'
    refine read_eq_ok.mpr ⟨table.put fields key given, ?_, (hsame fields hnone).trans hfinish⟩
    rw [List.filter_cons_of_pos (by simpa using hsubset hname)]
    have hperm := List.perm_append_singleton (table.name key, Json.null)
      (members.filter fun member => names.contains member.1)
    exact table.takesAll_perm hperm (fun member hmem => hfiltered' member (hperm.mem_iff.mp hmem))
      hall
  | trans h h' ih ih' => exact ih' (ih hread)

end FieldTable

/-! ## Patterns -/

namespace PatternFields

/-- A key for each field of a pattern. -/
inductive Key where
  | length
  | bytes (field : PatternField)
  deriving DecidableEq

/-- The fields of patterns. -/
def table : FieldTable take where
  Key := Key
  decEq := inferInstance
  Value
    | .length => UInt32
    | .bytes _ => Option (List UInt8)
  name
    | .length => "length"
    | .bytes field => key field
  decode
    | .length => asWord
    | .bytes _ => asOption asBytes
  get fields
    | .length => fields.length
    | .bytes .tdi => fields.tdi
    | .bytes .tdo => fields.tdo
    | .bytes .mask => fields.mask
    | .bytes .smask => fields.smask
  make known := {
    length := known .length
    tdi := known (.bytes .tdi)
    tdo := known (.bytes .tdo)
    mask := known (.bytes .mask)
    smask := known (.bytes .smask) }
  get_make known := by
    funext key
    rcases key with _ | field
    · rfl
    · cases field <;> rfl
  take_name fields key value := by
    -- Either side is the same update of the field, if the value can be taken.
    rcases key with _ | field
    · simp only [take, bind_pure_comp]
      rfl
    · cases field <;>
        · simp only [take, key, bind_pure_comp]
          rfl

/-- The names of the fields that may be absent. -/
def optionalNames : List String :=
  ["tdi", "tdo", "mask", "smask"]

theorem mayBeNull {name : String} (hname : name ∈ optionalNames) :
    table.MayBeNull toPattern name := by
  obtain ⟨field, rfl⟩ : ∃ field, key field = name := by
    simp only [optionalNames, List.mem_cons, List.not_mem_nil, or_false] at hname
    rcases hname with rfl | rfl | rfl | rfl
    exacts [⟨.tdi, rfl⟩, ⟨.tdo, rfl⟩, ⟨.mask, rfl⟩, ⟨.smask, rfl⟩]
  refine ⟨.bytes field, none, rfl, rfl, ?_⟩
  rintro ⟨length, tdi, tdo, mask, smask⟩ hnone
  cases field <;>
    · cases hnone
      rfl

end PatternFields

namespace Json

/-- A pattern may be given by the members of an object in any arrangement. -/
theorem asPattern_rearranged {members members' : List (String × Json)}
    (h : Rearranged PatternFields.names PatternFields.optionalNames members members')
    {pattern : Pattern} (hpattern : asPattern (.object members) = .ok pattern) :
    asPattern (.object members') = .ok pattern := by
  refine PatternFields.table.read_rearranged (fun name hname => ?_) (fun key => ?_) (by decide)
    (fun name => PatternFields.mayBeNull) h hpattern
  · simp only [PatternFields.names, List.mem_cons, List.not_mem_nil, or_false] at hname
    rcases hname with rfl | rfl | rfl | rfl | rfl
    exacts [⟨.length, rfl⟩, ⟨.bytes .tdi, rfl⟩, ⟨.bytes .tdo, rfl⟩, ⟨.bytes .mask, rfl⟩,
      ⟨.bytes .smask, rfl⟩]
  · rcases key with _ | field
    · rfl
    · cases field <;> rfl

end Json

/-! ## Instructions -/

namespace InstructionFields

/-- A key for each field of an instruction. -/
inductive Key where
  | register | state | hz | pattern | label | runState | runCount | minTime | maxTime | endState
  | target | path | command
  deriving DecidableEq

/-- All keys. -/
def Key.all : List Key :=
  [register, state, hz, pattern, label, runState, runCount, minTime, maxTime, endState, target,
    path, command]

/-- The name of the field with a key. -/
def Key.name : Key → String
  | register => "register"
  | state => "state"
  | hz => "hz"
  | pattern => "pattern"
  | label => "label"
  | runState => "run_state"
  | runCount => "run_count"
  | minTime => "min_time"
  | maxTime => "max_time"
  | endState => "end_state"
  | target => "target"
  | path => "path"
  | command => "command"

/-- What the field with a key holds. -/
def Key.Value : Key → Type
  | register => Register
  | state | target => TapState
  | hz | minTime => Float
  | pattern => Pattern
  | label => Option String
  | runState | endState => Option TapState
  | runCount => UInt32
  | maxTime => Option Float
  | path => Option (List TapState)
  | command => UnsupportedCommand

/-- The fields of instructions of all kinds. -/
def table : FieldTable take where
  Key := Key
  decEq := inferInstance
  Value := Key.Value
  name := Key.name
  decode
    | .register => asChoice Register.ofName?
    | .state | .target => asChoice TapState.ofName?
    | .hz | .minTime => asFloat
    | .pattern => asPattern
    | .label => asOption asString
    | .runState | .endState => asOption (asChoice TapState.ofName?)
    | .runCount => asWord
    | .maxTime => asOption asFloat
    | .path => asOption (asList (asChoice TapState.ofName?))
    | .command => asChoice UnsupportedCommand.ofName?
  get fields
    | .register => fields.register
    | .state => fields.state
    | .hz => fields.hz
    | .pattern => fields.pattern
    | .label => fields.label
    | .runState => fields.runState
    | .runCount => fields.runCount
    | .minTime => fields.minTime
    | .maxTime => fields.maxTime
    | .endState => fields.endState
    | .target => fields.target
    | .path => fields.path
    | .command => fields.command
  make known := {
    register := known .register
    state := known .state
    hz := known .hz
    pattern := known .pattern
    label := known .label
    runState := known .runState
    runCount := known .runCount
    minTime := known .minTime
    maxTime := known .maxTime
    endState := known .endState
    target := known .target
    path := known .path
    command := known .command }
  get_make known := by
    funext key
    cases key <;> rfl
  take_name fields key value := by
    -- Either side is the same update of the field, if the value can be taken.
    cases key <;>
      · simp only [take, bind_pure_comp]
        rfl

/-- The names of the fields of a kind that may be absent. -/
def optionalNames : InstructionKind → List String
  | .shift => ["label"]
  | .runTest => ["run_state", "max_time", "end_state"]
  | .goToState => ["path"]
  | _ => []

theorem mayBeNull {kind : InstructionKind} {name : String} (hname : name ∈ optionalNames kind) :
    table.MayBeNull (fun fields => fields.toInstruction kind) name := by
  obtain ⟨rfl, rfl⟩ | ⟨rfl, rfl⟩ | ⟨rfl, rfl⟩ | ⟨rfl, rfl⟩ | ⟨rfl, rfl⟩ :
      (kind = .shift ∧ name = "label") ∨ (kind = .runTest ∧ name = "run_state") ∨
        (kind = .runTest ∧ name = "max_time") ∨ (kind = .runTest ∧ name = "end_state") ∨
          (kind = .goToState ∧ name = "path") := by
    cases kind <;> simp_all [optionalNames]
  · refine ⟨.label, none, rfl, rfl, ?_⟩
    rintro ⟨⟩ ⟨⟩
    rfl
  · refine ⟨.runState, none, rfl, rfl, ?_⟩
    rintro ⟨⟩ ⟨⟩
    rfl
  · refine ⟨.maxTime, none, rfl, rfl, ?_⟩
    rintro ⟨⟩ ⟨⟩
    rfl
  · refine ⟨.endState, none, rfl, rfl, ?_⟩
    rintro ⟨⟩ ⟨⟩
    rfl
  · refine ⟨.path, none, rfl, rfl, ?_⟩
    rintro ⟨⟩ ⟨⟩
    rfl

theorem exists_key (kind : InstructionKind) :
    ∀ name ∈ kind.fieldNames, ∃ key, table.name key = name := by
  have hsubset : kind.fieldNames ⊆ Key.all.map Key.name := by
    cases kind <;> decide
  intro name hname
  obtain ⟨key, -, hkey⟩ := List.mem_map.mp (hsubset hname)
  exact ⟨key, hkey⟩

theorem get_empty (key : Key) : table.get {} key = none := by
  cases key <;> rfl

end InstructionFields

namespace Instruction

/-- The names of the fields of a kind, of which an unknown kind has none. -/
def fieldNames (kind : String) : List String :=
  match InstructionKind.ofName? kind with
  | some kind => kind.fieldNames
  | none => []

/-- The names of the fields that may be absent. -/
def optionalNames (kind : String) : List String :=
  match InstructionKind.ofName? kind with
  | some kind => InstructionFields.optionalNames kind
  | none => []

variable {kind : String} {instruction : Instruction}

/-- The content of a known kind is read as its record. -/
theorem ofContent_known {known : InstructionKind}
    (hkind : InstructionKind.ofName? kind = some known) (members : List (String × Json)) :
    ofContent kind (.members members) = FieldTable.read known.fieldNames InstructionFields.take {}
      (fun fields => fields.toInstruction known) members := by
  unfold ofContent
  rw [hkind]
  rfl

/-- The content of an unknown kind does not count. -/
theorem ofContent_unknown (hkind : InstructionKind.ofName? kind = none)
    (members : List (String × Json)) : ofContent kind (.members members) = .ok unknown := by
  unfold ofContent
  rw [hkind]

/-- The members of an instruction may be rearranged. -/
theorem ofContent_rearranged {members members' : List (String × Json)}
    (h : Rearranged (fieldNames kind) (optionalNames kind) members members')
    (hread : ofContent kind (.members members) = .ok instruction) :
    ofContent kind (.members members') = .ok instruction := by
  cases hkind : InstructionKind.ofName? kind with
  | none =>
    rw [ofContent_unknown hkind] at hread ⊢
    exact hread
  | some known =>
    simp only [fieldNames, optionalNames, hkind] at h
    rw [ofContent_known hkind] at hread ⊢
    exact InstructionFields.table.read_rearranged (InstructionFields.exists_key known)
      InstructionFields.get_empty (by cases known <;> decide)
      (fun name => InstructionFields.mayBeNull) h hread

section Patterns

variable {value value' : Json}
  (hpattern : ∀ pattern, asPattern value = .ok pattern → asPattern value' = .ok pattern)

include hpattern

/-- A member may give the same pattern by another value. -/
theorem ofContent_replaced {before after : List (String × Json)}
    (hread : ofContent kind (.members (before ++ ("pattern", value) :: after)) = .ok instruction) :
    ofContent kind (.members (before ++ ("pattern", value') :: after)) = .ok instruction := by
  cases hkind : InstructionKind.ofName? kind with
  | none =>
    rw [ofContent_unknown hkind] at hread ⊢
    exact hread
  | some known =>
    rw [ofContent_known hkind] at hread ⊢
    exact InstructionFields.table.read_replaced .pattern hpattern hread

/-- So may an item, if its place is that of the pattern. -/
theorem ofContent_item_replaced {known : InstructionKind} {before after : List Json}
    (hfield : known.fieldNames[before.length]? = some "pattern")
    (hread : ofContent known.name (.items (before ++ value :: after)) = .ok instruction) :
    ofContent known.name (.items (before ++ value' :: after)) = .ok instruction := by
  unfold ofContent at hread ⊢
  rw [known.ofName?_name] at hread ⊢
  obtain ⟨fields, hfields, hfinish⟩ := bind_eq_ok hread
  have hfields' := InstructionFields.table.fold_items_replaced .pattern hpattern hfield hfields
  dsimp only
  rw [hfields']
  exact hfinish

end Patterns

end Instruction

end JtagPlayer
