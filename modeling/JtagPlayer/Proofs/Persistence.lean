import JtagPlayer.Proofs.Shifting
import Mathlib.Algebra.Order.Floor.Div

/-!
# What persists of a series of changes

Changes are merged into the stored patterns one after the other, and one that is refused leaves them
as they are. What a stored pattern is then depends on its whole history, but it can be said without
going through it: `Pattern.persisting` reads it off the accepted changes from the latest one back.
It has the length of the latest change and the bits that this one expects, and of each other byte
string what was supplied last since the length has been the same. In front of each there are zero
bytes, as many as make it as wide as the register.

`Pattern.merge_persisting` is the step: which changes are accepted after some others, and what
becomes of the pattern. `Registers.stored_eq_persisting` says it of a series of changes to any of
the six patterns.
-/

namespace JtagPlayer

namespace Pattern

/-- The width of a register: the least number of bytes that hold its bits. -/
def width (pattern : Pattern) : Nat :=
  pattern.length.toNat ⌈/⌉ 8

/-- No byte string of a change is longer than its register. -/
def Fits (delta : Pattern) : Prop :=
  ∀ field bytes, delta.field field = some bytes → bytes.length ≤ delta.width

theorem numBytes_eq_width (pattern : Pattern) : pattern.numBytes = pattern.width := by
  rw [width, Nat.ceilDiv_eq_add_pred_div]
  rfl

/-- What is widened gets zeros in front, and these only. -/
theorem widen_eq_leftpad (pattern : Pattern) :
    widen pattern.numBytes = List.leftpad pattern.width 0 := by
  funext bytes
  rw [numBytes_eq_width, widen, List.leftpad]

/-- The refusal of the first byte string that does not fit. -/
def checkWidths (name : RegisterName) (delta : Pattern) : Except PatternError Unit := do
  checkWidth name .tdi delta.numBytes delta.tdi
  checkWidth name .tdo delta.numBytes delta.tdo
  checkWidth name .mask delta.numBytes delta.mask
  checkWidth name .smask delta.numBytes delta.smask

/-- A byte string of a stored pattern once a change has been merged into it. -/
def mergedField (stored delta : Pattern) (name : PatternField) : Option (List UInt8) :=
  ((delta.field name).map (widen delta.numBytes)).or (carried stored delta (stored.field name))

/-- The stored pattern once a change has been merged into it that leaves it some bits to send. -/
def merged (stored delta : Pattern) (tdi : List UInt8) : Pattern where
  length := delta.length
  tdi := some tdi
  tdo := delta.tdo.map (widen delta.numBytes)
  mask := stored.mergedField delta .mask
  smask := stored.mergedField delta .smask

/-- A change of length zero clears what is not a payload. -/
theorem merge_of_length_zero (name : RegisterName) (stored : Pattern) {delta : Pattern}
    (hlength : delta.length = 0) :
    merge name stored delta =
      if name.isPayload then .error (.emptyPayload name) else .ok .empty := by
  rw [merge, if_pos hlength]
  cases name.isPayload <;> rfl

/-- A change with bits is merged if its byte strings fit and there are bits to send. -/
theorem merge_of_length_ne_zero (name : RegisterName) (stored : Pattern) {delta : Pattern}
    (hlength : delta.length ≠ 0) :
    merge name stored delta = (checkWidths name delta).bind fun _ =>
      (stored.mergedField delta .tdi).elim (.error (.missingTdi name delta.length))
        fun tdi => .ok (stored.merged delta tdi) := by
  rw [merge, if_neg hlength, checkWidths]
  dsimp only
  cases checkWidth name .tdi delta.numBytes delta.tdi with
  | error error => rfl
  | ok u =>
  cases checkWidth name .tdo delta.numBytes delta.tdo with
  | error error => rfl
  | ok u =>
  cases checkWidth name .mask delta.numBytes delta.mask with
  | error error => rfl
  | ok u =>
  cases checkWidth name .smask delta.numBytes delta.smask with
  | error error => rfl
  | ok u =>
  -- All that can be missing now are the bits to send.
  have htdi : stored.mergedField delta .tdi =
      (delta.tdi.map (widen delta.numBytes)).or (carried stored delta stored.tdi) := rfl
  rw [htdi]
  cases (delta.tdi.map (widen delta.numBytes)).or (carried stored delta stored.tdi) <;> rfl

theorem checkWidth_eq_ok {name : RegisterName} {field : PatternField} {width : Nat}
    {supplied : Option (List UInt8)} :
    checkWidth name field width supplied = .ok () ↔
      ∀ bytes, supplied = some bytes → bytes.length ≤ width := by
  cases supplied with
  | none => simp [checkWidth]
  | some bytes =>
    rw [checkWidth]
    split <;> simp <;> omega

/-- The widths of a change are accepted if it fits. -/
theorem checkWidths_eq_ok {name : RegisterName} {delta : Pattern} :
    checkWidths name delta = .ok () ↔ delta.Fits := by
  rw [Fits, ← numBytes_eq_width]
  constructor
  · intro h
    obtain ⟨⟨⟩, htdi, h⟩ := bind_eq_ok h
    obtain ⟨⟨⟩, htdo, h⟩ := bind_eq_ok h
    obtain ⟨⟨⟩, hmask, hsmask⟩ := bind_eq_ok h
    intro field
    cases field with
    | tdi => exact checkWidth_eq_ok.mp htdi
    | tdo => exact checkWidth_eq_ok.mp htdo
    | mask => exact checkWidth_eq_ok.mp hmask
    | smask => exact checkWidth_eq_ok.mp hsmask
  · intro h
    have hfield : ∀ field, checkWidth name field delta.numBytes (delta.field field) = .ok () :=
      fun field => checkWidth_eq_ok.mpr (h field)
    have htdi := hfield .tdi
    have htdo := hfield .tdo
    have hmask := hfield .mask
    have hsmask := hfield .smask
    simp only [field] at htdi htdo hmask hsmask
    rw [checkWidths, htdi, htdo, hmask, hsmask]
    rfl

/-- The changes that are accepted: those of length zero to a header or trailer, and those that fit
and leave some bits to send. -/
theorem merge_eq_ok {name : RegisterName} {stored delta result : Pattern} :
    merge name stored delta = .ok result ↔
      (delta.length = 0 ∧ name.isPayload = false ∧ result = .empty) ∨
      (delta.length ≠ 0 ∧ delta.Fits ∧
        ∃ tdi, stored.mergedField delta .tdi = some tdi ∧ result = stored.merged delta tdi) := by
  constructor
  · rw [Fits, ← numBytes_eq_width]
    exact merge_cases
  rintro (⟨hlength, hpayload, rfl⟩ | ⟨hlength, hfits, tdi, htdi, rfl⟩)
  · rw [merge_of_length_zero name stored hlength, hpayload]
    rfl
  · rw [merge_of_length_ne_zero name stored hlength, checkWidths_eq_ok.mpr hfits, htdi]
    rfl

/-- The latest of some changes that supplies a byte string decides what it is. -/
def latest? (name : PatternField) (history : List Pattern) : Option (List UInt8) :=
  history.findSome? fun delta => delta.field name

/-- What some accepted changes have made of the empty pattern, the latest change first. -/
def persisting : List Pattern → Pattern
  | [] => .empty
  | last :: earlier =>
    if last.length = 0 then .empty
    else
      let recent := (last :: earlier).takeWhile fun delta => delta.length = last.length
      let kept := fun name => (latest? name recent).map (List.leftpad last.width 0)
      { length := last.length
        tdi := kept .tdi
        tdo := last.tdo.map (List.leftpad last.width 0)
        mask := kept .mask
        smask := kept .smask }

/-- Whether a change is accepted after some others, the latest one first. Only a header or a trailer
can be cleared. Otherwise every byte string fits, and the bits to send are supplied unless the
length is that of the latest change. -/
def IsAdmissible (name : RegisterName) (history : List Pattern) (delta : Pattern) : Prop :=
  (delta.length = 0 ∧ name.isPayload = false) ∨
    (delta.length ≠ 0 ∧ delta.Fits ∧
      (delta.tdi ≠ none ∨ ∃ last, history.head? = some last ∧ last.length = delta.length))

theorem latest?_cons (name : PatternField) (delta : Pattern) (history : List Pattern) :
    latest? name (delta :: history) = (delta.field name).or (latest? name history) := by
  rw [latest?, List.findSome?_cons]
  cases delta.field name <;> rfl

theorem length_persisting (last : Pattern) (earlier : List Pattern) :
    (persisting (last :: earlier)).length = last.length := by
  rw [persisting]
  split <;> simp_all [empty]

/-- The byte strings other than the expected bits are the latest ones supplied for this length, with
zeros in front. -/
theorem field_persisting {name : PatternField} (hname : name ≠ .tdo) {last : Pattern}
    (hlength : last.length ≠ 0) (earlier : List Pattern) :
    (persisting (last :: earlier)).field name =
      (latest? name ((last :: earlier).takeWhile fun delta => delta.length = last.length)).map
        (List.leftpad last.width 0) := by
  rw [persisting, if_neg hlength]
  cases name with
  | tdo => exact absurd rfl hname
  | _ => rfl

/-- What is carried over a change are the latest byte strings supplied for its length. -/
theorem carried_persisting {name : PatternField} (hname : name ≠ .tdo) (history : List Pattern)
    {delta : Pattern} (hdelta : delta.length ≠ 0) :
    carried (persisting history) delta ((persisting history).field name) =
      (latest? name (history.takeWhile fun earlier => earlier.length = delta.length)).map
        (List.leftpad delta.width 0) := by
  cases history with
  | nil => exact if_neg (Ne.symm hdelta)
  | cons last earlier =>
    rw [carried, length_persisting]
    by_cases hlength : last.length = delta.length
    · rw [if_pos hlength, field_persisting hname (hlength ▸ hdelta), width, hlength, width]
    · rw [if_neg hlength, List.takeWhile_cons_of_neg (by simpa using hlength)]
      rfl

/-- A byte string other than the expected bits once a change has been merged. -/
theorem mergedField_persisting {name : PatternField} (hname : name ≠ .tdo) (history : List Pattern)
    {delta : Pattern} (hdelta : delta.length ≠ 0) :
    (persisting history).mergedField delta name = (persisting (delta :: history)).field name := by
  rw [mergedField, widen_eq_leftpad, carried_persisting hname history hdelta, ← Option.map_or,
    ← latest?_cons, field_persisting hname hdelta, List.takeWhile_cons_of_pos (by simp)]

/-- There are bits to send once a change has been merged if it supplies them or leaves the length as
it is. -/
theorem exists_mergedField_tdi {history : List Pattern} (hfull : (persisting history).IsFull)
    {delta : Pattern} (hdelta : delta.length ≠ 0) :
    (∃ tdi, (persisting history).mergedField delta .tdi = some tdi) ↔
      delta.tdi ≠ none ∨ ∃ last, history.head? = some last ∧ last.length = delta.length := by
  cases htdi : delta.tdi with
  | some bytes => simp [mergedField, field, htdi]
  | none =>
    have hcarried : (persisting history).mergedField delta .tdi =
        carried (persisting history) delta (persisting history).tdi := by
      rw [mergedField, field, htdi, Option.map_none, Option.none_or, field]
    rw [hcarried]
    cases history with
    | nil =>
      have hnone : carried (persisting []) delta (persisting []).tdi = none :=
        if_neg (Ne.symm hdelta)
      simp [hnone]
    | cons last earlier =>
      rw [carried, length_persisting]
      by_cases hlength : last.length = delta.length
      · have hstored : (persisting (last :: earlier)).length ≠ 0 := by
          rw [length_persisting, hlength]
          exact hdelta
        simpa [hlength] using hfull.tdi hstored
      · simp [hlength]

/-- Which changes are accepted after some others, and what becomes of the pattern then. -/
theorem merge_persisting {name : RegisterName} {history : List Pattern}
    (hfull : (persisting history).IsFull) {delta result : Pattern} :
    merge name (persisting history) delta = .ok result ↔
      IsAdmissible name history delta ∧ result = persisting (delta :: history) := by
  rw [merge_eq_ok, IsAdmissible]
  by_cases hdelta : delta.length = 0
  · simp [hdelta, persisting]
  · have hmerged : ∀ tdi, (persisting history).mergedField delta .tdi = some tdi →
        (persisting history).merged delta tdi = persisting (delta :: history) := by
      intro tdi htdi
      rw [mergedField_persisting (by simp) history hdelta] at htdi
      rw [merged, widen_eq_leftpad, mergedField_persisting (by simp) history hdelta,
        mergedField_persisting (by simp) history hdelta, ← htdi]
      simp [persisting, hdelta, field]
    rw [← exists_mergedField_tdi hfull hdelta]
    constructor
    · rintro (⟨hzero, -⟩ | ⟨-, hfits, tdi, htdi, rfl⟩)
      · exact absurd hzero hdelta
      · exact ⟨.inr ⟨hdelta, hfits, tdi, htdi⟩, hmerged tdi htdi⟩
    · rintro ⟨⟨hzero, -⟩ | ⟨-, hfits, tdi, htdi⟩, rfl⟩
      · exact absurd hzero hdelta
      · exact .inr ⟨hdelta, hfits, tdi, htdi, (hmerged tdi htdi).symm⟩

/-- The stored pattern after a change. One that is refused leaves it as it is. -/
def changed (name : RegisterName) (stored delta : Pattern) : Pattern :=
  match merge name stored delta with
  | .ok merged => merged
  | .error _ => stored

/-- Those of some changes that are accepted one after the other. -/
def accepted (name : RegisterName) : Pattern → List Pattern → List Pattern
  | _, [] => []
  | stored, delta :: deltas =>
    match merge name stored delta with
    | .ok merged => delta :: accepted name merged deltas
    | .error _ => accepted name stored deltas

/-- After a series of changes the pattern is what persists of the accepted ones. -/
theorem foldl_changed_persisting (name : RegisterName) (deltas history : List Pattern)
    (hfull : (persisting history).IsFull) :
    deltas.foldl (changed name) (persisting history) =
        persisting ((accepted name (persisting history) deltas).reverse ++ history) ∧
      (deltas.foldl (changed name) (persisting history)).IsFull := by
  -- The history grows at its head by every change that is accepted.
  induction deltas generalizing history with
  | nil => exact ⟨rfl, hfull⟩
  | cons delta deltas ih =>
    rw [List.foldl_cons, changed, accepted]
    cases hmerge : merge name (persisting history) delta with
    | error error => exact ih history hfull
    | ok merged =>
      obtain ⟨-, rfl⟩ := (merge_persisting hfull).mp hmerge
      have hrest := ih (delta :: history) (merge_isFull hfull hmerge)
      rwa [List.reverse_cons, List.append_assoc, List.singleton_append]

end Pattern

namespace Registers

/-- The stored patterns after a series of changes, each to the pattern with the given name. -/
def changedAll (registers : Registers) (changes : List (RegisterName × Pattern)) : Registers :=
  changes.foldl (fun registers change => registers.changed change.1 change.2) registers

/-- Those of some changes that are made to the pattern with a given name. -/
def addressed (name : RegisterName) (changes : List (RegisterName × Pattern)) : List Pattern :=
  (changes.filter fun change => change.1 = name).map Prod.snd

/-- A change is made to one pattern only. -/
theorem get_changed (registers : Registers) (name other : RegisterName) (delta : Pattern) :
    (registers.changed other delta).get name =
      if other = name then (registers.get name).changed name delta else registers.get name := by
  by_cases hname : other = name
  · subst hname
    rw [if_pos rfl, changed, update, Pattern.changed]
    cases (registers.get other).merge other delta with
    | error error => rfl
    | ok merged => exact registers.get_set other merged
  · rw [if_neg hname, changed, update]
    cases (registers.get other).merge other delta with
    | error error => rfl
    | ok merged => exact registers.get_set_of_ne merged (Ne.symm hname)

/-- A series of changes is made to each pattern on its own. -/
theorem get_changedAll (registers : Registers) (name : RegisterName)
    (changes : List (RegisterName × Pattern)) :
    (registers.changedAll changes).get name =
      (addressed name changes).foldl (Pattern.changed name) (registers.get name) := by
  induction changes generalizing registers with
  | nil => rfl
  | cons change changes ih =>
    obtain ⟨other, delta⟩ := change
    rw [changedAll, List.foldl_cons, ← changedAll, ih, get_changed, addressed, addressed]
    by_cases hname : other = name
    · simp [hname]
    · simp [hname]

theorem exists_update_iff {registers : Registers} {name : RegisterName} {delta : Pattern} :
    (∃ updated, registers.update name delta = .ok updated) ↔
      ∃ merged, (registers.get name).merge name delta = .ok merged := by
  rw [update]
  cases (registers.get name).merge name delta <;> simp [Except.map]

/-- After any changes to the empty patterns, which further ones are accepted and what each pattern
is follow from the accepted changes to it alone: those that clear a header or trailer are accepted,
and those that fit and supply the bits to send or keep the length of the latest change. The pattern
is empty or has the length of the latest change, with what was supplied for that length since it was
last another one, filled up with zeros in front. -/
theorem stored_eq_persisting (changes : List (RegisterName × Pattern)) (name : RegisterName) :
    let registers := changedAll {} changes
    let history := (Pattern.accepted name .empty (addressed name changes)).reverse
    (∀ delta, (∃ updated, registers.update name delta = .ok updated) ↔
        Pattern.IsAdmissible name history delta) ∧
      registers.get name = Pattern.persisting history := by
  intro registers history
  have hempty : ({} : Registers).get name = Pattern.persisting [] := by
    obtain ⟨role, register⟩ := name
    cases role <;> cases register <;> rfl
  have hrun := Pattern.foldl_changed_persisting name (addressed name changes) []
    Pattern.isFull_empty
  have hstored : registers.get name =
      (addressed name changes).foldl (Pattern.changed name) (Pattern.persisting []) := by
    rw [get_changedAll, hempty]
  rw [← hstored, List.append_nil] at hrun
  obtain ⟨hget, hfull⟩ := hrun
  refine ⟨fun delta => ?_, hget⟩
  rw [hget] at hfull
  rw [exists_update_iff, hget]
  constructor
  · rintro ⟨merged, hmerge⟩
    exact ((Pattern.merge_persisting hfull).mp hmerge).1
  · intro hadmissible
    exact ⟨_, (Pattern.merge_persisting hfull).mpr ⟨hadmissible, rfl⟩⟩

/-- The third change is refused, as it would need new bits to send. The mask of the first one is
kept by the second one, its expected bits are not. -/
example :
    (changedAll {} [
      (⟨.header, .data⟩,
        { length := 12, tdi := some [0xAB], tdo := some [1], mask := some [7, 0xFF] }),
      (⟨.header, .data⟩, { length := 12, tdi := some [0xC, 0xDE] }),
      (⟨.header, .data⟩, { length := 20, tdo := some [0] })]).get ⟨.header, .data⟩ =
    { length := 12, tdi := some [0xC, 0xDE], mask := some [7, 0xFF] } := by
  decide

end Registers

end JtagPlayer
