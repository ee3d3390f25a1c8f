import JtagPlayer.Proofs.Grammar
import Mathlib.Data.List.Forall2

/-!
# Readers take what is spelt

A reader `Takes` what some JSON values stand for if it recovers this from every text that spells
one of them, and takes nothing but such a text, with space in front of it. So it is with readers of
arrays and objects if the readers of their items and members are like this, whatever these make of
the values: `Json.arrayReader_takes` and `Json.TakesMembers`.

Of values that are read as they are this says that reading agrees with the grammar;
`Json.readDocument_iff` says it of documents.
-/

namespace JtagPlayer

open Lexical

/-- A reader takes what JSON values of so many levels stand for. -/
structure Reader.Takes {α : Type} (reader : Reader α) (levels : Nat) (StandsFor : Json → α → Prop) :
    Prop where
  recovers : ∀ {json text value}, Json.Spells levels json text → StandsFor json value →
    reader.Recovers text value
  spelt : ∀ {text value rest}, reader.read text = .ok (value, rest) →
    ∃ space body json, Blank space ∧ text = space ++ (body ++ rest) ∧
      Json.Spells levels json body ∧ StandsFor json value

namespace Reader

variable {α : Type} {reader : Reader α} {levels : Nat} {StandsFor : Json → α → Prop}

/-- The values may be described in another way. -/
theorem Takes.congr (h : reader.Takes levels StandsFor) {StandsFor' : Json → α → Prop}
    (hiff : ∀ json value, StandsFor json value ↔ StandsFor' json value) :
    reader.Takes levels StandsFor' := by
  have heq : StandsFor = StandsFor' := funext fun json => funext fun value =>
    propext (hiff json value)
  exact heq ▸ h

/-- What is made of a value stands for whatever the value stands for. -/
theorem map_takes {β : Type} (h : reader.Takes levels StandsFor) (f : α → β) :
    (reader.map f).Takes levels fun json image =>
      ∃ value, StandsFor json value ∧ f value = image where
  recovers := by
    rintro json text image hspells ⟨value, hvalue, rfl⟩
    exact (h.recovers hspells hvalue).map f
  spelt := by
    intro text image rest hread
    dsimp only [Reader.map] at hread
    split at hread
    · rename_i value rest' hvalue
      cases hread
      obtain ⟨space, body, json, hspace, htext, hspells, hstands⟩ := h.spelt hvalue
      exact ⟨space, body, json, hspace, htext, hspells, value, hstands, rfl⟩
    · cases hread

end Reader

namespace Lexical

theorem blank_nil : Blank [] :=
  List.forall_mem_nil _

theorem endsNumeral_nil : EndsNumeral [] := by
  rintro byte ⟨⟩

/-- What is skipped in front of a text is space. -/
theorem exists_skipSpace (text : List UInt8) :
    ∃ space, Blank space ∧ text = space ++ skipSpace text :=
  ⟨text.takeWhile isSpace, List.all_eq_true.mp List.all_takeWhile,
    List.takeWhile_append_dropWhile.symm⟩

/-- Space ends a numeral, so what ends one does so behind space as well. -/
theorem endsNumeral_append {space rest : List UInt8} (hspace : Blank space)
    (hrest : EndsNumeral rest) : EndsNumeral (space ++ rest) := by
  cases space with
  | nil => exact hrest
  | cons byte space =>
    have hall : ∀ byte : UInt8, isSpace byte = true → EndsNumeral [byte] := by
      intro byte hbyte
      simp only [isSpace, Bool.or_eq_true, beq_iff_eq] at hbyte
      rcases hbyte with ((rfl | rfl) | rfl) | rfl <;> decide +kernel
    exact hall byte (hspace byte List.mem_cons_self)

/-- A word is read letter by letter. -/
theorem spells_of_readWord {word text rest : List UInt8} (h : readWord word text = .ok rest) :
    text = word ++ rest := by
  fun_induction readWord word text with
  | case1 text =>
    cases h
    rfl
  | case2 | case4 => cases h
  | case3 word byte text ih => rw [ih h, List.cons_append]

end Lexical

namespace Json

/-! ## Values that hold no others -/

/-- A value that holds no others may stand at any level. -/
theorem Spells.lift {value : Json} {text : List UInt8} (h : Spells 0 value text) (levels : Nat) :
    Spells levels value text := by
  cases h with
  | null => exact .null levels
  | bool _ value => exact .bool levels value
  | number _ h hvalue => exact .number levels h hvalue
  | string _ h => exact .string levels h

/-- A numeral begins with a minus or a digit. -/
theorem head_of_spellsNumeral {numeral : Numeral} {text : List UInt8}
    (h : SpellsNumeral numeral text) :
    ∃ byte tail, text = byte :: tail ∧ (byte = Ascii.minus ∨ Ascii.isDigit byte = true) := by
  obtain @⟨negative, _, _, _, wholeText, _, _, hwhole, -, -⟩ := h
  obtain ⟨byte, tail, rfl⟩ := List.exists_cons_of_ne_nil hwhole.ne_nil
  cases negative with
  | true => exact ⟨_, _, rfl, .inl rfl⟩
  | false => exact ⟨_, _, rfl, .inr (hwhole.isDigit byte List.mem_cons_self)⟩

/-- No value begins with space or with a closing bracket. -/
theorem Spells.begins {levels : Nat} {value : Json} {text : List UInt8}
    (h : Spells levels value text) : Begins text := by
  cases h with
  | null => exact ⟨_, _, rfl, rfl, by decide⟩
  | bool _ value => cases value <;> exact ⟨_, _, rfl, rfl, by decide⟩
  | number _ h =>
    obtain ⟨byte, tail, rfl, hbyte⟩ := head_of_spellsNumeral h
    obtain ⟨hspace, hne⟩ := beginsNumber hbyte
    exact ⟨byte, tail, rfl, hspace, fun heq => hne (by simp [heq])⟩
  | string _ h =>
    obtain ⟨body, -, rfl⟩ := h
    exact ⟨_, _, rfl, rfl, by decide⟩
  | array => exact ⟨_, _, rfl, rfl, by decide⟩
  | object => exact ⟨_, _, rfl, rfl, by decide⟩

/-- A number begins with none of the bytes that tell the other values. -/
theorem readScalar_number {text rest : List UInt8} {value : Number}
    (h : readNumber text = .ok (value, rest)) : readScalar text = .ok (.number value, rest) := by
  obtain ⟨byte, tail, rfl, hbyte⟩ := head_of_readNumber h
  have hne := (beginsNumber hbyte).2
  simp only [List.mem_cons, not_or] at hne
  unfold readScalar
  simp [hne, hbyte, h]

/-- A quote tells a string. -/
theorem readScalar_string {text rest : List UInt8} {value : String}
    (h : readString text = .ok (value, rest)) :
    readScalar (Ascii.quote :: text) = .ok (.string value, rest) := by
  unfold readScalar
  dsimp only
  rw [if_neg (by decide), if_neg (by decide), if_neg (by decide), if_pos rfl, h]

/-- A value that holds no others is read to its end. -/
theorem readScalar_spelt {value : Json} {text rest : List UInt8} (h : Spells 0 value text)
    (hrest : EndsNumeral rest) : readScalar (text ++ rest) = .ok (value, rest) := by
  cases h with
  | null => rfl
  | bool _ value => cases value <;> rfl
  | number _ h hvalue => exact readScalar_number (readNumber_spelt h hvalue hrest)
  | string _ h =>
    obtain ⟨tail, rfl, hread⟩ := readString_spelt h rest
    exact readScalar_string hread

/-- What was read as a value that holds no others follows the grammar without any level. -/
theorem spells_of_readScalar {value : Json} {text rest : List UInt8}
    (h : readScalar text = .ok (value, rest)) :
    ∃ body, text = body ++ rest ∧ Spells 0 value body := by
  cases text with
  | nil => cases h
  | cons byte text =>
    rw [readScalar] at h
    repeat' split at h
    all_goals cases h
    · rename_i hbyte _ hword
      exact ⟨byte :: _, congrArg _ (spells_of_readWord hword), hbyte ▸ .null 0⟩
    · rename_i hbyte _ hword
      exact ⟨byte :: _, congrArg _ (spells_of_readWord hword), hbyte ▸ .bool 0 true⟩
    · rename_i hbyte _ hword
      exact ⟨byte :: _, congrArg _ (spells_of_readWord hword), hbyte ▸ .bool 0 false⟩
    · rename_i hbyte _ _ hstring
      obtain ⟨body, hbody, hvalue⟩ := spells_of_readString hstring
      exact ⟨body, hbyte ▸ hbody, .string 0 hvalue⟩
    · rename_i hnumber
      obtain ⟨body, numeral, hbody, hnumeral, hvalue⟩ := spells_of_readNumber hnumber
      exact ⟨body, hbody, .number 0 hnumeral hvalue⟩

/-- A string stands for itself. -/
theorem stringReader_takes (levels : Nat) :
    stringReader.Takes levels fun json value => json = .string value where
  recovers := by
    rintro json text value hspells rfl space rest hspace -
    cases hspells with
    | string _ h =>
      obtain ⟨tail, rfl, hread⟩ := readString_spelt h rest
      dsimp only [stringReader]
      rw [List.cons_append, skipSpace_append_cons hspace rfl]
      exact (if_pos rfl).trans hread
  spelt := by
    intro text value rest hread
    obtain ⟨space, hspace, htext⟩ := exists_skipSpace text
    dsimp only [stringReader] at hread
    split at hread
    · rename_i byte tail hskip
      split at hread
      · rename_i hquote
        obtain ⟨body, hbody, hvalue⟩ := spells_of_readString hread
        rw [hskip, hquote, hbody] at htext
        exact ⟨space, body, .string value, hspace, htext, .string levels hvalue, rfl⟩
      · cases hread
    · cases hread

/-! ## Arrays -/

/-- What follows a part of an array or object does not go on with a numeral. -/
theorem endsNumeral_more {closing : UInt8} (hclosing : EndsNumeral [closing])
    (texts : List (List UInt8)) (rest : List UInt8) :
    EndsNumeral (texts.flatMap (Ascii.comma :: ·) ++ closing :: rest) := by
  have hcomma : EndsNumeral [Ascii.comma] := by decide +kernel
  cases texts with
  | nil => exact hclosing
  | cons text texts => exact hcomma

theorem endsNumeral_closeBracket : EndsNumeral [Ascii.closeBracket] := by
  decide +kernel

/-- The first byte of an item is not the closing bracket. -/
theorem skipSpace_placed {levels : Nat} {first : Placed Json} (hspaced : first.IsSpaced)
    (hspells : Spells levels first.value first.text) :
    ∃ byte tail, byte ≠ Ascii.closeBracket ∧
      ∀ rest, skipSpace (first.bytes ++ rest) = byte :: (tail ++ rest) := by
  obtain ⟨byte, tail, htext, hbyte, hclose⟩ := hspells.begins
  refine ⟨byte, tail ++ first.after, hclose, fun rest => ?_⟩
  rw [Placed.bytes, htext, List.append_assoc, List.append_assoc, List.append_assoc,
    List.cons_append, skipSpace_append_cons hspaced.before hbyte]

section Arrays

variable {α : Type} {item : Reader α} {levels : Nat} {StandsFor : Json → α → Prop}

/-- Items stand for values, one by one. -/
inductive Items (levels : Nat) (StandsFor : Json → α → Prop) :
    List (Placed Json) → List α → Prop where
  | nil : Items levels StandsFor [] []
  | cons {first items value values} (hspaced : first.IsSpaced)
    (hspells : Spells levels first.value first.text) (hstands : StandsFor first.value value)
    (hitems : Items levels StandsFor items values) :
    Items levels StandsFor (first :: items) (value :: values)

/-- The items of an array are spaced, spelt and stand for the values one by one. -/
theorem items_iff {items : List (Placed Json)} {values : List α} :
    Items levels StandsFor items values ↔
      (∀ item ∈ items, item.IsSpaced) ∧ (∀ item ∈ items, Spells levels item.value item.text) ∧
        List.Forall₂ StandsFor (items.map Placed.value) values := by
  refine ⟨fun h => ?_, ?_⟩
  · induction h with
    | nil => exact ⟨nofun, nofun, .nil⟩
    | cons hspaced hspells hstands hitems ih =>
      exact ⟨List.forall_mem_cons.mpr ⟨hspaced, ih.1⟩, List.forall_mem_cons.mpr ⟨hspells, ih.2.1⟩,
        .cons hstands ih.2.2⟩
  · rintro ⟨hspaced, hspells, hstands⟩
    induction items generalizing values with
    | nil =>
      cases hstands
      exact .nil
    | cons first items ih =>
      rw [List.forall_mem_cons] at hspaced hspells
      cases hstands with
      | cons hfirst hmore =>
        exact .cons hspaced.1 hspells.1 hfirst (ih hspaced.2 hspells.2 hmore)

/-- Items in brackets spell the array of their values. -/
theorem Items.spells_array {items : List (Placed Json)} {values : List Json}
    (h : Items levels Eq items values) {space : List UInt8} (hspace : Blank space) :
    Spells (levels + 1) (.array values)
      (Ascii.openBracket :: (listed space (items.map Placed.bytes) ++ [Ascii.closeBracket])) := by
  obtain ⟨hspaced, hspells, hvalues⟩ := items_iff.mp h
  rw [List.forall₂_eq_eq_eq] at hvalues
  exact hvalues ▸ .array hspace hspaced hspells

/-- An item is read up to the space behind it, whatever items follow. -/
theorem read_item (h : item.Takes levels StandsFor) {first : Placed Json} (hspaced : first.IsSpaced)
    (hspells : Spells levels first.value first.text) {value : α}
    (hstands : StandsFor first.value value) (texts : List (List UInt8)) (rest : List UInt8) :
    item.read (first.bytes ++ (texts.flatMap (Ascii.comma :: ·) ++ Ascii.closeBracket :: rest)) =
      .ok (value, first.after ++ (texts.flatMap (Ascii.comma :: ·) ++
        Ascii.closeBracket :: rest)) := by
  have hends := endsNumeral_append hspaced.after
    (endsNumeral_more endsNumeral_closeBracket texts rest)
  rw [Placed.bytes, List.append_assoc, List.append_assoc]
  exact h.recovers hspells hstands hspaced.before hends

/-- Items with a comma in front of each are read up to the bracket. -/
theorem readMore_spelt (h : item.Takes levels StandsFor) {after : List UInt8}
    (hafter : Blank after) {items : List (Placed Json)} {values : List α}
    (hitems : Items levels StandsFor items values) (rest : List UInt8) :
    readMore item (after ++ ((items.map Placed.bytes).flatMap (Ascii.comma :: ·) ++
      Ascii.closeBracket :: rest)) = .ok (values, rest) := by
  induction hitems generalizing after with
  | nil => exact readMore_close (skipSpace_append_cons hafter rfl rest)
  | cons hspaced hspells hstands hitems ih =>
    rw [List.map_cons, List.flatMap_cons, List.cons_append, List.cons_append, List.append_assoc]
    exact readMore_comma (skipSpace_append_cons hafter rfl _)
      (read_item h hspaced hspells hstands _ rest) (ih hspaced.after)

/-- What was read up to the bracket are items with a comma in front of each. Space that is skipped
in front of a comma belongs to the item before, or comes first. -/
theorem items_of_readMore (h : item.Takes levels StandsFor) {text rest : List UInt8}
    {values : List α} (hread : readMore item text = .ok (values, rest)) :
    ∃ after items, Blank after ∧ Items levels StandsFor items values ∧
      text = after ++ ((items.map Placed.bytes).flatMap (Ascii.comma :: ·) ++
        Ascii.closeBracket :: rest) := by
  fun_induction readMore item text generalizing values rest with
  | case1 | case3 | case4 | case6 => cases hread
  | case2 text after hskip =>
    cases hread
    obtain ⟨space, hspace, htext⟩ := exists_skipSpace text
    rw [hskip] at htext
    exact ⟨space, [], hspace, .nil, htext⟩
  | case5 text after first afterFirst hitem more afterMore hmore hskip _ ih =>
    cases hread
    obtain ⟨space, hspace, htext⟩ := exists_skipSpace text
    obtain ⟨before, body, json, hbefore, rfl, hspells, hstands⟩ := h.spelt hitem
    obtain ⟨behind, items, hbehind, hitems, rfl⟩ := ih hmore
    refine ⟨space, ⟨before, json, body, behind⟩ :: items, hspace,
      .cons ⟨hbefore, hbehind⟩ hspells hstands hitems, ?_⟩
    rw [htext, hskip]
    simp [Placed.bytes]

/-- The items of an array are read up to the bracket, or the space is if there are none. -/
theorem readItems_spelt (h : item.Takes levels StandsFor) {space : List UInt8}
    (hspace : Blank space) {items : List (Placed Json)} {values : List α}
    (hitems : Items levels StandsFor items values) (rest : List UInt8) :
    readItems item (listed space (items.map Placed.bytes) ++ Ascii.closeBracket :: rest) =
      .ok (values, rest) := by
  cases hitems with
  | nil =>
    rw [List.map_nil, listed, readItems, skipSpace_append_cons hspace rfl]
    exact if_pos rfl
  | @cons first items value values hspaced hspells hstands hitems =>
    have hitem := read_item h hspaced hspells hstands (items.map Placed.bytes) rest
    obtain ⟨byte, tail, hclose, hskip⟩ := skipSpace_placed hspaced hspells
    rw [List.map_cons, listed, List.append_assoc, readItems, hskip]
    dsimp only
    rw [if_neg hclose, hitem]
    dsimp only
    rw [readMore_spelt h hspaced.after hitems rest]

/-- What was read up to the bracket are items with commas between them, or space. -/
theorem items_of_readItems (h : item.Takes levels StandsFor) {text rest : List UInt8}
    {values : List α} (hread : readItems item text = .ok (values, rest)) :
    ∃ space items, Blank space ∧ Items levels StandsFor items values ∧
      text = listed space (items.map Placed.bytes) ++ Ascii.closeBracket :: rest := by
  obtain ⟨space, hspace, htext⟩ := exists_skipSpace text
  unfold readItems at hread
  split at hread
  · cases hread
  rename_i hskip
  split at hread
  · rename_i hclose
    cases hread
    rw [hskip, hclose] at htext
    exact ⟨space, [], hspace, .nil, htext⟩
  split at hread
  · cases hread
  rename_i hitem
  split at hread
  · cases hread
  rename_i hmore
  cases hread
  obtain ⟨before, body, json, hbefore, rfl, hspells, hstands⟩ := h.spelt hitem
  obtain ⟨behind, items, hbehind, hitems, rfl⟩ := items_of_readMore h hmore
  refine ⟨[], ⟨before, json, body, behind⟩ :: items, blank_nil,
    .cons ⟨hbefore, hbehind⟩ hspells hstands hitems, ?_⟩
  simp [listed, Placed.bytes]

/-- An array stands for the list of what its items stand for. -/
def ArrayOf (StandsFor : Json → α → Prop) (json : Json) (values : List α) : Prop :=
  ∃ items, json = .array items ∧ List.Forall₂ StandsFor items values

/-- An array is read as its items are, one level further down. -/
theorem arrayReader_takes (h : item.Takes levels StandsFor) :
    (arrayReader item).Takes (levels + 1) (ArrayOf StandsFor) where
  recovers := by
    rintro json text values hspells ⟨items, rfl, hstands⟩ space rest hspace -
    cases hspells with
    | array hinner hspaced hspells =>
      dsimp only [arrayReader]
      rw [List.cons_append, skipSpace_append_cons hspace rfl, List.append_assoc,
        List.singleton_append]
      exact (if_pos rfl).trans
        (readItems_spelt h hinner (items_iff.mpr ⟨hspaced, hspells, hstands⟩) rest)
  spelt := by
    intro text values rest hread
    obtain ⟨space, hspace, htext⟩ := exists_skipSpace text
    dsimp only [arrayReader] at hread
    split at hread
    · rename_i hskip
      split at hread
      · rename_i hopen
        obtain ⟨inner, items, hinner, hitems, hbody⟩ := items_of_readItems h hread
        obtain ⟨hspaced, hspells, hstands⟩ := items_iff.mp hitems
        refine ⟨space, _, _, hspace, ?_, .array hinner hspaced hspells, _, rfl, hstands⟩
        rw [htext, hskip, hopen, hbody]
        simp
      · cases hread
    · cases hread

end Arrays

/-! ## Objects -/

/-- The name of a member is read with the space in front of it. -/
theorem readName_spelt {space : List UInt8} (hspace : Blank space) {name : String}
    {text : List UInt8} (h : SpellsString name text) (rest : List UInt8) :
    readName (space ++ (text ++ rest)) = .ok (name, rest) := by
  obtain ⟨tail, rfl, hread⟩ := readString_spelt h rest
  rw [readName, List.cons_append, skipSpace_append_cons hspace rfl]
  exact (if_pos rfl).trans hread

/-- What was read as a name is a string with space in front of it. -/
theorem spells_of_readName {text rest : List UInt8} {name : String}
    (h : readName text = .ok (name, rest)) :
    ∃ space body, Blank space ∧ text = space ++ (body ++ rest) ∧ SpellsString name body := by
  obtain ⟨space, hspace, htext⟩ := exists_skipSpace text
  unfold readName at h
  split at h
  · cases h
  rename_i hskip
  split at h
  · rename_i hquote
    obtain ⟨body, hbody, hname⟩ := spells_of_readString h
    rw [hskip, hquote, hbody] at htext
    exact ⟨space, body, hspace, htext, hname⟩
  · cases h

/-- A colon is read with the space in front of it. -/
theorem readColon_spelt {space : List UInt8} (hspace : Blank space) (rest : List UInt8) :
    readColon (space ++ Ascii.colon :: rest) = .ok rest := by
  rw [readColon, skipSpace_append_cons hspace rfl]
  exact if_pos rfl

/-- What was read as a colon is one with space in front of it. -/
theorem spells_of_readColon {text rest : List UInt8} (h : readColon text = .ok rest) :
    ∃ space, Blank space ∧ text = space ++ Ascii.colon :: rest := by
  obtain ⟨space, hspace, htext⟩ := exists_skipSpace text
  unfold readColon at h
  split at h
  · cases h
  rename_i hskip
  split at h
  · rename_i hcolon
    cases h
    rw [hskip, hcolon] at htext
    exact ⟨space, hspace, htext⟩
  · cases h

theorem endsNumeral_closeBrace : EndsNumeral [Ascii.closeBrace] := by
  decide +kernel

section Objects

variable {σ : Type} {value : σ → String → Except ReadFailure (Reader σ)} {levels : Nat}
  {add? : σ → String × Json → Option σ}

/-- The reader that is picked for a member takes what the member leads to. -/
def TakesMembers (value : σ → String → Except ReadFailure (Reader σ)) (levels : Nat)
    (add? : σ → String × Json → Option σ) : Prop :=
  ∀ state name,
    (∀ json state', add? state (name, json) = some state' →
      ∃ reader, value state name = .ok reader) ∧
    ∀ reader, value state name = .ok reader →
      reader.Takes levels fun json state' => add? state (name, json) = some state'

/-- Members lead from one state to another, one by one. -/
inductive MembersLead (levels : Nat) (add? : σ → String × Json → Option σ) :
    σ → List (PlacedMember String Json) → σ → Prop where
  | nil (state : σ) : MembersLead levels add? state [] state
  | cons {state first members state' result} (hnamed : first.IsNamed SpellsString)
    (hspells : Spells levels first.value first.text) (hadd : add? state first.member = some state')
    (hmembers : MembersLead levels add? state' members result) :
    MembersLead levels add? state (first :: members) result

/-- Members lead from one state to another if they are spaced, named and spelt as the grammar has
it, and adding them one by one leads there. -/
theorem membersLead_iff {state result : σ} {members : List (PlacedMember String Json)} :
    MembersLead levels add? state members result ↔
      (∀ member ∈ members, member.IsNamed SpellsString) ∧
        (∀ member ∈ members, Spells levels member.value member.text) ∧
          (members.map PlacedMember.member).foldlM add? state = some result := by
  refine ⟨fun h => ?_, ?_⟩
  · induction h with
    | nil state => exact ⟨nofun, nofun, rfl⟩
    | cons hnamed hspells hadd hmembers ih =>
      refine ⟨List.forall_mem_cons.mpr ⟨hnamed, ih.1⟩, List.forall_mem_cons.mpr ⟨hspells, ih.2.1⟩,
        ?_⟩
      rw [List.map_cons, List.foldlM_cons, hadd]
      exact ih.2.2
  · rintro ⟨hnamed, hspells, hadd⟩
    induction members generalizing state with
    | nil =>
      cases hadd
      exact .nil _
    | cons first members ih =>
      rw [List.forall_mem_cons] at hnamed hspells
      rw [List.map_cons, List.foldlM_cons] at hadd
      obtain ⟨state', hfirst, hmore⟩ := Option.bind_eq_some_iff.mp hadd
      exact .cons hnamed.1 hspells.1 hfirst (ih hnamed.2 hspells.2 hmore)

/-- A member is read up to the space behind it, and then what follows decides. -/
theorem readMembers_member (h : TakesMembers value levels add?) {state state' : σ}
    {member : PlacedMember String Json} (hnamed : member.IsNamed SpellsString)
    (hspells : Spells levels member.value member.text)
    (hadd : add? state member.member = some state') {tail rest : List UInt8}
    (htail : EndsNumeral tail) {byte : UInt8} (hbyte : isSpace byte = false)
    (hfirst : tail = byte :: rest) :
    readMembers value state (member.memberBytes ++ tail) =
      if byte = Ascii.closeBrace then .ok (state', rest)
      else if byte = Ascii.comma then readMembers value state' rest
      else .error .malformed := by
  obtain ⟨⟨reader, hreader⟩, htakes⟩ := (h state member.name).imp_left fun h => h _ _ hadd
  have hread := (htakes reader hreader).recovers hspells hadd hnamed.before
    (endsNumeral_append hnamed.after htail)
  have hskip : skipSpace (member.after ++ tail) = byte :: rest := by
    rw [hfirst, skipSpace_append_cons hnamed.after hbyte]
  have htext : member.memberBytes ++ tail =
      member.beforeName ++ (member.nameText ++ (member.afterName ++ Ascii.colon ::
        (member.before ++ (member.text ++ (member.after ++ tail))))) := by
    simp [PlacedMember.memberBytes, Placed.bytes]
  rw [htext]
  exact readMembers_step (readName_spelt hnamed.beforeName hnamed.nameText _) hreader
    (readColon_spelt hnamed.afterName _) hread hskip

/-- Members with commas between them are read up to the brace, into the state that they lead to. -/
theorem readMembers_spelt (h : TakesMembers value levels add?) {state result : σ}
    {first : PlacedMember String Json} {members : List (PlacedMember String Json)}
    (hmembers : MembersLead levels add? state (first :: members) result) (rest : List UInt8) :
    readMembers value state (first.memberBytes ++
      ((members.map PlacedMember.memberBytes).flatMap (Ascii.comma :: ·) ++
        Ascii.closeBrace :: rest)) = .ok (result, rest) := by
  have hends := endsNumeral_more endsNumeral_closeBrace
    (members.map PlacedMember.memberBytes) rest
  induction members generalizing state first with
  | nil =>
    cases hmembers with
    | cons hnamed hspells hadd hmembers =>
      cases hmembers
      rw [readMembers_member h hnamed hspells hadd hends (by decide) rfl, if_pos rfl]
  | cons second members ih =>
    cases hmembers with
    | cons hnamed hspells hadd hmembers =>
      rw [List.map_cons, List.flatMap_cons, List.cons_append, List.cons_append,
        List.append_assoc] at hends ⊢
      rw [readMembers_member h hnamed hspells hadd hends (by decide) rfl, if_neg (by decide),
        if_pos rfl]
      exact ih hmembers (endsNumeral_more endsNumeral_closeBrace _ _)

/-- What is read of a member is its text and the space around it. -/
theorem member_of_read (h : TakesMembers value levels add?) {state state' : σ} {name : String}
    {reader : Reader σ} {text afterName afterColon afterValue : List UInt8}
    (hname : readName text = .ok (name, afterName)) (hreader : value state name = .ok reader)
    (hcolon : readColon afterName = .ok afterColon)
    (hvalue : reader.read afterColon = .ok (state', afterValue)) :
    ∃ member : PlacedMember String Json, member.IsNamed SpellsString ∧
      Spells levels member.value member.text ∧ add? state member.member = some state' ∧
      text = member.memberBytes ++ skipSpace afterValue := by
  obtain ⟨beforeName, nameText, hbeforeName, rfl, hnameText⟩ := spells_of_readName hname
  obtain ⟨behindName, hbehindName, rfl⟩ := spells_of_readColon hcolon
  obtain ⟨before, body, json, hbefore, rfl, hspells, hadd⟩ :=
    ((h state name).2 reader hreader).spelt hvalue
  obtain ⟨after, hafter, htext⟩ := exists_skipSpace afterValue
  refine ⟨⟨⟨before, json, body, after⟩, beforeName, name, nameText, behindName⟩,
    ⟨⟨hbefore, hafter⟩, hbeforeName, hnameText, hbehindName⟩, hspells, hadd, ?_⟩
  simp only [PlacedMember.memberBytes, Placed.bytes, List.append_assoc, List.cons_append, ← htext]

/-- What was read up to the brace are members, at least one, with commas between them. -/
theorem members_of_readMembers (h : TakesMembers value levels add?) {state result : σ}
    {text rest : List UInt8} (hread : readMembers value state text = .ok (result, rest)) :
    ∃ first members, MembersLead levels add? state (first :: members) result ∧
      text = first.memberBytes ++
        ((members.map PlacedMember.memberBytes).flatMap (Ascii.comma :: ·) ++
          Ascii.closeBrace :: rest) := by
  fun_induction readMembers value state text with
  | case1 | case2 | case3 | case4 | case5 | case8 => cases hread
  | case6 state text name afterName hname reader hreader afterColon hcolon state' afterValue hvalue
      after hskip =>
    cases hread
    obtain ⟨member, hnamed, hspells, hadd, htext⟩ := member_of_read h hname hreader hcolon hvalue
    exact ⟨member, [], .cons hnamed hspells hadd (.nil _), hskip ▸ htext⟩
  | case7 state text name afterName hname reader hreader afterColon hcolon state' afterValue hvalue
      after hskip _ ih =>
    obtain ⟨member, hnamed, hspells, hadd, htext⟩ := member_of_read h hname hreader hcolon hvalue
    obtain ⟨second, members, hmembers, rfl⟩ := ih hread
    refine ⟨member, second :: members, .cons hnamed hspells hadd hmembers, ?_⟩
    rw [htext, hskip]
    simp

/-- The members of an object are read up to the brace, or the space is if there are none. -/
theorem readObject_spelt (h : TakesMembers value levels add?) {space : List UInt8}
    (hspace : Blank space) {state result : σ} {members : List (PlacedMember String Json)}
    (hmembers : MembersLead levels add? state members result) (rest : List UInt8) :
    readObject value state (listed space (members.map PlacedMember.memberBytes) ++
      Ascii.closeBrace :: rest) = .ok (result, rest) := by
  cases hmembers with
  | nil =>
    rw [List.map_nil, listed, readObject, skipSpace_append_cons hspace rfl]
    exact if_pos rfl
  | @cons _ first members state' _ hnamed hspells hadd hmore =>
    obtain ⟨tail, hquote, -⟩ := readString_spelt hnamed.nameText []
    have hskip : ∀ rest, ∃ rest', skipSpace (first.memberBytes ++ rest) = Ascii.quote :: rest' := by
      intro rest
      simp only [PlacedMember.memberBytes, hquote, List.append_assoc, List.cons_append]
      exact ⟨_, skipSpace_append_cons hnamed.beforeName rfl _⟩
    rw [List.map_cons, listed, List.append_assoc, readObject]
    obtain ⟨rest', hrest'⟩ := hskip _
    rw [hrest']
    exact (if_neg (by decide)).trans
      (readMembers_spelt h (.cons hnamed hspells hadd hmore) rest)

/-- What was read up to the brace are members with commas between them, or space. -/
theorem members_of_readObject (h : TakesMembers value levels add?) {state result : σ}
    {text rest : List UInt8} (hread : readObject value state text = .ok (result, rest)) :
    ∃ space members, Blank space ∧ MembersLead levels add? state members result ∧
      text = listed space (members.map PlacedMember.memberBytes) ++ Ascii.closeBrace :: rest := by
  obtain ⟨space, hspace, htext⟩ := exists_skipSpace text
  unfold readObject at hread
  split at hread
  · cases hread
  rename_i hskip
  split at hread
  · rename_i hclose
    cases hread
    rw [hskip, hclose] at htext
    exact ⟨space, [], hspace, .nil _, htext⟩
  · obtain ⟨first, members, hmembers, rfl⟩ := members_of_readMembers h hread
    exact ⟨[], first :: members, blank_nil, hmembers, by simp [listed]⟩

end Objects

/-! ## Values -/

/-- An object that is read as it is keeps its members, latest first. -/
theorem memberReader_takes {item : Reader Json} {levels : Nat} (h : item.Takes levels Eq) :
    TakesMembers (memberReader item) levels fun members member => some (member :: members) := by
  intro state name
  refine ⟨fun json state' _ => ⟨_, rfl⟩, ?_⟩
  rintro reader ⟨⟩
  refine (Reader.map_takes h fun json => (name, json) :: state).congr fun json state' => ?_
  simp

/-- Members that are collected one by one come out in reverse. -/
theorem foldlM_cons (members before : List (String × Json)) :
    members.foldlM (fun members member => some (member :: members)) before =
      some (members.reverse ++ before) := by
  induction members generalizing before with
  | nil => rfl
  | cons member members ih => simp [ih]

/-- A value that holds no others begins like no array or object. -/
theorem Spells.head {value : Json} {text : List UInt8} (h : Spells 0 value text) :
    ∃ byte tail, text = byte :: tail ∧ isSpace byte = false ∧
      byte ≠ Ascii.openBracket ∧ byte ≠ Ascii.openBrace := by
  cases h with
  | null => exact ⟨_, _, rfl, rfl, by decide, by decide⟩
  | bool _ value => cases value <;> exact ⟨_, _, rfl, rfl, by decide, by decide⟩
  | number _ h =>
    obtain ⟨byte, tail, rfl, hbyte⟩ := head_of_spellsNumeral h
    obtain ⟨hspace, hne⟩ := beginsNumber hbyte
    exact ⟨byte, tail, rfl, hspace, fun heq => hne (by simp [heq]), fun heq => hne (by simp [heq])⟩
  | string _ h =>
    obtain ⟨body, -, rfl⟩ := h
    exact ⟨_, _, rfl, rfl, by decide, by decide⟩

/-- A value that holds no others is read at any level. -/
theorem valueReader_recovers_scalar (levels : Nat) {value : Json} {text : List UInt8}
    (h : Spells 0 value text) : (valueReader levels).Recovers text value :=
  valueReader_scalar levels h.head (readScalar_spelt h)

/-- An array that was read follows the grammar, one level above its items. -/
theorem spells_of_readItems {item : Reader Json} {levels : Nat} (h : item.Takes levels Eq)
    {text rest : List UInt8} {items : List Json} (hread : readItems item text = .ok (items, rest)) :
    ∃ body, Ascii.openBracket :: text = body ++ rest ∧ Spells (levels + 1) (.array items) body := by
  obtain ⟨space, placed, hspace, hitems, rfl⟩ := items_of_readItems h hread
  exact ⟨_, by simp, hitems.spells_array hspace⟩

/-- An object that was read follows the grammar, one level above its members, which come out in
reverse. -/
theorem spells_of_readObject {item : Reader Json} {levels : Nat} (h : item.Takes levels Eq)
    {text rest : List UInt8} {members : List (String × Json)}
    (hread : readObject (memberReader item) [] text = .ok (members, rest)) :
    ∃ body, Ascii.openBrace :: text = body ++ rest ∧
      Spells (levels + 1) (.object members.reverse) body := by
  obtain ⟨space, placed, hspace, hmembers, rfl⟩ :=
    members_of_readObject (memberReader_takes h) hread
  obtain ⟨hnamed, hspells, hvalues⟩ := membersLead_iff.mp hmembers
  rw [foldlM_cons, List.append_nil, Option.some.injEq] at hvalues
  rw [← hvalues, List.reverse_reverse]
  exact ⟨_, by simp, .object hspace hnamed hspells⟩

/-- Reading a value agrees with the grammar if reading the values in it does. -/
theorem nestedReader_spelt {item : Option (Reader Json)} {levels : Nat}
    (h : ∀ reader, item = some reader → ∃ inner, levels = inner + 1 ∧ reader.Takes inner Eq)
    {text rest : List UInt8} {value : Json}
    (hread : (nestedReader item).read text = .ok (value, rest)) :
    ∃ space body, Blank space ∧ text = space ++ (body ++ rest) ∧ Spells levels value body := by
  obtain ⟨space, hspace, htext⟩ := exists_skipSpace text
  suffices hbody : ∃ body, skipSpace text = body ++ rest ∧ Spells levels value body by
    obtain ⟨body, hskip, hspells⟩ := hbody
    exact ⟨space, body, hspace, hskip ▸ htext, hspells⟩
  dsimp only [nestedReader] at hread
  unfold readValue at hread
  split at hread
  · cases hread
  rename_i hskip
  rw [hskip]
  split at hread
  · rename_i hopen
    split at hread
    · cases hread
    obtain ⟨inner, rfl, htakes⟩ := h _ rfl
    split at hread
    · rename_i hitems
      cases hread
      exact hopen ▸ spells_of_readItems htakes hitems
    · cases hread
  split at hread
  · rename_i hopen
    split at hread
    · cases hread
    obtain ⟨inner, rfl, htakes⟩ := h _ rfl
    split at hread
    · rename_i hmembers
      cases hread
      exact hopen ▸ spells_of_readObject htakes hmembers
    · cases hread
  · rw [hskip] at hread
    obtain ⟨body, hbody, hspells⟩ := spells_of_readScalar hread
    exact ⟨body, hbody, hspells.lift levels⟩

/-- An array is read to its end if its items are. -/
theorem nestedReader_array {item : Reader Json} {levels : Nat} (h : item.Takes levels Eq)
    {space : List UInt8} (hspace : Blank space) {items : List (Placed Json)}
    (hspaced : ∀ item ∈ items, item.IsSpaced)
    (hspells : ∀ item ∈ items, Spells levels item.value item.text) :
    (nestedReader (some item)).Recovers
      (Ascii.openBracket :: (listed space (items.map Placed.bytes) ++ [Ascii.closeBracket]))
      (.array (items.map Placed.value)) := by
  intro before rest hbefore _
  have hitems := readItems_spelt h hspace
    (items_iff.mpr ⟨hspaced, hspells, List.forall₂_refl _⟩) rest
  rw [List.cons_append, nestedReader_read hbefore rfl, List.append_assoc, List.singleton_append]
  unfold readValue
  dsimp only
  rw [if_pos rfl, hitems]

/-- An object is read to its end if the values in it are, and its members keep their order. -/
theorem nestedReader_object {item : Reader Json} {levels : Nat} (h : item.Takes levels Eq)
    {space : List UInt8} (hspace : Blank space) {members : List (PlacedMember String Json)}
    (hnamed : ∀ member ∈ members, member.IsNamed SpellsString)
    (hspells : ∀ member ∈ members, Spells levels member.value member.text) :
    (nestedReader (some item)).Recovers
      (Ascii.openBrace :: (listed space (members.map PlacedMember.memberBytes) ++
        [Ascii.closeBrace])) (.object (members.map PlacedMember.member)) := by
  intro before rest hbefore _
  have hmembers := readObject_spelt (memberReader_takes h) hspace
    (membersLead_iff.mpr ⟨hnamed, hspells, foldlM_cons _ []⟩) rest
  rw [List.cons_append, nestedReader_read hbefore rfl, List.append_assoc, List.singleton_append]
  unfold readValue
  dsimp only
  rw [if_neg (by decide), if_pos rfl, hmembers]
  simp

/-- Reading values agrees with the grammar. -/
theorem valueReader_takes (levels : Nat) : (valueReader levels).Takes levels Eq := by
  induction levels with
  | zero =>
    refine ⟨?_, fun hread => ?_⟩
    · rintro json text value hspells rfl
      exact valueReader_recovers_scalar 0 hspells
    · have hnone : ∀ reader : Reader Json, none = some reader →
          ∃ inner, 0 = inner + 1 ∧ reader.Takes inner Eq := fun _ hsome => by cases hsome
      obtain ⟨space, body, hspace, htext, hspells⟩ := nestedReader_spelt hnone hread
      exact ⟨space, body, _, hspace, htext, hspells, rfl⟩
  | succ levels ih =>
    refine ⟨?_, fun hread => ?_⟩
    · rintro json text value hspells rfl
      cases hspells with
      | null => exact valueReader_recovers_scalar _ (.null 0)
      | bool _ value => exact valueReader_recovers_scalar _ (.bool 0 value)
      | number _ h hvalue => exact valueReader_recovers_scalar _ (.number 0 h hvalue)
      | string _ h => exact valueReader_recovers_scalar _ (.string 0 h)
      | array hspace hspaced hspells => exact nestedReader_array ih hspace hspaced hspells
      | object hspace hnamed hspells => exact nestedReader_object ih hspace hnamed hspells
    · have hinner : ∀ reader, some (valueReader levels) = some reader →
          ∃ inner, levels + 1 = inner + 1 ∧ reader.Takes inner Eq := by
        rintro reader ⟨⟩
        exact ⟨levels, rfl, ih⟩
      obtain ⟨space, body, hspace, htext, hspells⟩ := nestedReader_spelt hinner hread
      exact ⟨space, body, _, hspace, htext, hspells, rfl⟩

/-! ## Documents -/

/-- A document is read as what the value that it spells stands for. -/
theorem readDocument_iff {α : Type} {reader : Reader α} {StandsFor : Json → α → Prop}
    (h : reader.Takes maxLevels StandsFor) {text : List UInt8} {value : α} :
    readDocument reader text = .ok value ↔ ∃ json, Document json text ∧ StandsFor json value := by
  unfold readDocument
  refine ⟨fun hread => ?_, ?_⟩
  · split at hread
    · cases hread
    rename_i hvalue
    split at hread
    · rename_i hrest
      cases hread
      obtain ⟨before, body, json, hbefore, htext, hspells, hstands⟩ := h.spelt hvalue
      exact ⟨json, ⟨before, body, _, hbefore, skipSpace_eq_nil_iff.mp hrest, hspells, htext⟩,
        hstands⟩
    · cases hread
  · rintro ⟨json, ⟨before, body, after, hbefore, hafter, hspells, rfl⟩, hstands⟩
    have hends : EndsNumeral after :=
      List.append_nil after ▸ endsNumeral_append hafter endsNumeral_nil
    rw [h.recovers hspells hstands hbefore hends]
    exact if_pos (skipSpace_eq_nil_iff.mpr hafter)

/-- No document spells two values. -/
theorem Document.unique {first second : Json} {text : List UInt8} (hfirst : Document first text)
    (hsecond : Document second text) : first = second := by
  have hread {value : Json} (h : Document value text) :
      readDocument (valueReader maxLevels) text = .ok value :=
    (readDocument_iff (valueReader_takes maxLevels)).mpr ⟨value, h, rfl⟩
  exact Except.ok.inj ((hread hfirst).symm.trans (hread hsecond))

/-- What is written follows the grammar, if its numbers are read back. -/
theorem Survives.document {value : Json} (h : Survives maxLevels value) :
    Document value (writeDocument value) := by
  have hblank : Blank [Ascii.lineFeed] := List.forall_mem_singleton.mpr rfl
  have hends : EndsNumeral [Ascii.lineFeed] := by decide +kernel
  obtain ⟨space, body, json, hspace, htext, hspells, rfl⟩ :=
    (valueReader_takes maxLevels).spelt (valueReader_recovers h 0 blank_nil hends)
  exact ⟨space, body, _, hspace, hblank, hspells, htext⟩

end Json

end JtagPlayer
