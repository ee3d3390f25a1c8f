import JtagPlayer.Json.Reader
import JtagPlayer.Proofs.Numerals
import JtagPlayer.Proofs.Quoting

/-!
# Written values are read back

A reader `Recovers` a value from a text if it takes the value, and nothing else, from any document
in which the text stands after space and in front of what ends a numeral. Written arrays and objects
are recovered if their items and the values of their members are, whatever reads these; that is
`Json.readItems_closed` and `Json.readObject_closed`.

`Json.valueReader_recovers` is the case of values that are read as they are, by induction on what
the value holds. `Json.Survives` says which values these are.
-/

namespace JtagPlayer

open Lexical

namespace Lexical

theorem skipSpace_append {space : List UInt8} (h : ∀ byte ∈ space, isSpace byte = true)
    (text : List UInt8) : skipSpace (space ++ text) = skipSpace text :=
  List.dropWhile_append_of_pos h

theorem skipSpace_cons {byte : UInt8} (h : isSpace byte = false) (rest : List UInt8) :
    skipSpace (byte :: rest) = byte :: rest :=
  List.dropWhile_cons_of_neg (by simp [h])

/-- The first byte after space. -/
theorem skipSpace_append_cons {space : List UInt8} (hspace : ∀ byte ∈ space, isSpace byte = true)
    {byte : UInt8} (hbyte : isSpace byte = false) (rest : List UInt8) :
    skipSpace (space ++ byte :: rest) = byte :: rest := by
  rw [skipSpace_append hspace, skipSpace_cons hbyte]

end Lexical

/-- A reader takes a value from a text, whatever space stands in front of it and whatever follows,
as long as it does not go on with a numeral. -/
def Reader.Recovers {α : Type} (reader : Reader α) (text : List UInt8) (value : α) : Prop :=
  ∀ ⦃space rest⦄, (∀ byte ∈ space, isSpace byte = true) → EndsNumeral rest →
    reader.read (space ++ (text ++ rest)) = .ok (value, rest)

theorem Reader.Recovers.map {α β : Type} {reader : Reader α} {text : List UInt8} {value : α}
    (h : reader.Recovers text value) (f : α → β) : (reader.map f).Recovers text (f value) := by
  intro space rest hspace hrest
  dsimp only [Reader.map]
  rw [h hspace hrest]

namespace Json

theorem isSpace_newline (depth : Nat) : ∀ byte ∈ newline depth, isSpace byte = true := by
  intro byte hbyte
  rcases List.mem_cons.mp hbyte with rfl | hspace
  · rfl
  · rw [List.eq_of_mem_replicate hspace]
    rfl

/-- Texts that follow a first one, each on a line of its own. -/
def separated (depth : Nat) (texts : List (List UInt8)) : List UInt8 :=
  texts.flatMap fun text => Ascii.comma :: (newline depth ++ text)

theorem separated_cons (depth : Nat) (text : List UInt8) (texts : List (List UInt8))
    (rest : List UInt8) :
    separated depth (text :: texts) ++ rest =
      Ascii.comma :: (newline depth ++ (text ++ (separated depth texts ++ rest))) := by
  simp [separated]

/-- Texts and the bracket that closes them. -/
def closed (closing : UInt8) (depth : Nat) : List (List UInt8) → List UInt8
  | [] => [closing]
  | text :: texts =>
    newline (depth + 1) ++ (text ++ (separated (depth + 1) texts ++ (newline depth ++ [closing])))

/-- A member of an object whose value has been written. -/
def memberText (member : String × List UInt8) : List UInt8 :=
  writeString member.1 ++ Ascii.colon :: Ascii.space :: member.2

theorem writeMore_eq (depth : Nat) (items : List Json) :
    writeMore depth items = separated depth (items.map (write depth)) := by
  induction items with
  | nil => rfl
  | cons item items ih => simp [writeMore, separated, ih]

theorem writeMembers_eq (depth : Nat) (members : List (String × Json)) :
    writeMembers depth members =
      separated depth (members.map fun (name, value) => memberText (name, write depth value)) := by
  induction members with
  | nil => rfl
  | cons member members ih =>
    obtain ⟨name, value⟩ := member
    simp [writeMembers, writeMember, separated, memberText, ih]

theorem write_array (depth : Nat) (items : List Json) :
    write depth (.array items) =
      Ascii.openBracket :: closed Ascii.closeBracket depth (items.map (write (depth + 1))) := by
  cases items with
  | nil => rfl
  | cons item items => simp [write, closed, writeMore_eq]

theorem write_object (depth : Nat) (members : List (String × Json)) :
    write depth (.object members) = Ascii.openBrace :: closed Ascii.closeBrace depth
      (members.map fun (name, value) => memberText (name, write (depth + 1) value)) := by
  cases members with
  | nil => rfl
  | cons member members =>
    obtain ⟨name, value⟩ := member
    simp [write, writeMember, closed, memberText, writeMembers_eq]

/-! ## Arrays -/

section Arrays

variable {α : Type} {item : Reader α}

/-- A closing bracket ends an array. -/
theorem readMore_close {text rest : List UInt8}
    (h : skipSpace text = Ascii.closeBracket :: rest) : readMore item text = .ok ([], rest) := by
  rw [readMore]
  split
  · rename_i hspace
    cases h.symm.trans hspace
  · rename_i hspace
    cases h.symm.trans hspace
    exact if_pos rfl

/-- After a comma another item is read. -/
theorem readMore_comma {text rest afterFirst afterMore : List UInt8} {first : α} {more : List α}
    (h : skipSpace text = Ascii.comma :: rest) (hfirst : item.read rest = .ok (first, afterFirst))
    (hmore : readMore item afterFirst = .ok (more, afterMore)) :
    readMore item text = .ok (first :: more, afterMore) := by
  rw [readMore]
  split
  · rename_i hspace
    cases h.symm.trans hspace
  · rename_i hspace
    cases h.symm.trans hspace
    rw [if_neg (by decide), if_pos rfl]
    split
    · rename_i herror
      cases hfirst.symm.trans herror
    · rename_i hok
      cases hfirst.symm.trans hok
      rw [hmore]

/-- Whatever follows an item in a document does not go on with a numeral. -/
theorem endsNumeral_separated (depth outer : Nat) (texts : List (List UInt8)) (closing : UInt8)
    (rest : List UInt8) :
    EndsNumeral (separated depth texts ++ (newline outer ++ closing :: rest)) := by
  have hcomma : EndsNumeral [Ascii.comma] := by decide +kernel
  have hline : EndsNumeral [Ascii.lineFeed] := by decide +kernel
  cases texts with
  | nil => exact hline
  | cons text texts => exact hcomma

/-- Items are recovered up to the closing bracket. -/
theorem readMore_separated {write : α → List UInt8} {items : List α}
    (h : ∀ x ∈ items, item.Recovers (write x) x) (depth outer : Nat) (rest : List UInt8) :
    readMore item (separated depth (items.map write) ++
      (newline outer ++ Ascii.closeBracket :: rest)) = .ok (items, rest) := by
  induction items with
  | nil => exact readMore_close (skipSpace_append_cons (isSpace_newline outer) rfl rest)
  | cons first items ih =>
    obtain ⟨hfirst, hitems⟩ := List.forall_mem_cons.mp h
    rw [List.map_cons, separated_cons]
    exact readMore_comma (skipSpace_cons rfl _)
      (hfirst (isSpace_newline depth) (endsNumeral_separated _ _ _ _ _)) (ih hitems)

/-- A text that begins a value. -/
def Begins (text : List UInt8) : Prop :=
  ∃ byte tail, text = byte :: tail ∧ isSpace byte = false ∧ byte ≠ Ascii.closeBracket

/-- The items of an array are recovered one by one. -/
theorem readItems_closed {write : α → List UInt8} {items : List α}
    (h : ∀ x ∈ items, item.Recovers (write x) x) (hbegins : ∀ x ∈ items, Begins (write x))
    (depth : Nat) (rest : List UInt8) :
    readItems item (closed Ascii.closeBracket depth (items.map write) ++ rest) =
      .ok (items, rest) := by
  cases items with
  | nil => rfl
  | cons first items =>
    obtain ⟨hfirst, hitems⟩ := List.forall_mem_cons.mp h
    obtain ⟨byte, tail, hwrite, hspace, hclose⟩ := hbegins first List.mem_cons_self
    have hmore := readMore_separated hitems (depth + 1) depth rest
    have hitem := hfirst (isSpace_newline (depth + 1))
      (endsNumeral_separated (depth + 1) depth (items.map write) Ascii.closeBracket rest)
    simp only [List.map_cons, closed, List.append_assoc, List.singleton_append]
    unfold readItems
    rw [hwrite, List.cons_append, skipSpace_append_cons (isSpace_newline _) hspace]
    dsimp only
    rw [if_neg hclose, ← List.cons_append, ← hwrite, hitem]
    dsimp only
    rw [hmore]

end Arrays

/-! ## Objects -/

section Objects

variable {σ : Type} {value : σ → String → Except ReadFailure (Reader σ)}

/-- The members of an object are recovered one after the other, each by the reader for its name. -/
inductive Members (value : σ → String → Except ReadFailure (Reader σ)) :
    σ → List (String × List UInt8) → σ → Prop where
  | nil (state : σ) : Members value state [] state
  | cons {state name text reader state' members result} (hvalue : value state name = .ok reader)
      (hreader : reader.Recovers text state') (hrest : Members value state' members result) :
      Members value state ((name, text) :: members) result

theorem writeString_append (value : String) (rest : List UInt8) :
    writeString value ++ rest =
      Ascii.quote :: ((Text.toBytes value).flatMap escapeByte ++ Ascii.quote :: rest) := by
  simp [writeString]

/-- The name of a member. -/
theorem readName_writeString {space : List UInt8} (hspace : ∀ byte ∈ space, isSpace byte = true)
    (name : String) (rest : List UInt8) :
    readName (space ++ (writeString name ++ rest)) = .ok (name, rest) := by
  rw [writeString_append, readName, skipSpace_append_cons hspace rfl]
  exact (if_pos rfl).trans (readString_escaped name rest)

/-- A string is recovered. -/
theorem stringReader_recovers (value : String) :
    stringReader.Recovers (writeString value) value := by
  intro space rest hspace hrest
  rw [writeString_append]
  dsimp only [stringReader]
  rw [skipSpace_append_cons hspace rfl]
  exact (if_pos rfl).trans (readString_escaped value rest)

/-- After a member more follow a comma, or a brace closes the object. -/
theorem readMembers_step {state state' : σ} {name : String} {reader : Reader σ}
    {text afterName afterColon afterValue rest : List UInt8} {byte : UInt8}
    (hname : readName text = .ok (name, afterName)) (hvalue : value state name = .ok reader)
    (hcolon : readColon afterName = .ok afterColon)
    (hread : reader.read afterColon = .ok (state', afterValue))
    (hspace : skipSpace afterValue = byte :: rest) :
    readMembers value state text =
      if byte = Ascii.closeBrace then .ok (state', rest)
      else if byte = Ascii.comma then readMembers value state' rest
      else .error .malformed := by
  rw [readMembers]
  split
  · rename_i herror
    cases hname.symm.trans herror
  rename_i hok
  cases hname.symm.trans hok
  split
  · rename_i herror
    cases hvalue.symm.trans herror
  rename_i hok
  cases hvalue.symm.trans hok
  split
  · rename_i herror
    cases hcolon.symm.trans herror
  rename_i hok
  cases hcolon.symm.trans hok
  split
  · rename_i herror
    cases hread.symm.trans herror
  rename_i hok
  cases hread.symm.trans hok
  split
  · rename_i hnil
    cases hspace.symm.trans hnil
  rename_i hcons
  cases hspace.symm.trans hcons
  rfl

/-- A written member is read, and then what follows it decides. -/
theorem readMembers_memberText {space : List UInt8}
    (hspace : ∀ byte ∈ space, isSpace byte = true) {state state' : σ} {name : String}
    {reader : Reader σ} {text after rest : List UInt8} {byte : UInt8}
    (hvalue : value state name = .ok reader) (hreader : reader.Recovers text state')
    (hafter : EndsNumeral after) (hbyte : skipSpace after = byte :: rest) :
    readMembers value state (space ++ (memberText (name, text) ++ after)) =
      if byte = Ascii.closeBrace then .ok (state', rest)
      else if byte = Ascii.comma then readMembers value state' rest
      else .error .malformed := by
  have htext : space ++ (memberText (name, text) ++ after) =
      space ++ (writeString name ++ Ascii.colon :: Ascii.space :: (text ++ after)) := by
    simp [memberText]
  have hone : ∀ byte ∈ [Ascii.space], isSpace byte = true := List.forall_mem_singleton.mpr rfl
  rw [htext]
  exact readMembers_step (readName_writeString hspace name _) hvalue rfl (hreader hone hafter) hbyte

/-- Members are recovered up to the closing brace. -/
theorem readMembers_separated {state result : σ} {name : String} {text : List UInt8}
    {members : List (String × List UInt8)}
    (h : Members value state ((name, text) :: members) result) (depth outer : Nat)
    {space : List UInt8} (hspace : ∀ byte ∈ space, isSpace byte = true) (rest : List UInt8) :
    readMembers value state (space ++ (memberText (name, text) ++
      (separated depth (members.map memberText) ++ (newline outer ++ Ascii.closeBrace :: rest)))) =
        .ok (result, rest) := by
  have hends := endsNumeral_separated depth outer (members.map memberText) Ascii.closeBrace rest
  induction members generalizing state name text space with
  | nil =>
    cases h with
    | cons hvalue hreader hrest =>
      cases hrest
      have hbrace : isSpace Ascii.closeBrace = false := rfl
      exact readMembers_memberText hspace hvalue hreader hends
        (skipSpace_append_cons (isSpace_newline outer) hbrace rest)
  | cons member members ih =>
    cases h with
    | cons hvalue hreader hrest =>
      have hcomma : ∀ texts, skipSpace (Ascii.comma :: texts) = Ascii.comma :: texts :=
        skipSpace_cons rfl
      rw [List.map_cons, separated_cons] at hends ⊢
      rw [readMembers_memberText hspace hvalue hreader hends (hcomma _), if_neg (by decide),
        if_pos rfl]
      exact ih hrest (isSpace_newline depth) (endsNumeral_separated _ _ _ _ _)

/-- An object is recovered member by member. -/
theorem readObject_closed {state result : σ} {members : List (String × List UInt8)}
    (h : Members value state members result) (depth : Nat) (rest : List UInt8) :
    readObject value state (closed Ascii.closeBrace depth (members.map memberText) ++ rest) =
      .ok (result, rest) := by
  cases members with
  | nil =>
    cases h
    rfl
  | cons member members =>
    have hmembers := readMembers_separated h (depth + 1) depth (isSpace_newline (depth + 1)) rest
    have hquote : ∃ tail, memberText member = Ascii.quote :: tail := ⟨_, rfl⟩
    obtain ⟨tail, htail⟩ := hquote
    simp only [List.map_cons, closed, List.append_assoc, List.singleton_append]
    unfold readObject
    rw [htail, List.cons_append, skipSpace_append_cons (isSpace_newline _) rfl]
    dsimp only
    rw [if_neg (by decide), ← List.cons_append, ← htail]
    exact hmembers

end Objects

/-! ## Values -/

/-- A value that is read back as it was written: its numbers are, and arrays and objects are nested
in it to a limited depth. -/
inductive Survives : Nat → Json → Prop where
  | null (levels : Nat) : Survives levels .null
  | bool (levels : Nat) (value : Bool) : Survives levels (.bool value)
  | number (levels : Nat) {value : Number} (h : value.Survives) : Survives levels (.number value)
  | string (levels : Nat) (value : String) : Survives levels (.string value)
  | array {levels : Nat} {items : List Json} (h : ∀ item ∈ items, Survives levels item) :
      Survives (levels + 1) (.array items)
  | object {levels : Nat} {members : List (String × Json)}
      (h : ∀ member ∈ members, Survives levels member.2) : Survives (levels + 1) (.object members)

/-- A byte that begins a number begins nothing else. -/
theorem beginsNumber {byte : UInt8} (h : byte = Ascii.minus ∨ Ascii.isDigit byte = true) :
    isSpace byte = false ∧ byte ∉ [Ascii.openBracket, Ascii.openBrace, Ascii.closeBracket,
      Ascii.letterN, Ascii.letterT, Ascii.letterF, Ascii.quote] := by
  have hothers : ∀ other ∈ [0x20, 0x0a, 0x09, 0x0d, Ascii.openBracket, Ascii.openBrace,
      Ascii.closeBracket, Ascii.letterN, Ascii.letterT, Ascii.letterF, Ascii.quote],
      ¬ (other = Ascii.minus ∨ Ascii.isDigit other = true) := by
    decide +kernel
  have hne : byte ∉ [0x20, 0x0a, 0x09, 0x0d, Ascii.openBracket, Ascii.openBrace,
      Ascii.closeBracket, Ascii.letterN, Ascii.letterT, Ascii.letterF, Ascii.quote] :=
    fun hmem => hothers byte hmem h
  simp only [List.mem_cons, not_or] at hne ⊢
  simp [isSpace, hne]

/-- A written number is a scalar. -/
theorem readScalar_writeNumber {value : Number} (h : value.Survives) {rest : List UInt8}
    (hrest : EndsNumeral rest) :
    readScalar (writeNumber value ++ rest) = .ok (.number value, rest) := by
  obtain ⟨byte, tail, htext, hbyte⟩ := head_of_readNumber h
  have hne := (beginsNumber hbyte).2
  simp only [List.mem_cons, not_or] at hne
  have hread := h.read hrest
  rw [htext, List.cons_append] at hread ⊢
  unfold readScalar
  simp [hne, hbyte, hread]

/-- So is a written string. -/
theorem readScalar_writeString (value : String) (rest : List UInt8) :
    readScalar (writeString value ++ rest) = .ok (.string value, rest) := by
  rw [writeString_append]
  unfold readScalar
  dsimp only
  rw [if_neg (by decide), if_neg (by decide), if_neg (by decide), if_pos rfl, readString_escaped]

/-- A written value begins with a byte that is neither space nor a closing bracket. -/
theorem begins_write {levels : Nat} {value : Json} (h : Survives levels value) (depth : Nat) :
    Begins (write depth value) := by
  cases h with
  | null => exact ⟨_, _, rfl, rfl, by decide⟩
  | bool levels value => cases value <;> exact ⟨_, _, rfl, rfl, by decide⟩
  | number levels h =>
    obtain ⟨byte, tail, htext, hbyte⟩ := head_of_readNumber h
    obtain ⟨hspace, hne⟩ := beginsNumber hbyte
    exact ⟨byte, tail, htext, hspace, fun heq => hne (by simp [heq])⟩
  | string levels value => exact ⟨_, _, rfl, rfl, by decide⟩
  | array h =>
    rw [write_array]
    exact ⟨_, _, rfl, rfl, by decide⟩
  | object h =>
    rw [write_object]
    exact ⟨_, _, rfl, rfl, by decide⟩

/-- A value after space begins with its first byte. -/
theorem nestedReader_read {item : Option (Reader Json)} {space : List UInt8}
    (hspace : ∀ byte ∈ space, isSpace byte = true) {byte : UInt8} (hbyte : isSpace byte = false)
    (rest : List UInt8) :
    (nestedReader item).read (space ++ byte :: rest) = readValue item (byte :: rest) :=
  congrArg (readValue item) (skipSpace_append_cons hspace hbyte rest)

/-- A value that holds no others is recovered as a scalar. -/
theorem valueReader_scalar (levels : Nat) {value : Json} {text : List UInt8}
    (hhead : ∃ byte tail, text = byte :: tail ∧ isSpace byte = false ∧
      byte ≠ Ascii.openBracket ∧ byte ≠ Ascii.openBrace)
    (h : ∀ {rest}, EndsNumeral rest → readScalar (text ++ rest) = .ok (value, rest)) :
    (valueReader levels).Recovers text value := by
  intro space rest hspace hrest
  obtain ⟨byte, tail, rfl, hbyte, hbracket, hbrace⟩ := hhead
  have hread : ∀ item : Option (Reader Json), (nestedReader item).read
      (space ++ (byte :: tail ++ rest)) = readScalar (byte :: tail ++ rest) := fun item => by
    rw [List.cons_append, nestedReader_read hspace hbyte]
    exact (if_neg hbracket).trans (if_neg hbrace)
  cases levels with
  | zero => exact (hread none).trans (h hrest)
  | succ levels => exact (hread (some (valueReader levels))).trans (h hrest)

/-- The members of an object are kept, latest first. -/
theorem members_memberReader {item : Reader Json} {write : Json → List UInt8}
    {members : List (String × Json)}
    (h : ∀ member ∈ members, item.Recovers (write member.2) member.2)
    (before : List (String × Json)) :
    Members (memberReader item) before (members.map fun (name, value) => (name, write value))
      (members.reverse ++ before) := by
  induction members generalizing before with
  | nil => exact .nil before
  | cons member members ih =>
    obtain ⟨hfirst, hmembers⟩ := List.forall_mem_cons.mp h
    rw [List.reverse_cons, List.append_assoc, List.singleton_append]
    exact .cons rfl (hfirst.map _) (ih hmembers (member :: before))

/-- A surviving value is recovered. -/
theorem valueReader_recovers {levels : Nat} {value : Json} (h : Survives levels value)
    (depth : Nat) : (valueReader levels).Recovers (write depth value) value := by
  induction h generalizing depth with
  | null levels =>
    exact valueReader_scalar levels ⟨_, _, rfl, rfl, by decide, by decide⟩ fun _ => rfl
  | bool levels value =>
    cases value <;>
      exact valueReader_scalar levels ⟨_, _, rfl, rfl, by decide, by decide⟩ fun _ => rfl
  | number levels h =>
    obtain ⟨byte, tail, htext, hbyte⟩ := head_of_readNumber h
    obtain ⟨hspace, hne⟩ := beginsNumber hbyte
    exact valueReader_scalar levels ⟨byte, tail, htext, hspace, fun heq => hne (by simp [heq]),
      fun heq => hne (by simp [heq])⟩ (readScalar_writeNumber h)
  | string levels value =>
    exact valueReader_scalar levels ⟨_, _, rfl, rfl, by decide, by decide⟩ fun _ =>
      readScalar_writeString value _
  | @array levels items h ih =>
    intro space rest hspace hrest
    have hitems := readItems_closed (fun item hitem => ih item hitem (depth + 1))
      (fun item hitem => begins_write (h item hitem) (depth + 1)) depth rest
    rw [write_array, List.cons_append, valueReader, nestedReader_read hspace rfl]
    unfold readValue
    dsimp only
    rw [if_pos rfl, hitems]
  | @object levels members h ih =>
    intro space rest hspace hrest
    have hmembers := readObject_closed
      (members_memberReader (fun member hmember => ih member hmember (depth + 1)) []) depth rest
    rw [List.append_nil, List.map_map] at hmembers
    rw [write_object, List.cons_append, valueReader, nestedReader_read hspace rfl]
    unfold readValue
    dsimp only
    rw [if_neg (by decide), if_pos rfl]
    have htexts : (memberText ∘ fun (name, value) => (name, write (depth + 1) value)) =
        fun (name, value) => memberText (name, write (depth + 1) value) := rfl
    rw [htexts] at hmembers
    rw [hmembers]
    simp

end Json

end JtagPlayer
