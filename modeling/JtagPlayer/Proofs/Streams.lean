import JtagPlayer.Proofs.Documents
import JtagPlayer.Proofs.Members
import JtagPlayer.Proofs.Yielding

/-!
# Written instruction streams are read back

`Program.read_write` says that a program is recovered from the document that is written for it:
`Json.valueReader_recovers` recovers the members of each instruction, and
`Instruction.ofContent_members` makes the instruction of them again. It assumes that a number in
double precision is recovered from its own text. Where a program has been read, its numbers are
finite anyway, so that reading, writing and reading again makes no difference.
-/

namespace JtagPlayer

open Json

namespace Instruction

/-! ## What is written survives -/

theorem forall_mem_optional {α : Type} {name : String} {json : α → Json} {value : Option α}
    {P : String × Json → Prop} (h : ∀ given, value = some given → P (name, json given)) :
    ∀ member ∈ optional name json value, P member := by
  cases value with
  | none => nofun
  | some given => exact List.forall_mem_singleton.mpr (h given rfl)

/-- An integer of 32 bits survives. -/
theorem survives_word (levels : Nat) (value : UInt32) : Survives levels (ofNat value.toNat) := by
  have hlt := value.toNat_lt
  have hword : (2 : Nat) ^ 32 ≤ Numeral.maxWord := by decide
  exact .number levels (Number.survives_ofNat (by omega))

/-- A pattern holds an integer and strings. -/
theorem survives_pattern (levels : Nat) (pattern : Pattern) :
    Survives (levels + 1) pattern.toJson := by
  have hbytes (name : String) (bytes : Option (List UInt8)) :
      ∀ member ∈ optional name (fun bytes => Json.string (Hex.encode bytes)) bytes,
        Survives levels member.2 :=
    forall_mem_optional fun given _ => .string levels _
  have hlength : ∀ member ∈ [("length", ofNat pattern.length.toNat)], Survives levels member.2 :=
    List.forall_mem_singleton.mpr (survives_word levels pattern.length)
  refine .object ?_
  simp only [List.forall_mem_append]
  exact ⟨⟨⟨⟨hlength, hbytes _ _⟩, hbytes _ _⟩, hbytes _ _⟩, hbytes _ _⟩

/-- The members of an instruction have other names than the kind, and their values survive if the
numbers do. -/
theorem members_survive {instruction : Instruction} (levels : Nat)
    (h : ∀ x ∈ instruction.numbers, (Number.decimal x).Survives) :
    ∀ member ∈ instruction.members, member.1 ≠ "kind" ∧ Survives (levels + 1) member.2 := by
  have hmember {name : String} {value : Json} (hname : name ≠ "kind")
      (hvalue : Survives (levels + 1) value) :
      (name, value).1 ≠ "kind" ∧ Survives (levels + 1) (name, value).2 :=
    ⟨hname, hvalue⟩
  have hstate (state : TapState) (levels : Nat) : Survives levels state.toJson := .string levels _
  cases instruction with
  | setEndState register state =>
    simp only [members, List.forall_mem_cons]
    exact ⟨hmember (by decide) (.string _ _), hmember (by decide) (hstate _ _), nofun⟩
  | setFrequency hz =>
    exact List.forall_mem_singleton.mpr
      (hmember (by decide) (.number _ (h hz List.mem_cons_self)))
  | setHeader register pattern | setTrailer register pattern =>
    simp only [members, List.forall_mem_cons]
    exact ⟨hmember (by decide) (.string _ _), hmember (by decide) (survives_pattern _ _), nofun⟩
  | shift register pattern label =>
    simp only [members, List.forall_mem_append, List.forall_mem_cons]
    exact ⟨⟨hmember (by decide) (.string _ _), hmember (by decide) (survives_pattern _ _), nofun⟩,
      forall_mem_optional fun given _ => hmember (by decide) (.string _ _)⟩
  | runTest test =>
    have hminTime := h test.minTime List.mem_cons_self
    have hmaxTime : ∀ given, test.maxTime = some given → (Number.decimal given).Survives :=
      fun given hgiven => h given (List.mem_cons_of_mem _ (Option.mem_toList.mpr hgiven))
    simp only [members, List.forall_mem_append, List.forall_mem_cons]
    refine ⟨⟨⟨?_, hmember (by decide) (survives_word _ _),
      hmember (by decide) (.number _ hminTime), nofun⟩, ?_⟩, ?_⟩
    · exact forall_mem_optional fun given _ => hmember (by decide) (hstate _ _)
    · exact forall_mem_optional fun given hgiven =>
        hmember (by decide) (.number _ (hmaxTime given hgiven))
    · exact forall_mem_optional fun given _ => hmember (by decide) (hstate _ _)
  | goToState target path =>
    refine List.forall_mem_cons.mpr ⟨hmember (by decide) (hstate _ _), ?_⟩
    refine forall_mem_optional fun given _ => hmember (by decide) (.array ?_)
    exact List.forall_mem_map.mpr fun state _ => hstate state levels
  | unsupported command =>
    exact List.forall_mem_singleton.mpr (hmember (by decide) (.string _ _))
  | unknown => nofun

/-! ## Streams -/

/-- The members after the kind are kept, latest first. -/
theorem members_draftReader {item : Reader Json} {write : Json → List UInt8}
    {members : List (String × Json)}
    (h : ∀ member ∈ members, member.1 ≠ "kind" ∧ item.Recovers (write member.2) member.2)
    (draft : Draft) :
    Members (draftReader item) draft (members.map fun (name, value) => (name, write value))
      { draft with members := members.reverse ++ draft.members } := by
  induction members generalizing draft with
  | nil => exact .nil draft
  | cons member members ih =>
    obtain ⟨⟨hname, hfirst⟩, hmembers⟩ := List.forall_mem_cons.mp h
    rw [List.reverse_cons, List.append_assoc, List.singleton_append]
    exact .cons (if_neg hname) (hfirst.map _)
      (ih hmembers { draft with members := member :: draft.members })

/-- The members of an instruction lead to its kind and its fields, if its numbers survive. -/
theorem members_toJson {instruction : Instruction} (levels depth : Nat)
    (h : ∀ x ∈ instruction.numbers, (Number.decimal x).Survives) :
    Members (draftReader (valueReader (levels + 1))) {}
      ((("kind", .string instruction.kindName) :: instruction.members).map
        fun (name, value) => (name, write depth value))
      { kind := some instruction.kindName, members := instruction.members.reverse } := by
  have hsurvive := members_survive levels h
  have hmembers := members_draftReader
    (fun member hmember => ⟨(hsurvive member hmember).1,
      valueReader_recovers (hsurvive member hmember).2 depth⟩)
    { kind := some instruction.kindName }
  have hkind := (stringReader_recovers instruction.kindName).map fun kind =>
    ({ kind := some kind } : Draft)
  rw [List.append_nil] at hmembers
  exact .cons rfl hkind hmembers

/-- An instruction is an object if it begins with a brace. -/
theorem reader_openBrace {item : Reader Json} {space : List UInt8}
    (hspace : ∀ byte ∈ space, Lexical.isSpace byte = true) (text : List UInt8) :
    (reader item).read (space ++ Ascii.openBrace :: text) = readMemberForm item text := by
  dsimp only [reader]
  rw [Lexical.skipSpace_append_cons hspace rfl]
  exact (if_neg (by decide)).trans (if_pos rfl)

/-- An instruction whose numbers survive is recovered. -/
theorem reader_recovers {instruction : Instruction} (levels depth : Nat)
    (h : ∀ x ∈ instruction.numbers, (Number.decimal x).Survives) :
    (reader (valueReader (levels + 1))).Recovers (write depth instruction.toJson) instruction := by
  intro space rest hspace hrest
  have hobject := readObject_closed (members_toJson levels (depth + 1) h) depth rest
  rw [List.map_map] at hobject
  have htexts : (memberText ∘ fun (name, value) => (name, write (depth + 1) value)) =
      fun (name, value) => memberText (name, write (depth + 1) value) := rfl
  rw [toJson, write_object, List.cons_append, reader_openBrace hspace, readMemberForm, ← htexts,
    hobject]
  dsimp only
  rw [List.reverse_reverse, ofContent_members]

end Instruction

namespace Program

/-- A program whose numbers survive is read back as it was written. -/
theorem read_write_of_survives {program : List Instruction}
    (h : ∀ instruction ∈ program, ∀ x ∈ instruction.numbers, (Number.decimal x).Survives) :
    read (write program) = .ok program := by
  have hrecovers := fun instruction hinstruction =>
    Instruction.reader_recovers 124 1 (h instruction hinstruction)
  have hbegins : ∀ instruction ∈ program, Begins (Json.write 1 instruction.toJson) := by
    intro instruction hinstruction
    rw [Instruction.toJson, write_object]
    exact ⟨_, _, rfl, rfl, by decide⟩
  have hread : (arrayReader (Instruction.reader (valueReader (maxLevels - 2)))).read
      (Ascii.openBracket :: (closed Ascii.closeBracket 0
        (program.map fun instruction => Json.write 1 instruction.toJson) ++ [Ascii.lineFeed])) =
      .ok (program, [Ascii.lineFeed]) :=
    readItems_closed hrecovers hbegins 0 [Ascii.lineFeed]
  have hwrite : write program = Ascii.openBracket :: (closed Ascii.closeBracket 0
      (program.map fun instruction => Json.write 1 instruction.toJson) ++ [Ascii.lineFeed]) := by
    rw [write, writeDocument, write_array, List.map_map]
    rfl
  rw [hwrite, read, readDocument, hread]
  exact if_pos rfl

/-- The numbers in double precision that a program holds. -/
def numbers (program : List Instruction) : List Float :=
  program.flatMap Instruction.numbers

/-- A program is read back as it was written, if its numbers are finite, and so is every program
that is read from a text; provided that finite numbers are. -/
theorem read_write (program : List Instruction)
    (hnumbers : ∀ x ∈ numbers program, x.isFinite = true → (Number.decimal x).Survives) :
    ((∀ x ∈ numbers program, x.isFinite = true) → read (write program) = .ok program) ∧
      ∀ text, read text = .ok program → read (write program) = .ok program := by
  have hfinite : (∀ x ∈ numbers program, x.isFinite = true) →
      read (write program) = .ok program := by
    intro hfinite
    refine read_write_of_survives fun instruction hinstruction x hx => ?_
    have hmem : x ∈ numbers program := List.mem_flatMap.mpr ⟨instruction, hinstruction, hx⟩
    exact hnumbers x hmem (hfinite x hmem)
  refine ⟨hfinite, fun text hread => hfinite fun x hx => ?_⟩
  obtain ⟨instruction, hinstruction, hx⟩ := List.mem_flatMap.mp hx
  exact isFinite_of_read hread instruction hinstruction x hx

/-- A stream with instructions of most kinds, a label that has to be escaped, a byte string without
bytes and numbers with and without an exponent. -/
theorem read_write_mixed :
    let program := [.setFrequency 1e20, .setEndState .data .drPause,
      .setHeader .instruction { length := 3, tdi := some [0x05], mask := some [] },
      .shift .data { length := 12, tdi := some [0x0a, 0xbc] } (some "\"\n\\"),
      .runTest { runCount := 7, minTime := 0.5, maxTime := some 1e-9 },
      .goToState .idle (some [.drExit2, .drUpdate]), .unsupported .pio, .unknown]
    (∀ x ∈ numbers program, x.isFinite = true) ∧ read (write program) = .ok program := by
  intro program
  have hfinite : ∀ x ∈ [(1e20 : Float), 0.5, 1e-9], x.isFinite = true := by decide +kernel
  have hsurvive : ∀ x ∈ [(1e20 : Float), 0.5, 1e-9], x.isFinite = true →
      (Number.decimal x).Survives := by
    decide +kernel
  exact ⟨hfinite, (read_write program hsurvive).1 hfinite⟩

end Program

end JtagPlayer
