import JtagPlayer.Proofs.Records
import JtagPlayer.Proofs.Sources
import Mathlib.Control.Monad.Basic

/-!
# Streams that read the same

`Instruction.Denotes` says which values of a document stand for an instruction, and
`Program.read_eq_ok` that a stream is read as a program exactly if it spells an array of values that
stand for its instructions.

An element may vary in what its instruction does not tell: the order of its members and those of its
pattern, members that are no fields, nulls for fields that are absent. With other elements of
unknown kinds among them, variants of the elements of a stream are read as the same program with
unknown instructions among its own, however they are spelt: `Program.read_varies`.
-/

namespace JtagPlayer

open Lexical Json

namespace Instruction

/-- Whether a member of an object is its kind. -/
def isKind (member : String × Json) : Bool :=
  member.1 == "kind"

/-- The kinds that an object gives. -/
def kinds (members : List (String × Json)) : List (String × Json) :=
  members.filter isKind

/-- The members of an object besides its kind. -/
def others (members : List (String × Json)) : List (String × Json) :=
  members.filter fun member => !isKind member

/-- A value stands for an instruction. An object does if it gives one kind, and an array if its
first item is the kind. -/
inductive Denotes : Json → Instruction → Prop where
  | object {members kind instruction} (hkind : kinds members = [("kind", .string kind)])
    (hcontent : ofContent kind (.members (others members)) = .ok instruction) :
    Denotes (.object members) instruction
  | array {kind items instruction} (hcontent : ofContent kind (.items items) = .ok instruction) :
    Denotes (.array (.string kind :: items)) instruction

/-- An object of a kind that is none of those known. -/
inductive IsUnknown : Json → Prop where
  | intro {kind members} (hkinds : kinds members = [("kind", .string kind)])
    (hunknown : InstructionKind.ofName? kind = none) : IsUnknown (.object members)

/-- An element of an unknown kind denotes the unknown instruction and no other. -/
theorem IsUnknown.denotes_iff {element : Json} (h : IsUnknown element)
    {instruction : Instruction} : Denotes element instruction ↔ instruction = unknown := by
  cases h with
  | @intro kind members hkinds hunknown =>
    refine ⟨?_, ?_⟩
    · rintro (@⟨_, kind', _, hkinds', hcontent⟩ | _)
      obtain rfl : kind = kind' := by
        rw [hkinds] at hkinds'
        simpa using hkinds'
      rw [ofContent_unknown hunknown] at hcontent
      exact (Except.ok.inj hcontent).symm
    · rintro rfl
      exact .object hkinds (ofContent_unknown hunknown _)

/-- Adds a member to what has been read of an object. -/
def Draft.add? (draft : Draft) (member : String × Json) : Option Draft :=
  if isKind member then
    match draft.kind, member.2 with
    | none, .string kind => some { draft with kind := some kind }
    | _, _ => none
  else some { draft with members := member :: draft.members }

/-- What a member adds is what its value is read as. -/
theorem draftReader_takes {item : Reader Json} {levels : Nat} (h : item.Takes levels Eq) :
    TakesMembers (draftReader item) levels Draft.add? := by
  intro draft name
  by_cases hname : name = "kind"
  · subst hname
    obtain ⟨_ | kind, members⟩ := draft
    · refine ⟨fun _ _ _ => ⟨_, rfl⟩, ?_⟩
      rintro reader ⟨⟩
      refine (Reader.map_takes (stringReader_takes levels) _).congr fun json draft' => ?_
      cases json <;> simp [Draft.add?, isKind]
    · refine ⟨fun json draft' hadd => ?_, fun reader hreader => ?_⟩
      · cases hadd
      · cases hreader
  · have hreader : draftReader item draft name =
        .ok (item.map fun value => { draft with members := (name, value) :: draft.members }) :=
      if_neg hname
    refine ⟨fun _ _ _ => ⟨_, hreader⟩, fun reader hreader' => ?_⟩
    cases hreader.symm.trans hreader'
    refine (Reader.map_takes h _).congr fun json draft' => ?_
    simp [Draft.add?, isKind, hname]

/-- What has been read of an object at its end. -/
theorem foldlM_add?_eq_some {draft draft' : Draft} {members : List (String × Json)} :
    members.foldlM Draft.add? draft = some draft' ↔
      draft'.members = (others members).reverse ++ draft.members ∧
        (kinds members = [] ∧ draft'.kind = draft.kind ∨
          ∃ kind, draft.kind = none ∧ kinds members = [("kind", .string kind)] ∧
            draft'.kind = some kind) := by
  induction members generalizing draft with
  | nil =>
    obtain ⟨kind, members⟩ := draft
    obtain ⟨kind', members'⟩ := draft'
    simp [kinds, others, eq_comm, and_comm]
  | cons member members ih =>
    obtain ⟨name, value⟩ := member
    by_cases hname : name = "kind"
    · subst hname
      obtain ⟨_ | given, before⟩ := draft
      · cases value with
        | string kind => simp [List.foldlM_cons, Draft.add?, isKind, kinds, others, ih]
        | _ => simp [List.foldlM_cons, Draft.add?, isKind, kinds, others]
      · simp [List.foldlM_cons, Draft.add?, isKind, kinds, others]
    · simp [List.foldlM_cons, Draft.add?, isKind, kinds, others, ih, hname]

/-- An object is read as the instruction that it stands for. -/
theorem readMemberForm_spelt {item : Reader Json} {levels : Nat} (h : item.Takes levels Eq)
    {space : List UInt8} (hspace : Blank space) {members : List (PlacedMember String Json)}
    (hnamed : ∀ member ∈ members, member.IsNamed SpellsString)
    (hspells : ∀ member ∈ members, Spells levels member.value member.text)
    {instruction : Instruction}
    (hdenotes : Denotes (.object (members.map PlacedMember.member)) instruction)
    (rest : List UInt8) :
    readMemberForm item (listed space (members.map PlacedMember.memberBytes) ++
      Ascii.closeBrace :: rest) = .ok (instruction, rest) := by
  cases hdenotes with
  | @object _ kind _ hkind hcontent =>
    have hadd : (members.map PlacedMember.member).foldlM Draft.add? {} =
        some ⟨some kind, (others (members.map PlacedMember.member)).reverse⟩ :=
      foldlM_add?_eq_some.mpr ⟨(List.append_nil _).symm, .inr ⟨kind, rfl, hkind, rfl⟩⟩
    rw [readMemberForm, readObject_spelt (draftReader_takes h) hspace
      (membersLead_iff.mpr ⟨hnamed, hspells, hadd⟩) rest]
    dsimp only
    rw [List.reverse_reverse, hcontent]

/-- What was read as an instruction in the form of an object denotes it. -/
theorem denotes_of_readMemberForm {item : Reader Json} {levels : Nat} (h : item.Takes levels Eq)
    {text rest : List UInt8} {instruction : Instruction}
    (hread : readMemberForm item text = .ok (instruction, rest)) :
    ∃ body json, Ascii.openBrace :: text = body ++ rest ∧ Spells (levels + 1) json body ∧
      Denotes json instruction := by
  unfold readMemberForm at hread
  split at hread
  · cases hread
  rename_i draft rest' hobject
  split at hread
  · cases hread
  rename_i kind hdraft
  split at hread
  · cases hread
  rename_i hcontent
  cases hread
  obtain ⟨space, members, hspace, hmembers, rfl⟩ :=
    members_of_readObject (draftReader_takes h) hobject
  obtain ⟨hnamed, hspells, hadd⟩ := membersLead_iff.mp hmembers
  obtain ⟨hothers, ⟨-, hnone⟩ | ⟨kind', -, hkinds, hkind⟩⟩ := foldlM_add?_eq_some.mp hadd
  · cases hnone.symm.trans hdraft
  · cases hkind.symm.trans hdraft
    rw [hothers, List.append_nil, List.reverse_reverse] at hcontent
    exact ⟨_, _, by simp, .object hspace hnamed hspells, .object hkinds hcontent⟩

/-- So is an array. -/
theorem readItemForm_spelt {item : Reader Json} {levels : Nat} (h : item.Takes levels Eq)
    {space : List UInt8} {items : List (Placed Json)} {values : List Json}
    (hitems : Items levels Eq items values) {instruction : Instruction}
    (hdenotes : Denotes (.array values) instruction) (rest : List UInt8) :
    readItemForm item (listed space (items.map Placed.bytes) ++ Ascii.closeBracket :: rest) =
      .ok (instruction, rest) := by
  cases hdenotes with
  | array hcontent =>
    cases hitems with
    | @cons _ items _ _ hspaced hspells hkind hitems =>
      have hread := read_item (stringReader_takes levels) hspaced hspells hkind
        (items.map Placed.bytes) rest
      obtain ⟨byte, tail, hclose, hskip⟩ := skipSpace_placed hspaced hspells
      rw [List.map_cons, listed, List.append_assoc, readItemForm, hskip]
      dsimp only
      rw [if_neg hclose, hread]
      dsimp only
      rw [readMore_spelt h hspaced.after hitems rest]
      dsimp only
      rw [hcontent]

/-- What was read as an instruction in the form of an array denotes it. -/
theorem denotes_of_readItemForm {item : Reader Json} {levels : Nat} (h : item.Takes levels Eq)
    {text rest : List UInt8} {instruction : Instruction}
    (hread : readItemForm item text = .ok (instruction, rest)) :
    ∃ body json, Ascii.openBracket :: text = body ++ rest ∧ Spells (levels + 1) json body ∧
      Denotes json instruction := by
  unfold readItemForm at hread
  split at hread
  · cases hread
  split at hread
  · cases hread
  split at hread
  · cases hread
  rename_i kind afterKind hkind
  split at hread
  · cases hread
  rename_i more afterMore hmore
  split at hread
  · cases hread
  rename_i hcontent
  cases hread
  obtain ⟨before, body, json, hbefore, rfl, hbody, rfl⟩ := (stringReader_takes levels).spelt hkind
  obtain ⟨after, items, hafter, hitems, rfl⟩ := items_of_readMore h hmore
  have hall : Items levels Eq (⟨before, .string kind, body, after⟩ :: items)
      (.string kind :: more) := .cons ⟨hbefore, hafter⟩ hbody rfl hitems
  exact ⟨_, _, by simp [listed, Placed.bytes], hall.spells_array blank_nil, .array hcontent⟩

/-- An instruction is read from what stands for it. -/
theorem reader_takes {item : Reader Json} {levels : Nat} (h : item.Takes levels Eq) :
    (reader item).Takes (levels + 1) Denotes where
  recovers := by
    intro json text instruction hspells hdenotes space rest hspace _
    dsimp only [reader]
    cases hspells with
    | array hinner hspaced hspells =>
      rw [List.cons_append, skipSpace_append_cons hspace rfl, List.append_assoc,
        List.singleton_append]
      exact (if_pos rfl).trans (readItemForm_spelt h
        (items_iff.mpr ⟨hspaced, hspells, List.forall₂_refl _⟩) hdenotes rest)
    | object hinner hnamed hspells =>
      rw [List.cons_append, skipSpace_append_cons hspace rfl, List.append_assoc,
        List.singleton_append]
      exact (if_neg (by decide)).trans ((if_pos rfl).trans
        (readMemberForm_spelt h hinner hnamed hspells hdenotes rest))
    | _ => cases hdenotes
  spelt := by
    intro text instruction rest hread
    obtain ⟨space, hspace, htext⟩ := exists_skipSpace text
    dsimp only [reader] at hread
    split at hread
    · cases hread
    rename_i hskip
    rw [hskip] at htext
    split at hread
    · rename_i hopen
      obtain ⟨body, json, hbody, hspells, hdenotes⟩ := denotes_of_readItemForm h hread
      exact ⟨space, body, json, hspace, hbody ▸ hopen ▸ htext, hspells, hdenotes⟩
    split at hread
    · rename_i hopen
      obtain ⟨body, json, hbody, hspells, hdenotes⟩ := denotes_of_readMemberForm h hread
      exact ⟨space, body, json, hspace, hbody ▸ hopen ▸ htext, hspells, hdenotes⟩
    · cases hread

end Instruction

/-- A stream is read as a program if it spells an array of what stands for its instructions. -/
theorem Program.read_eq_ok {text : List UInt8} {program : List Instruction} :
    Program.read text = .ok program ↔
      ∃ elements, Document (.array elements) text ∧
        List.Forall₂ Instruction.Denotes elements program := by
  have htakes : (arrayReader (Instruction.reader (valueReader (maxLevels - 2)))).Takes maxLevels
      (ArrayOf Instruction.Denotes) :=
    arrayReader_takes (Instruction.reader_takes (valueReader_takes (maxLevels - 2)))
  refine (readDocument_iff htakes).trans ⟨?_, ?_⟩
  · rintro ⟨json, hdocument, elements, rfl, hdenotes⟩
    exact ⟨elements, hdocument, hdenotes⟩
  · rintro ⟨elements, hdocument, hdenotes⟩
    exact ⟨_, hdocument, elements, rfl, hdenotes⟩

namespace Instruction

/-- The ways in which an element of a stream may vary. The members of an object and those of a
pattern in it are rearranged; a pattern may also be an item of an element that is an array. -/
inductive Varies : Json → Json → Prop where
  | refl (json) : Varies json json
  | members {kind members members'} (hkind : ("kind", .string kind) ∈ members)
    (h : Rearranged ("kind" :: fieldNames kind) (optionalNames kind) members members') :
    Varies (.object members) (.object members')
  | pattern {before after members members'}
    (h : Rearranged PatternFields.names PatternFields.optionalNames members members') :
    Varies (.object (before ++ ("pattern", .object members) :: after))
      (.object (before ++ ("pattern", .object members') :: after))
  | patternItem {kind : InstructionKind} {before after members members'}
    (hfield : kind.fieldNames[before.length]? = some "pattern")
    (h : Rearranged PatternFields.names PatternFields.optionalNames members members') :
    Varies (.array (.string kind.name :: (before ++ .object members :: after)))
      (.array (.string kind.name :: (before ++ .object members' :: after)))
  | trans {first second third} (h : Varies first second) (h' : Varies second third) :
    Varies first third

/-- Rearranging an object rearranges its members besides the kind, and keeps the kind. -/
theorem rearranged_others {names optional : List String} (hoptional : "kind" ∉ optional)
    {members members' : List (String × Json)}
    (h : Rearranged ("kind" :: names) optional members members') :
    (kinds members).Perm (kinds members') ∧
      Rearranged names optional (others members) (others members') := by
  induction h with
  | perm hperm => exact ⟨hperm.filter _, .perm (hperm.filter _)⟩
  | @extra name value members hname =>
    obtain ⟨hkind, hname⟩ := not_or.mp (List.mem_cons.not.mp hname)
    have hother : isKind (name, value) = false := by simpa [isKind] using hkind
    simp only [kinds, others, List.filter_cons, hother]
    exact ⟨.refl _, .extra value hname⟩
  | @null name members hname hnew =>
    have hother : isKind (name, .null) = false := by
      simp only [isKind, beq_eq_false_iff_ne]
      rintro rfl
      exact hoptional hname
    simp only [kinds, others, List.filter_cons, hother]
    exact ⟨.refl _, .null hname fun member hmem => hnew member (List.mem_filter.mp hmem).1⟩
  | trans h h' ih ih' => exact ⟨ih.1.trans ih'.1, ih.2.trans ih'.2⟩

theorem kind_not_mem_optionalNames (kind : String) : "kind" ∉ optionalNames kind := by
  unfold optionalNames
  split
  · rename_i known _
    cases known <;> decide
  · exact List.not_mem_nil

/-- An element stands for the same instruction however it varies. -/
theorem Varies.denotes {element element' : Json} (h : Varies element element')
    {instruction : Instruction} (hdenotes : Denotes element instruction) :
    Denotes element' instruction := by
  induction h with
  | refl json => exact hdenotes
  | @members kind members members' hkind h =>
    cases hdenotes with
    | @object _ kind' _ hkinds hcontent =>
      obtain rfl : kind = kind' := by
        have hmem : ("kind", .string kind) ∈ kinds members := List.mem_filter.mpr ⟨hkind, rfl⟩
        rw [hkinds] at hmem
        simpa using hmem
      obtain ⟨hperm, hothers⟩ := rearranged_others (kind_not_mem_optionalNames kind) h
      rw [hkinds] at hperm
      exact .object (List.perm_singleton.mp hperm.symm) (ofContent_rearranged hothers hcontent)
  | @pattern before after members members' h =>
    cases hdenotes with
    | @object _ kind _ hkinds hcontent =>
      have hkinds' : ∀ value, kinds (before ++ ("pattern", value) :: after) =
          kinds before ++ kinds after := fun value => List.filter_append _ _
      have hothers : ∀ value, others (before ++ ("pattern", value) :: after) =
          others before ++ ("pattern", value) :: others after := fun value => List.filter_append _ _
      rw [hkinds'] at hkinds
      rw [hothers] at hcontent
      have hcontent' := ofContent_replaced (fun pattern => asPattern_rearranged h) hcontent
      exact .object ((hkinds' _).trans hkinds) (hothers _ ▸ hcontent')
  | patternItem hfield h =>
    cases hdenotes with
    | array hcontent =>
      exact .array (ofContent_item_replaced (fun pattern => asPattern_rearranged h) hfield hcontent)
  | trans h h' ih ih' => exact ih' (ih hdenotes)

end Instruction

namespace Program

/-- The ways in which a stream may vary. Each of its elements does, and objects of unknown kinds may
stand among them, each of which is an unknown instruction. -/
inductive Varies : List Json → List Instruction → List Json → List Instruction → Prop where
  | nil : Varies [] [] [] []
  | cons {element element' elements program elements' program'} (instruction : Instruction)
    (helement : Instruction.Varies element element')
    (hmore : Varies elements program elements' program') :
    Varies (element :: elements) (instruction :: program) (element' :: elements')
      (instruction :: program')
  | unknown {element elements program elements' program'}
    (hunknown : Instruction.IsUnknown element)
    (hmore : Varies elements program elements' program') :
    Varies elements program (element :: elements') (.unknown :: program')

theorem Varies.denotes {elements elements' : List Json} {program program' : List Instruction}
    (h : Varies elements program elements' program')
    (hdenotes : List.Forall₂ Instruction.Denotes elements program) :
    List.Forall₂ Instruction.Denotes elements' program' := by
  induction h with
  | nil => exact .nil
  | cons instruction helement hmore ih =>
    cases hdenotes with
    | cons hfirst hrest => exact .cons (helement.denotes hfirst) (ih hrest)
  | unknown hunknown hmore ih =>
    exact .cons (hunknown.denotes_iff.mpr rfl) (ih hdenotes)

/-- What is read of a stream depends on the members that are known only. A stream that is accepted
is a readable document, of one array. The objects of unknown kinds in it are unknown instructions,
and every readable document of a variant of the array, with whatever space and spelling, is read as
the same program with the unknown instructions of its additional elements. -/
theorem read_varies {text : List UInt8} {program : List Instruction}
    (hread : Program.read text = .ok program) :
    ∃ elements,
      (∃ source : Source, source.Document text ∧ source.IsReadable ∧
        source.value = .array elements) ∧
      (∀ source : Source, source.Document text → source.IsReadable →
        source.value = .array elements) ∧
      List.Forall₂ (fun element instruction =>
        Instruction.IsUnknown element → instruction = .unknown) elements program ∧
      ∀ elements' program' (source' : Source) text', Varies elements program elements' program' →
        source'.Document text' → source'.IsReadable → source'.value = .array elements' →
        Program.read text' = .ok program' := by
  obtain ⟨elements, hdocument, hdenotes⟩ := read_eq_ok.mp hread
  refine ⟨elements, Source.document_iff.mp hdocument, ?_,
    hdenotes.imp fun element instruction hdenotes hunknown =>
      hunknown.denotes_iff.mp hdenotes, ?_⟩
  · intro source hsource hreadable
    exact (Source.document_iff.mpr ⟨source, hsource, hreadable, rfl⟩).unique hdocument
  · intro elements' program' source' text' hvaries hsource' hreadable' hvalue'
    have hdocument' := Source.document_iff.mpr ⟨source', hsource', hreadable', hvalue'⟩
    exact read_eq_ok.mpr ⟨elements', hdocument', hvaries.denotes hdenotes⟩

/-- A header whose fields are given in another order, with a null and a member that is no field, and
an instruction that nobody knows. -/
theorem read_varies_header :
    let header : List (String × Json) := [("kind", .string "set_header"),
      ("register", .string "DR"), ("pattern", .object [("length", Json.ofNat 0)])]
    let header' : List (String × Json) := [("note", .array [.null]), ("register", .string "DR"),
      ("pattern", .object [("tdi", .null), ("length", Json.ofNat 0)]),
      ("kind", .string "set_header")]
    let jump : List (String × Json) := [("kind", .string "jump"), ("register", .bool true)]
    Program.read (writeDocument (.array [.object header])) = .ok [.setHeader .data {}] ∧
      Program.read (writeDocument (.array [.object header', .object jump])) =
        .ok [.setHeader .data {}, .unknown] := by
  intro header header' jump
  have hread : Program.read (writeDocument (.array [.object header])) =
      .ok [.setHeader .data {}] := by decide +kernel
  let given : String × Json := ("kind", .string "set_header")
  let register : String × Json := ("register", .string "DR")
  let length : String × Json := ("length", Json.ofNat 0)
  have hnull : Rearranged PatternFields.names PatternFields.optionalNames
      [length] [("tdi", .null), length] :=
    .null (by decide) (by simp [length])
  have hpattern : Instruction.Varies
      (.object ([given, register] ++ ("pattern", .object [length]) :: []))
      (.object ([given, register] ++ ("pattern", .object [("tdi", .null), length]) :: [])) :=
    .pattern hnull
  have hperm : ([given] ++ [register, ("pattern", .object [("tdi", .null), length])]).Perm
      ([register, ("pattern", .object [("tdi", .null), length])] ++ [given]) :=
    List.perm_append_comm
  have hmoved : Instruction.Varies
      (.object ([given] ++ [register, ("pattern", .object [("tdi", .null), length])]))
      (.object header') :=
    .members List.mem_cons_self (.trans (.perm hperm) (.extra _ (by decide)))
  have hvaries : Varies [.object header] [.setHeader .data {}]
      [.object header', .object jump] [.setHeader .data {}, .unknown] :=
    .cons _ (.trans hpattern hmoved) (.unknown (.intro rfl (by decide)) .nil)
  have hlength : ∀ levels, Survives levels (Json.ofNat 0) := fun levels =>
    .number levels (by decide +kernel)
  have hheader : Survives maxLevels (.array [.object header]) := by
    refine .array (List.forall_mem_singleton.mpr (.object ?_))
    simp only [header, List.forall_mem_cons]
    exact ⟨.string _ _, .string _ _, .object (List.forall_mem_singleton.mpr (hlength _)), nofun⟩
  have hvariant : Survives maxLevels (.array [.object header', .object jump]) := by
    refine .array ?_
    simp only [List.forall_mem_cons]
    refine ⟨.object ?_, .object ?_, nofun⟩
    · simp only [header', List.forall_mem_cons]
      refine ⟨.array (List.forall_mem_singleton.mpr (.null _)), .string _ _, .object ?_,
        .string _ _, nofun⟩
      simp only [List.forall_mem_cons]
      exact ⟨.null _, hlength _, nofun⟩
    · simp only [jump, List.forall_mem_cons]
      exact ⟨.string _ _, .bool _ _, nofun⟩
  obtain ⟨source, hsource, hreadable, hvalue⟩ := Source.document_iff.mp hheader.document
  obtain ⟨source', hsource', hreadable', hvalue'⟩ := Source.document_iff.mp hvariant.document
  obtain ⟨elements, -, hunique, -, hvariants⟩ := read_varies hread
  cases hvalue.symm.trans (hunique source hsource hreadable)
  exact ⟨hread, hvariants _ _ source' _ hvaries hsource' hreadable' hvalue'⟩

/-- A string that is written without escapes. -/
def unescaped (text : String) : List Piece :=
  text.toList.map .plain

/-- Characters that need no escape spell themselves between quotes. -/
theorem spellsString_unescaped {text : String}
    (h : text.toList.all (fun char => char != '\"' && char != '\\' && 32 ≤ char.toNat) = true) :
    Piece.SpellsString (unescaped text) (Text.toBytes ("\"" ++ text ++ "\"")) := by
  have hbody : Piece.SpellsAll (unescaped text) (Text.toBytes text) := by
    rw [← String.ofList_toList (s := text), Piece.toBytes_ofList, unescaped, String.toList_ofList]
    generalize text.toList = chars at h
    induction chars with
    | nil => exact .nil
    | cons char chars ih =>
      simp only [List.all_cons, Bool.and_eq_true, bne_iff_ne, decide_eq_true_eq] at h
      obtain ⟨⟨⟨hquote, hbackslash⟩, hcontrol⟩, hmore⟩ := h
      exact .cons (.plain hquote hbackslash hcontrol) (ih (by simpa using hmore))
  refine ⟨_, hbody, ?_⟩
  rw [Piece.toBytes_append, Piece.toBytes_append]
  rfl

/-- A stream of one element of an unknown kind, with one more member. -/
def withMember (name : List Piece) (value : Source) : Source :=
  .array [.object [(unescaped "kind", .string (unescaped "x")), (name, value)]]

/-- Its text, without space. -/
def textWith (name value : String) : String :=
  "[\x7b\"kind\":\"x\"," ++ name ++ ":" ++ value ++ "\x7d]"

/-- A document with one member more spells the source with that member. -/
theorem document_withMember {name : List Piece} {value : Source} {nameText valueText : String}
    (hname : Piece.SpellsString name (Text.toBytes nameText))
    (hvalue : ∀ levels, value.Spells levels (Text.toBytes valueText)) :
    (withMember name value).Document (Text.toBytes (textWith nameText valueText)) := by
  have hkind : Piece.SpellsString (unescaped "kind") (Text.toBytes "\"kind\"") :=
    spellsString_unescaped (by decide)
  have hx : ∀ levels, Source.Spells levels (.string (unescaped "x")) (Text.toBytes "\"x\"") :=
    fun levels => .string levels (spellsString_unescaped (by decide))
  let kind : PlacedMember (List Piece) Source :=
    ⟨⟨[], .string (unescaped "x"), Text.toBytes "\"x\"", []⟩, [], unescaped "kind",
      Text.toBytes "\"kind\"", []⟩
  let more : PlacedMember (List Piece) Source :=
    ⟨⟨[], value, Text.toBytes valueText, []⟩, [], name, Text.toBytes nameText, []⟩
  have hobject := @Source.Spells.object (maxLevels - 2) [] [kind, more] blank_nil
    (List.forall_mem_cons.mpr ⟨⟨⟨blank_nil, blank_nil⟩, blank_nil, hkind, blank_nil⟩,
      List.forall_mem_singleton.mpr ⟨⟨blank_nil, blank_nil⟩, blank_nil, hname, blank_nil⟩⟩)
    (List.forall_mem_cons.mpr ⟨hx _, List.forall_mem_singleton.mpr (hvalue _)⟩)
  have harray := @Source.Spells.array (maxLevels - 1) [] [⟨[], _, _, []⟩] blank_nil
    (List.forall_mem_singleton.mpr ⟨blank_nil, blank_nil⟩) (List.forall_mem_singleton.mpr hobject)
  refine ⟨[], _, [], blank_nil, blank_nil, harray, ?_⟩
  have hfront : Text.toBytes "[\x7b\"kind\":\"x\"," =
      Ascii.openBracket :: Ascii.openBrace :: (Text.toBytes "\"kind\"" ++
        Ascii.colon :: (Text.toBytes "\"x\"" ++ [Ascii.comma])) := by decide +kernel
  have hcolon : Text.toBytes ":" = [Ascii.colon] := by decide +kernel
  have hback : Text.toBytes "\x7d]" = [Ascii.closeBrace, Ascii.closeBracket] := by decide +kernel
  simp [textWith, Piece.toBytes_append, hfront, hcolon, hback, listed, Placed.bytes,
    PlacedMember.memberBytes, kind, more]

theorem withMember_isReadable {name : List Piece} {value : Source}
    (h : (withMember name value).IsReadable) : Piece.AllEncode name ∧ value.IsReadable := by
  cases h with
  | array h =>
    cases List.forall_mem_singleton.mp h with
    | object hnames h =>
      simp only [List.forall_mem_cons] at hnames h
      exact ⟨hnames.2.1, h.2.1⟩

/-- A member with which the stream is still a document, but is not accepted. -/
structure IsRefused (name : List Piece) (value : Source) (nameText valueText : String) :
    Prop where
  document : (withMember name value).Document (Text.toBytes (textWith nameText valueText))
  unreadable : ¬ (withMember name value).IsReadable
  refused : Program.read (Text.toBytes (textWith nameText valueText)) = .error .malformed

/-- A number may be too large to be read, even if it is in range, and an escape need not encode a
character. None of this is accepted, not even in a member that nobody knows, be it in its value or
in its name. -/
theorem rejected_unknown_member :
    let huge : Numeral := ⟨false, [1], [], some 400⟩
    let large : Numeral :=
      ⟨false, [1], [7, 9, 7, 6, 9, 3, 1, 3, 4, 8, 6, 2, 3, 1, 5, 7, 0, 8], some 308⟩
    let half : List Piece := [.codeUnit 0xd800]
    Program.read (Text.toBytes "[\x7b\"kind\":\"x\"\x7d]") = .ok [.unknown] ∧
      IsRefused (unescaped "y") (.number huge) "\"y\"" "1e400" ∧
      IsRefused (unescaped "y") (.number large) "\"y\"" "1.797693134862315708e308" ∧
      IsRefused (unescaped "y") (.string half) "\"y\"" "\"\\ud800\"" ∧
      IsRefused half .null "\"\\ud800\"" "null" := by
  intro huge large half
  have hy : Piece.SpellsString (unescaped "y") (Text.toBytes "\"y\"") :=
    spellsString_unescaped (by decide)
  have hnumeral : ∀ {numeral : Numeral} {text : List UInt8},
      readNumeral text = .ok (numeral, []) → SpellsNumeral numeral text := by
    intro numeral text hread
    obtain ⟨body, hbody, hspells⟩ := spells_of_readNumeral hread
    exact (List.append_nil body ▸ hbody) ▸ hspells
  have hhalf : Piece.SpellsString half (Text.toBytes "\"\\ud800\"") := by
    have hunit : readCodeUnit (Text.toBytes "d800") = .ok (0xd800, []) := by decide +kernel
    obtain ⟨digits, hdigits, hspells⟩ := spells_of_readCodeUnit hunit
    rw [List.append_nil] at hdigits
    refine ⟨_, (Piece.Spells.codeUnit (hdigits ▸ hspells)).singleton, by decide +kernel⟩
  have halone : ¬ Piece.AllEncode [.codeUnit 0xd800] := by
    intro h
    cases h with
    | codePoint hbasic => exact hbasic (by decide)
  have hunreadable : ∀ {numeral : Numeral}, numeral.value? = none →
      ¬ (withMember (unescaped "y") (.number numeral)).IsReadable := by
    intro numeral hnone hreadable
    cases (withMember_isReadable hreadable).2 with
    | number hvalue => exact hvalue hnone
  refine ⟨by decide +kernel, ⟨?_, hunreadable (by decide +kernel), by decide +kernel⟩,
    ⟨?_, hunreadable (by decide +kernel), by decide +kernel⟩,
    ⟨?_, fun hreadable => ?_, by decide +kernel⟩, ⟨?_, fun hreadable => ?_, by decide +kernel⟩⟩
  · exact document_withMember hy fun levels => .number levels (hnumeral (by decide +kernel))
  · exact document_withMember hy fun levels => .number levels (hnumeral (by decide +kernel))
  · exact document_withMember hy fun levels => .string levels hhalf
  · cases (withMember_isReadable hreadable).2 with
    | string hencode => exact halone hencode
  · exact document_withMember hhalf fun levels => .null levels
  · exact halone (withMember_isReadable hreadable).1

end Program

end JtagPlayer
