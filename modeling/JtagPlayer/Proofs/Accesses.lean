import JtagPlayer.Bus.PinRegisters

/-!
# Accesses to words

Operations on a memory of words load and store single words. `RecordedWords` is a memory that also
keeps the `WordAccess`es in their order. `Recounts` relates an operation on plain words to the same
operation on recorded ones: the record grows by accesses whose replay leads to the plain words, and
the results agree. It is established for an operation step by step, by `Recounts.bind`.

`Throughout` says that each of several accesses has a property at the words it is made on, and
`Throughout.kept` that what no such access changes is as it was at every moment.
-/

namespace JtagPlayer

/-- An access to a memory of words. -/
inductive WordAccess where
  | load (index : Nat)
  | store (index : Nat) (word : UInt32)
  deriving DecidableEq

/-- The index of the word. -/
def WordAccess.index : WordAccess → Nat
  | load index => index
  | store index _ => index

namespace Words

/-- The words after an access. -/
def after (words : Words) : WordAccess → Words
  | .load _ => words
  | .store index word => words.set index word

/-- The words after accesses, one after the other. -/
def replay (words : Words) (accesses : List WordAccess) : Words :=
  accesses.foldl after words

@[simp] theorem replay_nil (words : Words) : words.replay [] = words := rfl

@[simp] theorem replay_cons (words : Words) (access : WordAccess) (accesses : List WordAccess) :
    words.replay (access :: accesses) = (words.after access).replay accesses := rfl

@[simp] theorem replay_append (words : Words) (first second : List WordAccess) :
    words.replay (first ++ second) = (words.replay first).replay second :=
  List.foldl_append

@[simp] theorem length_after (words : Words) (access : WordAccess) :
    (words.after access).length = words.length := by
  cases access with
  | load index => rfl
  | store index word => exact List.length_set

/-- Accesses never change how many words there are. -/
@[simp] theorem length_replay (words : Words) (accesses : List WordAccess) :
    (words.replay accesses).length = words.length := by
  induction accesses generalizing words with
  | nil => rfl
  | cons access accesses ih => rw [replay_cons, ih, length_after]

/-- A word after one has been stored. -/
theorem getD_set (words : Words) (index other : Nat) (word : UInt32) :
    (words.set index word).getD other 0 =
      if index = other ∧ other < words.length then word else words.getD other 0 := by
  rw [List.getD_eq_getElem?_getD, List.getD_eq_getElem?_getD, List.getElem?_set]
  by_cases hindex : index = other
  · by_cases hlength : index < words.length <;> simp [← hindex, hlength]
  · simp [hindex]

end Words

/-! ## Recorded accesses -/

/-- Words with a record of the accesses to them. -/
structure RecordedWords where
  words : Words
  record : List WordAccess := []

instance : WordMemory (StateM RecordedWords) where
  load index := fun ⟨words, record⟩ => (words.getD index 0, ⟨words, record ++ [.load index]⟩)
  store index word := fun ⟨words, record⟩ =>
    ((), ⟨words.set index word, record ++ [.store index word]⟩)

/-- `Recounts plain recorded words accesses result` says that an operation, carried out on words,
gives a result and makes accesses. -/
structure Recounts {α : Type} (plain : StateM Words α) (recorded : StateM RecordedWords α)
    (words : Words) (accesses : List WordAccess) (result : α) : Prop where
  /-- On plain words their replay is what it leads to. -/
  plain : plain.run words = (result, words.replay accesses)
  /-- On recorded words it leads to the same and puts them on record. -/
  recorded : ∀ record, recorded.run ⟨words, record⟩ =
    (result, ⟨words.replay accesses, record ++ accesses⟩)

namespace Recounts

variable {α γ : Type} {words : Words}

theorem pure (result : α) :
    Recounts (Pure.pure result) (Pure.pure result) words [] result where
  plain := rfl
  recorded record := by
    rw [List.append_nil]
    rfl

/-- A load gives the word that is there, and goes on record. -/
theorem load (index : Nat) :
    Recounts (WordMemory.load index) (WordMemory.load index) words [.load index]
      (words.getD index 0) :=
  ⟨rfl, fun _ => rfl⟩

/-- A store changes one word, and goes on record. -/
theorem store (index : Nat) (word : UInt32) :
    Recounts (WordMemory.store index word) (WordMemory.store index word) words
      [.store index word] () :=
  ⟨rfl, fun _ => rfl⟩

/-- The accesses of two operations follow one another. -/
theorem bind {plain : StateM Words α} {recorded : StateM RecordedWords α}
    {next : α → StateM Words γ} {recordedNext : α → StateM RecordedWords γ}
    {first second : List WordAccess} {middle : α} {result : γ}
    (hfirst : Recounts plain recorded words first middle)
    (hsecond : Recounts (next middle) (recordedNext middle) (words.replay first) second result) :
    Recounts (plain >>= next) (recorded >>= recordedNext) words (first ++ second) result where
  plain := by
    rw [StateT.run_bind, hfirst.plain, Words.replay_append]
    exact hsecond.plain
  recorded record := by
    rw [StateT.run_bind, hfirst.recorded, Words.replay_append, ← List.append_assoc]
    exact hsecond.recorded _

/-- Something may be made of the result of an operation. -/
theorem map {plain : StateM Words α} {recorded : StateM RecordedWords α}
    {accesses : List WordAccess} {middle : α} (h : Recounts plain recorded words accesses middle)
    (f : α → γ) : Recounts (do return f (← plain)) (do return f (← recorded)) words accesses
      (f middle) := by
  suffices hmap : Recounts (do return f (← plain)) (do return f (← recorded)) words
      (accesses ++ []) (f middle) by rwa [List.append_nil] at hmap
  exact h.bind (.pure (f middle))

end Recounts

/-! ## Properties of accesses -/

/-- Each access has a property at the words it is made on. -/
def Throughout (P : Words → WordAccess → Prop) : Words → List WordAccess → Prop
  | _, [] => True
  | words, access :: accesses => P words access ∧ Throughout P (words.after access) accesses

namespace Throughout

variable {P : Words → WordAccess → Prop} {words : Words} {accesses : List WordAccess}

/-- What holds throughout two series of accesses, the second on the words that the first leaves,
holds throughout both. -/
theorem append {first second : List WordAccess} (hfirst : Throughout P words first)
    (hsecond : Throughout P (words.replay first) second) :
    Throughout P words (first ++ second) := by
  induction first generalizing words with
  | nil => exact hsecond
  | cons access first ih => exact ⟨hfirst.1, ih hfirst.2 hsecond⟩

/-- The words on which one of the accesses is made. -/
theorem of_mem (h : Throughout P words accesses) {access : WordAccess} (hmem : access ∈ accesses) :
    ∃ before, P before access := by
  induction accesses generalizing words with
  | nil => cases hmem
  | cons first accesses ih =>
    cases hmem with
    | head => exact ⟨words, h.1⟩
    | tail _ hmem => exact ih h.2 hmem

/-- The words on which an access is made are those after the accesses before it. -/
theorem at_middle {before later : List WordAccess} {access : WordAccess}
    (h : Throughout P words (before ++ access :: later)) : P (words.replay before) access := by
  induction before generalizing words with
  | nil => exact h.1
  | cons first before ih => exact ih h.2

/-- What no access changes is as it was at every moment. -/
theorem kept {κ : Type} {f : Words → κ}
    (hkeep : ∀ words access, P words access → f (words.after access) = f words)
    (h : Throughout P words accesses) {earlier : List WordAccess}
    (hearlier : earlier <+: accesses) : f (words.replay earlier) = f words := by
  induction earlier generalizing words accesses with
  | nil => rfl
  | cons access earlier ih =>
    obtain ⟨later, rfl⟩ := hearlier
    calc f (words.replay (access :: earlier))
      _ = f (words.after access) := ih h.2 ⟨later, rfl⟩
      _ = f words := hkeep words access h.1

end Throughout

end JtagPlayer
