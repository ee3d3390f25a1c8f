import JtagPlayer.Proofs.Recounting
import JtagPlayer.Proofs.Fields

/-!
# Registers are accessed for their own pins only

The block of registers serves all pins of a board. `PinRegisterBus.Confined` says what calls on a
bus behind registers may do to the block, and what they achieve for the four pins. That every
series of calls is like that is `PinRegisterBus.accesses_confined`.

That the accesses stay with the pins is a property of a single one, `PinRegisters.Fits`, which all
of them have and which keeps everything else. What becomes of the functions of the pins follows the
lists of accesses.
-/

namespace JtagPlayer

namespace PinRegisters

variable {words : Words}

/-! ## Accesses that stay with some pins -/

/-- The words that are stored to drive pins. -/
def levelWords : List Nat :=
  [setBase, setBase + 1, clearBase, clearBase + 1]

/-- The words that drive pins are in the block, and apart from those that select functions. -/
theorem levelWords_bounds : ∀ index ∈ levelWords, 6 ≤ index ∧ index < blockSize := by
  decide

/-- An access stays with some pins: it is in the block, and a store drives a pin, or puts into a
word that selects functions what is there, but for the bits of the pins. -/
def Fits (pins : List Nat) (words : Words) : WordAccess → Prop
  | .load index => index < blockSize
  | .store index word => index ∈ levelWords ∨ index < 6 ∧ ∀ bit,
      (∀ pin ∈ pins, functionIndex pin = index → bit / 3 ≠ pin % 10) →
      word.toNat.testBit bit = (words.getD index 0).toNat.testBit bit

variable {pins : List Nat} {pin : Nat}

/-- The function of a pin is selected in one of the first six words. -/
theorem functionIndex_lt (hpin : pin ≤ lastPin) : functionIndex pin < 6 := by
  have : pin ≤ 53 := hpin
  simp only [functionIndex, functionBase]
  omega

/-- Selecting the function of a pin stays with it: the bits of the other pins are put back as they
were. -/
theorem selecting_fits (hmem : pin ∈ pins) (hpin : pin ≤ lastPin) (function : PinFunction) :
    Throughout (Fits pins) words (selecting words pin function) := by
  have hindex := functionIndex_lt hpin
  refine ⟨Nat.lt_trans hindex (by decide), .inr ⟨hindex, fun bit hbit => ?_⟩, trivial⟩
  rw [testBit_withFunction, if_neg (hbit pin hmem rfl)]
  rfl

/-- Driving a pin stores into the words that drive pins. -/
theorem driving_fits (hpin : pin ≤ lastPin) (level : Bool) :
    Throughout (Fits pins) words (driving pin level) := by
  have hbank : pin / 32 = 0 ∨ pin / 32 = 1 := by
    have : pin ≤ 53 := hpin
    omega
  refine ⟨.inl ?_, trivial⟩
  rcases hbank with hbank | hbank <;> cases level <;>
    simp [levelWords, bankIndex, hbank]

theorem lowering_fits (hmem : pin ∈ pins) (hpin : pin ≤ lastPin) :
    Throughout (Fits pins) words (lowering words pin) :=
  (driving_fits hpin false).append (selecting_fits hmem hpin .output)

theorem outputting_fits {outputs : List Nat} (hmem : ∀ pin ∈ outputs, pin ∈ pins)
    (hpins : ∀ pin ∈ pins, pin ≤ lastPin) :
    Throughout (Fits pins) words (outputting words outputs) := by
  induction outputs generalizing words with
  | nil => trivial
  | cons pin outputs ih =>
    obtain ⟨hpin, hrest⟩ := List.forall_mem_cons.mp hmem
    exact (lowering_fits hpin (hpins pin hpin)).append (ih hrest)

theorem inputting_fits {inputs : List Nat} (hmem : ∀ pin ∈ inputs, pin ∈ pins)
    (hpins : ∀ pin ∈ pins, pin ≤ lastPin) :
    Throughout (Fits pins) words (inputting words inputs) := by
  induction inputs generalizing words with
  | nil => trivial
  | cons pin inputs ih =>
    obtain ⟨hpin, hrest⟩ := List.forall_mem_cons.mp hmem
    exact (selecting_fits hpin (hpins pin hpin) .input).append (ih hrest)

variable {registers : PinRegisters}

/-- All accesses of a call stay with the pins. -/
theorem accessesOf_fits (hpins : ∀ pin ∈ registers.pins.all, pin ≤ lastPin) (call : Call) :
    Throughout (Fits registers.pins.all) words (registers.accessesOf words call) := by
  have hline := fun line => hpins _ (registers.pins.ofLine_mem_all line)
  cases call with
  | acquire =>
    refine (outputting_fits (fun _ => PinNumbers.mem_all_of_mem_outputs) hpins).append ?_
    exact selecting_fits (registers.pins.ofLine_mem_all .tdo) (hline .tdo) .input
  | write line level =>
    rw [accessesOf]
    split
    · trivial
    · exact driving_fits (hline line) level
  | read line =>
    have : registers.pins.ofLine line ≤ 53 := hline line
    refine ⟨?_, trivial⟩
    simp only [Fits, bankIndex, levelBase, blockSize]
    omega
  | release => exact inputting_fits (fun _ hpin => hpin) hpins
  | now | wait | note => trivial

/-- All accesses of calls stay with the pins. -/
theorem accesses_fits (hpins : ∀ pin ∈ registers.pins.all, pin ≤ lastPin) (calls : List Call) :
    Throughout (Fits registers.pins.all) words (registers.accesses words calls) := by
  induction calls generalizing words with
  | nil => trivial
  | cons call calls ih =>
    rw [accesses_cons]
    exact (accessesOf_fits hpins call).append ih

/-- Such an access keeps the functions of all other pins. -/
theorem Fits.functionOf_after (hpin : pin < 60) (hother : pin ∉ pins) {access : WordAccess}
    (h : Fits pins words access) : functionOf (words.after access) pin = functionOf words pin := by
  have hindex : functionIndex pin < 6 := by
    simp only [functionIndex, functionBase]
    omega
  cases access with
  | load index => rfl
  | store index word =>
    by_cases hsame : index = functionIndex pin
    · obtain hlevel | ⟨-, hbits⟩ := h
      · have := (levelWords_bounds index hlevel).1
        omega
      · rw [functionOf, Words.after, Words.getD_set]
        split
        · rw [functionOf, ← hsame]
          refine fieldOf_congr fun bit hbit => hbits bit fun own hown hindex hplace => ?_
          -- Two pins with their functions at the same place of the same word are the same.
          have : own = pin := by
            simp only [functionIndex] at hindex hsame
            omega
          exact hother (this ▸ hown)
        · rfl
    · exact functionOf_set_of_ne words word hsame

/-- Such an access keeps the bits that belong to no pin. -/
theorem Fits.spareOf_after {index : Nat} (hindex : index < 6) {access : WordAccess}
    (h : Fits pins words access) :
    spareOf ((words.after access).getD index 0) = spareOf (words.getD index 0) := by
  cases access with
  | load index => rfl
  | store stored word =>
    rw [Words.after, Words.getD_set]
    split
    · rename_i hsame
      obtain ⟨rfl, -⟩ := hsame
      obtain hlevel | ⟨-, hbits⟩ := h
      · have := (levelWords_bounds _ hlevel).1
        omega
      · refine spareOf_congr fun bit hbit => hbits bit fun own _ _ hplace => ?_
        omega
    · rfl

/-- Such an access is in the block. -/
theorem Fits.index_lt {access : WordAccess} (h : Fits pins words access) :
    access.index < blockSize := by
  cases access with
  | load index => exact h
  | store index word =>
    obtain hlevel | ⟨hindex, -⟩ := h
    · exact (levelWords_bounds index hlevel).2
    · exact Nat.lt_trans hindex (by decide)

/-! ## The functions of the pins -/

theorem functionIndex_lt_length (hwords : words.length = blockSize) (hpin : pin ≤ lastPin) :
    functionIndex pin < words.length :=
  hwords ▸ Nat.lt_trans (functionIndex_lt hpin) (by decide)

/-- A function is selected for the pin that is meant, and no other pin changes its own. -/
theorem functionOf_selecting (hwords : words.length = blockSize) (hpin : pin ≤ lastPin)
    (function : PinFunction) (other : Nat) :
    functionOf (words.replay (selecting words pin function)) other =
      if other = pin then function.bits.toNat else functionOf words other :=
  functionOf_set_withFunction words function (functionIndex_lt_length hwords hpin) other

/-- Driving a pin selects no function. -/
theorem functionOf_driving {other : Nat} (hother : other ≤ lastPin) (level : Bool) :
    functionOf (words.replay (driving pin level)) other = functionOf words other := by
  refine functionOf_set_of_ne words _ ?_
  have := functionIndex_lt hother
  cases level <;> simp [bankIndex, setBase, clearBase] <;> omega

/-- A pin that is made a low output is an output, and no other pin changes its function. -/
theorem functionOf_lowering (hwords : words.length = blockSize) (hpin : pin ≤ lastPin)
    {other : Nat} (hother : other ≤ lastPin) :
    functionOf (words.replay (lowering words pin)) other =
      if other = pin then 1 else functionOf words other := by
  rw [lowering, Words.replay_append, functionOf_selecting (by rwa [Words.length_replay]) hpin,
    functionOf_driving hother]
  rfl

/-- Outputs are made of the pins that are listed and of no others. -/
theorem functionOf_outputting {outputs : List Nat} (hwords : words.length = blockSize)
    (houtputs : ∀ pin ∈ outputs, pin ≤ lastPin) {other : Nat} (hother : other ≤ lastPin) :
    functionOf (words.replay (outputting words outputs)) other =
      if other ∈ outputs then 1 else functionOf words other := by
  induction outputs generalizing words with
  | nil => rfl
  | cons pin outputs ih =>
    obtain ⟨hpin, hrest⟩ := List.forall_mem_cons.mp houtputs
    rw [outputting, Words.replay_append, ih (by rwa [Words.length_replay]) hrest,
      functionOf_lowering hwords hpin hother]
    by_cases hlater : other ∈ outputs <;> simp [hlater]

/-- Inputs are made of the pins that are listed and of no others. -/
theorem functionOf_inputting {inputs : List Nat} (hwords : words.length = blockSize)
    (hinputs : ∀ pin ∈ inputs, pin ≤ lastPin) (other : Nat) :
    functionOf (words.replay (inputting words inputs)) other =
      if other ∈ inputs then 0 else functionOf words other := by
  induction inputs generalizing words with
  | nil => rfl
  | cons pin inputs ih =>
    obtain ⟨hpin, hrest⟩ := List.forall_mem_cons.mp hinputs
    rw [inputting, Words.replay_append, ih (by rwa [Words.length_replay]) hrest,
      functionOf_selecting hwords hpin]
    by_cases hlater : other ∈ inputs <;> simp [hlater, PinFunction.bits]

/-- Acquiring the pins makes outputs of the outputs, and then an input of the input. -/
theorem functionOf_acquire (hwords : words.length = blockSize)
    (hpins : ∀ pin ∈ registers.pins.all, pin ≤ lastPin) {other : Nat} (hother : other ≤ lastPin) :
    functionOf (words.replay (registers.accessesOf words .acquire)) other =
      if other = registers.pins.tdo then 0
      else if other ∈ registers.pins.outputs then 1 else functionOf words other := by
  have houtputs := fun pin hpin => hpins pin (PinNumbers.mem_all_of_mem_outputs hpin)
  have htdo : registers.pins.tdo ≤ lastPin := hpins _ (registers.pins.ofLine_mem_all .tdo)
  rw [accessesOf, Words.replay_append, functionOf_selecting (by rwa [Words.length_replay]) htdo,
    functionOf_outputting hwords houtputs hother]
  rfl

/-- Releasing the pins makes inputs of them. -/
theorem functionOf_release (hwords : words.length = blockSize)
    (hpins : ∀ pin ∈ registers.pins.all, pin ≤ lastPin) (other : Nat) :
    functionOf (words.replay (registers.accessesOf words .release)) other =
      if other ∈ registers.pins.all then 0 else functionOf words other :=
  functionOf_inputting hwords hpins other

/-! ## Low before output -/

/-- When a pin becomes an output, its level has been cleared before. -/
def ClearsFirst (pin : Nat) (words : Words) (accesses : List WordAccess) : Prop :=
  ∀ before access later, accesses = before ++ access :: later →
    functionOf (words.replay before) pin ≠ 1 →
    functionOf (words.replay (before ++ [access])) pin = 1 →
    ∃ word, IsBitOf pin word ∧ .store (bankIndex clearBase pin) word ∈ before

/-- If a level is cleared first in two series of accesses, it is so in both together. -/
theorem ClearsFirst.append {first second : List WordAccess} (hfirst : ClearsFirst pin words first)
    (hsecond : ClearsFirst pin (words.replay first) second) :
    ClearsFirst pin words (first ++ second) := by
  intro before access later hsplit hno hyes
  obtain ⟨middle, rfl, hmiddle⟩ | ⟨middle, rfl, hmiddle⟩ := List.append_eq_append_iff.mp hsplit
  · rw [Words.replay_append] at hno
    rw [List.append_assoc, Words.replay_append] at hyes
    obtain ⟨word, hword, hmem⟩ := hsecond middle access later hmiddle hno hyes
    exact ⟨word, hword, List.mem_append_right _ hmem⟩
  · cases middle with
    | nil =>
      rw [List.append_nil] at hsecond
      obtain ⟨word, -, hmem⟩ := hsecond [] access later hmiddle.symm hno
        (by rwa [← Words.replay_append])
      cases hmem
    | cons head middle =>
      obtain ⟨rfl, hrest⟩ := List.cons.inj hmiddle
      exact hfirst before access middle rfl hno hyes

/-- An access does not make an output of a pin. -/
def SparesPin (pin : Nat) (words : Words) (access : WordAccess) : Prop :=
  functionOf (words.after access) pin = 1 → functionOf words pin = 1

/-- Where no output is made of the pin, there is nothing to clear before. -/
theorem ClearsFirst.of_spares {accesses : List WordAccess}
    (h : Throughout (SparesPin pin) words accesses) : ClearsFirst pin words accesses := by
  rintro before access later rfl hno hyes
  rw [Words.replay_append] at hyes
  exact absurd (h.at_middle hyes) hno

variable {other : Nat}

/-- Driving a pin selects no function. -/
theorem driving_spares (hother : other ≤ lastPin) (level : Bool) :
    Throughout (SparesPin other) words (driving pin level) := by
  refine ⟨fun houtput => ?_, trivial⟩
  have hkept : functionOf (words.replay (driving pin level)) other = functionOf words other :=
    functionOf_driving hother level
  exact hkept.symm.trans houtput

/-- Selecting a function makes an output of no other pin, and of none at all if it is the input. -/
theorem selecting_spares (hwords : words.length = blockSize) (hpin : pin ≤ lastPin)
    {function : PinFunction} (h : other ≠ pin ∨ function = .input) :
    Throughout (SparesPin other) words (selecting words pin function) := by
  refine ⟨id, fun houtput => ?_, trivial⟩
  have hselected := functionOf_selecting hwords hpin function other
  by_cases hother : other = pin
  · obtain rfl := h.resolve_left (not_not_intro hother)
    rw [if_pos hother] at hselected
    exact absurd (hselected.symm.trans houtput) (by decide)
  · rw [if_neg hother] at hselected
    exact hselected.symm.trans houtput

/-- A pin is driven low before its function is selected. -/
theorem lowering_clearsFirst (hwords : words.length = blockSize) (hpin : pin ≤ lastPin)
    (hother : other ≤ lastPin) : ClearsFirst other words (lowering words pin) := by
  by_cases hsame : other = pin
  · subst hsame
    intro before access later hsplit hno hyes
    cases before with
    | nil =>
      -- The first access drives the pin, which makes no output of it.
      obtain ⟨rfl, -⟩ := List.cons.inj hsplit
      exact absurd ((driving_spares hother false).1 hyes) hno
    | cons first before =>
      obtain ⟨rfl, -⟩ := List.cons.inj hsplit
      exact ⟨_, isBitOf_bankBit other, List.mem_cons_self⟩
  · refine .of_spares ((driving_spares hother false).append (selecting_spares ?_ hpin (.inl hsame)))
    rwa [Words.length_replay]

/-- Of many pins each is driven low before its own function is selected. -/
theorem outputting_clearsFirst {outputs : List Nat} (hwords : words.length = blockSize)
    (houtputs : ∀ pin ∈ outputs, pin ≤ lastPin) (hother : other ≤ lastPin) :
    ClearsFirst other words (outputting words outputs) := by
  induction outputs generalizing words with
  | nil => exact .of_spares trivial
  | cons pin outputs ih =>
    obtain ⟨hpin, hrest⟩ := List.forall_mem_cons.mp houtputs
    refine (lowering_clearsFirst hwords hpin hother).append (ih ?_ hrest)
    rwa [Words.length_replay]

/-- While the pins are acquired none becomes an output before its level has been cleared. -/
theorem acquire_clearsFirst (hwords : words.length = blockSize)
    (hpins : ∀ pin ∈ registers.pins.all, pin ≤ lastPin) (hother : other ≤ lastPin) :
    ClearsFirst other words (registers.accessesOf words .acquire) := by
  have houtputs := fun pin hpin => hpins pin (PinNumbers.mem_all_of_mem_outputs hpin)
  refine (outputting_clearsFirst hwords houtputs hother).append (.of_spares ?_)
  have htdo : registers.pins.tdo ≤ lastPin := hpins _ (registers.pins.ofLine_mem_all .tdo)
  exact selecting_spares (by rwa [Words.length_replay]) htdo (.inr rfl)

end PinRegisters

namespace PinRegisterBus

open PinRegisters

variable {τ : Type} [Clock τ]

/-- What calls do to the block of registers, and what one more call does. -/
structure Confined (bench : Bench PinRegisterBus τ) (calls : List Call) : Prop where
  /-- The accesses account for all that happens to the words. -/
  accounted : (bench.after calls).bus = { bench.bus with
    words := bench.bus.words.replay (bench.bus.accesses calls) }
  /-- Every access is in the block. -/
  inside : ∀ access ∈ bench.bus.accesses calls, access.index < blockSize
  /-- Only the words that select functions, and those that set and clear levels, are stored. -/
  stored : ∀ index word, .store index word ∈ bench.bus.accesses calls →
    index < 6 ∨ index ∈ [setBase, setBase + 1, clearBase, clearBase + 1]
  /-- At every moment the other pins have the functions they had. -/
  functions : ∀ earlier, earlier <+: bench.bus.accesses calls → ∀ pin < 60,
    pin ∉ bench.bus.registers.pins.all →
      functionOf (bench.bus.words.replay earlier) pin = functionOf bench.bus.words pin
  /-- At every moment the bits of no pin are what they were. -/
  spares : ∀ earlier, earlier <+: bench.bus.accesses calls → ∀ index < 6,
    spareOf ((bench.bus.words.replay earlier).getD index 0) =
      spareOf (bench.bus.words.getD index 0)
  /-- An output is driven by storing its bit once, in the bank of its pin. -/
  write : ∀ line level, line ≠ .tdo → ∃ word,
    bench.bus.accesses (calls ++ [.write line level]) = bench.bus.accesses calls ++
      [.store (bankIndex (if level then setBase else clearBase)
        (bench.bus.registers.pins.ofLine line)) word] ∧
    IsBitOf (bench.bus.registers.pins.ofLine line) word
  /-- The input is never driven. -/
  write_input : ∀ level,
    bench.bus.accesses (calls ++ [.write .tdo level]) = bench.bus.accesses calls
  /-- Four distinct pins are three outputs and an input once they are acquired. -/
  acquire : bench.bus.registers.pins.all.Nodup →
    (∀ pin ∈ bench.bus.registers.pins.outputs,
      functionOf (bench.after (calls ++ [.acquire])).bus.words pin = 1) ∧
    functionOf (bench.after (calls ++ [.acquire])).bus.words bench.bus.registers.pins.tdo = 0
  /-- While they are acquired each is cleared before it becomes an output. -/
  acquire_clears : ∃ own,
    bench.bus.accesses (calls ++ [.acquire]) = bench.bus.accesses calls ++ own ∧
    ∀ pin ∈ bench.bus.registers.pins.outputs, ClearsFirst pin (bench.after calls).bus.words own
  /-- All pins are inputs once they are released. -/
  release : ∀ pin ∈ bench.bus.registers.pins.all,
    functionOf (bench.after (calls ++ [.release])).bus.words pin = 0

/-- A bus behind registers touches its own pins only: whatever the block holds and whatever calls
are made on a bus with pins that exist, equal ones allowed, they are confined to the pins. -/
theorem accesses_confined (bench : Bench PinRegisterBus τ) (calls : List Call)
    (hpins : ∀ pin ∈ bench.bus.registers.pins.all, pin ≤ lastPin)
    (hwords : bench.bus.words.length = blockSize) : Confined bench calls := by
  have hfits : Throughout (Fits bench.bus.registers.pins.all) bench.bus.words
      (bench.bus.accesses calls) := accesses_fits hpins calls
  have hafter : (bench.after calls).bus.words.length = blockSize := by
    rw [bus_after, Words.length_replay, hwords]
  have houtputs := fun pin hpin => hpins pin (PinNumbers.mem_all_of_mem_outputs hpin)
  have htdo := hpins _ (bench.bus.registers.pins.ofLine_mem_all .tdo)
  exact {
    accounted := bus_after bench calls
    inside := by
      intro access hmem
      obtain ⟨words, hfit⟩ := hfits.of_mem hmem
      exact hfit.index_lt
    stored := by
      intro index word hmem
      obtain ⟨words, hlevel | ⟨hindex, -⟩⟩ := hfits.of_mem hmem
      · exact .inr hlevel
      · exact .inl hindex
    functions := fun earlier hearlier pin hpin hother =>
      hfits.kept (f := fun words => functionOf words pin)
        (fun words access hfit => hfit.functionOf_after hpin hother) hearlier
    spares := fun earlier hearlier index hindex =>
      hfits.kept (f := fun words => spareOf (words.getD index 0))
        (fun words access hfit => hfit.spareOf_after hindex) hearlier
    write := by
      intro line level hline
      refine ⟨_, ?_, isBitOf_bankBit _⟩
      rw [accesses_concat, accessesOf, if_neg hline]
      rfl
    write_input := by
      intro level
      rw [accesses_concat, accessesOf, if_pos rfl, List.append_nil]
    acquire := by
      intro hnodup
      constructor
      · intro pin hpin
        rw [words_after_concat, functionOf_acquire hafter hpins (houtputs pin hpin),
          if_neg (PinNumbers.ne_tdo_of_mem_outputs hnodup hpin), if_pos hpin]
      · rw [words_after_concat]
        exact (functionOf_acquire hafter hpins htdo).trans (if_pos rfl)
    acquire_clears := ⟨_, accesses_concat bench calls .acquire,
      fun pin hpin => acquire_clearsFirst hafter hpins (houtputs pin hpin)⟩
    release := by
      intro pin hpin
      rw [words_after_concat, functionOf_release hafter hpins, if_pos hpin] }

/-- Pins from both banks and at both ends of the block, two of them in one word, in a block whose
bits are all set. -/
theorem accesses_confined_full_block :
    let pins : PinNumbers := { tck := 0, tms := 31, tdi := 32, tdo := 53 }
    let words : Words := List.replicate blockSize 0xFFFFFFFF
    let bench : Bench PinRegisterBus IdealClock := { bus := ⟨⟨pins⟩, words⟩, clock := {} }
    (∀ pin ∈ pins.all, pin ≤ lastPin) ∧ words.length = blockSize ∧
      Confined bench [.acquire, .write .tms true, .read .tdo] := by
  intro pins words bench
  have hpins : ∀ pin ∈ pins.all, pin ≤ lastPin := by decide
  have hwords : words.length = blockSize := List.length_replicate
  exact ⟨hpins, hwords, accesses_confined bench _ hpins hwords⟩

end PinRegisterBus

end JtagPlayer
