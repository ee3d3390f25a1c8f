import JtagPlayer.Dialogue
import JtagPlayer.Proofs.Accesses

/-!
# The accesses of a bus behind registers

The accesses that each operation on pins makes to the block of registers are listed here, and the
operation is shown to recount them. `PinRegisters.accesses` are those on record after a series of
calls, and `PinRegisters.accesses_concat` says which ones a further call adds.

`Bench.after` is the bench that calls leave, made one after the other. `PinRegisterBus.bus_after`
says that the accesses account for everything the calls do to the words of a bus.
-/

namespace JtagPlayer

namespace PinRegisters

variable {words : Words}

/-! ## The accesses of the operations -/

/-- The accesses that select the function of a pin. -/
def selecting (words : Words) (pin : Nat) (function : PinFunction) : List WordAccess :=
  [.load (functionIndex pin),
    .store (functionIndex pin) (withFunction (words.getD (functionIndex pin) 0) pin function)]

/-- The accesses that drive a pin. -/
def driving (pin : Nat) (level : Bool) : List WordAccess :=
  [.store (bankIndex (if level then setBase else clearBase) pin) (bankBit pin)]

/-- The accesses that make a pin a low output. -/
def lowering (words : Words) (pin : Nat) : List WordAccess :=
  driving pin false ++ selecting (words.replay (driving pin false)) pin .output

/-- The accesses that make pins low outputs. -/
def outputting : Words → List Nat → List WordAccess
  | _, [] => []
  | words, pin :: pins => lowering words pin ++ outputting (words.replay (lowering words pin)) pins

/-- The accesses that make pins inputs. -/
def inputting : Words → List Nat → List WordAccess
  | _, [] => []
  | words, pin :: pins =>
    selecting words pin .input ++ inputting (words.replay (selecting words pin .input)) pins

/-- The accesses of a call. -/
def accessesOf (registers : PinRegisters) (words : Words) : Call → List WordAccess
  | .acquire =>
    let outputs := outputting words registers.pins.outputs
    outputs ++ selecting (words.replay outputs) registers.pins.tdo .input
  | .write line level => if line = .tdo then [] else driving (registers.pins.ofLine line) level
  | .read line => [.load (bankIndex levelBase (registers.pins.ofLine line))]
  | .release => inputting words registers.pins.all
  | .now | .wait _ _ | .note _ => []

/-- Selecting the function of a pin loads its word and stores it with its bits changed. -/
theorem selectFunction_recounts (pin : Nat) (function : PinFunction) :
    Recounts (selectFunction pin function) (selectFunction pin function) words
      (selecting words pin function) () :=
  (Recounts.load _).bind (.store _ _)

/-- Driving a pin is one store into the word that sets levels, or into the one that clears them. -/
theorem drivePin_recounts (pin : Nat) (level : Bool) :
    Recounts (drivePin pin level) (drivePin pin level) words (driving pin level) () :=
  .store _ _

/-- Pins become outputs one by one, each of them low before it is one. -/
theorem makeOutputs_recounts (pins : List Nat) :
    Recounts (makeOutputs pins) (makeOutputs pins) words (outputting words pins) () := by
  induction pins generalizing words with
  | nil => exact .pure ()
  | cons pin pins ih =>
    rw [outputting, lowering, List.append_assoc]
    refine (drivePin_recounts pin false).bind ((selectFunction_recounts pin .output).bind ?_)
    rw [← Words.replay_append]
    exact ih

theorem makeInputs_recounts (pins : List Nat) :
    Recounts (makeInputs pins) (makeInputs pins) words (inputting words pins) () := by
  induction pins generalizing words with
  | nil => exact .pure ()
  | cons pin pins ih => exact (selectFunction_recounts pin .input).bind ih

/-- The bus is acquired by making outputs of three pins and an input of the fourth. -/
theorem acquire_recounts (registers : PinRegisters) :
    Recounts registers.acquire registers.acquire words (registers.accessesOf words .acquire)
      (.ok ()) := by
  refine (makeOutputs_recounts registers.pins.outputs).bind ?_
  exact (selectFunction_recounts registers.pins.tdo .input).map fun _ => Except.ok ()

/-- A driven line is written by driving its pin, and the data from the device is refused without an
access. -/
theorem write_recounts (registers : PinRegisters) (line : Line) (level : Bool) :
    Recounts (registers.write line level) (registers.write line level) words
      (registers.accessesOf words (.write line level))
      (if line = .tdo then .error .notDriven else .ok ()) := by
  rw [write, write, accessesOf]
  split
  · exact .pure _
  · exact (drivePin_recounts _ level).map fun _ => Except.ok ()

/-- A line is read by loading the word that holds the level of its pin. -/
theorem read_recounts (registers : PinRegisters) (line : Line) :
    Recounts (registers.read line) (registers.read line) words
      (registers.accessesOf words (.read line))
      (.ok (words.getD (bankIndex levelBase (registers.pins.ofLine line)) 0 &&&
        bankBit (registers.pins.ofLine line) != 0)) :=
  (Recounts.load _).map fun word =>
    Except.ok (word &&& bankBit (registers.pins.ofLine line) != 0)

/-! ## Series of calls -/

section Serve

variable {m : Type → Type} [Monad m] [WordMemory m]

/-- What a call does to the words. -/
def serve (registers : PinRegisters) : Call → m Unit
  | .acquire => do
    let _ ← registers.acquire
    pure ()
  | .write line level => do
    let _ ← registers.write line level
    pure ()
  | .read line => do
    let _ ← registers.read line
    pure ()
  | .release => registers.release
  | .now | .wait _ _ | .note _ => pure ()

/-- What calls do to the words. -/
def serveAll (registers : PinRegisters) : List Call → m Unit
  | [] => pure ()
  | call :: calls => do
    registers.serve call
    registers.serveAll calls

end Serve

/-- The accesses that calls make, one after the other. -/
def accesses (registers : PinRegisters) (words : Words) (calls : List Call) : List WordAccess :=
  (StateT.run (m := Id) (registers.serveAll calls) (RecordedWords.mk words [])).2.record

/-- Each call makes the accesses listed for it. -/
theorem serve_recounts (registers : PinRegisters) (call : Call) :
    Recounts (registers.serve call) (registers.serve call) words
      (registers.accessesOf words call) () := by
  cases call with
  | acquire => exact registers.acquire_recounts.map fun _ => ()
  | write line level => exact (registers.write_recounts line level).map fun _ => ()
  | read line => exact (registers.read_recounts line).map fun _ => ()
  | release => exact makeInputs_recounts registers.pins.all
  | now | wait | note => exact .pure ()

/-- Calls recount some accesses, which are those that they make. -/
theorem accesses_eq {registers : PinRegisters} {calls : List Call} {recounted : List WordAccess}
    (h : Recounts (registers.serveAll calls) (registers.serveAll calls) words recounted ()) :
    registers.accesses words calls = recounted := by
  rw [accesses, h.recorded]
  rfl

/-- Calls in a row make the accesses of each on the words that those before have left. -/
theorem serveAll_recounts (registers : PinRegisters) (calls : List Call) :
    Recounts (registers.serveAll calls) (registers.serveAll calls) words
      (registers.accesses words calls) () := by
  suffices h : ∃ recounted, Recounts (registers.serveAll calls) (registers.serveAll calls) words
      recounted () by
    obtain ⟨recounted, h⟩ := h
    rwa [accesses_eq h]
  induction calls generalizing words with
  | nil => exact ⟨[], .pure ()⟩
  | cons call calls ih =>
    obtain ⟨rest, hrest⟩ := ih
    exact ⟨_, (registers.serve_recounts call).bind hrest⟩

theorem accesses_cons (registers : PinRegisters) (words : Words) (call : Call)
    (calls : List Call) : registers.accesses words (call :: calls) =
      registers.accessesOf words call ++
        registers.accesses (words.replay (registers.accessesOf words call)) calls :=
  accesses_eq ((registers.serve_recounts call).bind (registers.serveAll_recounts calls))

/-- The accesses of one more call follow those of the calls before it. -/
theorem accesses_concat (registers : PinRegisters) (words : Words) (calls : List Call)
    (call : Call) : registers.accesses words (calls ++ [call]) =
      registers.accesses words calls ++
        registers.accessesOf (words.replay (registers.accesses words calls)) call := by
  induction calls generalizing words with
  | nil =>
    rw [List.nil_append, accesses_cons]
    exact List.append_nil _
  | cons first calls ih =>
    rw [List.cons_append, accesses_cons, accesses_cons, ih, List.append_assoc, Words.replay_append]

end PinRegisters

/-! ## Calls on a bus -/

namespace Bench

variable {β τ : Type} [Bus β] [Clock τ]

/-- The bench after some calls, made one after the other whatever the answers are. -/
def after (bench : Bench β τ) (calls : List Call) : Bench β τ :=
  calls.foldl (fun bench call => (bench.answer call).2) bench

@[simp] theorem after_nil (bench : Bench β τ) : bench.after [] = bench := rfl

@[simp] theorem after_cons (bench : Bench β τ) (call : Call) (calls : List Call) :
    bench.after (call :: calls) = (bench.answer call).2.after calls := rfl

theorem after_append (bench : Bench β τ) (first second : List Call) :
    bench.after (first ++ second) = (bench.after first).after second :=
  List.foldl_append

end Bench

namespace PinRegisterBus

open PinRegisters

variable {τ : Type} [Clock τ]

/-- The accesses that calls on a bus make to its words. -/
def accesses (bus : PinRegisterBus) (calls : List Call) : List WordAccess :=
  bus.registers.accesses bus.words calls

/-- A call leaves the words as its accesses do. -/
theorem bus_answer (bench : Bench PinRegisterBus τ) (call : Call) :
    (bench.answer call).2.bus = { bench.bus with
      words := bench.bus.words.replay (bench.bus.registers.accessesOf bench.bus.words call) } := by
  have hplain := fun {α : Type} {plain : StateM Words α} {recorded : StateM RecordedWords α}
    {accesses : List WordAccess} {result : α}
    (h : Recounts plain recorded bench.bus.words accesses result) =>
      congrArg (fun outcome => { bench.bus with words := outcome.2 : PinRegisterBus }) h.plain
  cases call with
  | acquire => exact hplain bench.bus.registers.acquire_recounts
  | write line level => exact hplain (bench.bus.registers.write_recounts line level)
  | read line => exact hplain (bench.bus.registers.read_recounts line)
  | release => exact hplain (makeInputs_recounts bench.bus.registers.pins.all)
  | now | wait | note => rfl

/-- Calls leave the words as their accesses do. -/
theorem bus_after (bench : Bench PinRegisterBus τ) (calls : List Call) :
    (bench.after calls).bus = { bench.bus with
      words := bench.bus.words.replay (bench.bus.accesses calls) } := by
  induction calls generalizing bench with
  | nil => rfl
  | cons call calls ih =>
    rw [Bench.after_cons, ih, accesses, accesses, bus_answer, accesses_cons, Words.replay_append]

/-- The accesses of one more call follow those of the calls before it. -/
theorem accesses_concat (bench : Bench PinRegisterBus τ) (calls : List Call) (call : Call) :
    bench.bus.accesses (calls ++ [call]) = bench.bus.accesses calls ++
      bench.bus.registers.accessesOf (bench.after calls).bus.words call := by
  rw [accesses, PinRegisters.accesses_concat, bus_after]
  rfl

/-- The words after one more call. -/
theorem words_after_concat (bench : Bench PinRegisterBus τ) (calls : List Call) (call : Call) :
    (bench.after (calls ++ [call])).bus.words = (bench.after calls).bus.words.replay
      (bench.bus.registers.accessesOf (bench.after calls).bus.words call) := by
  rw [Bench.after_append, Bench.after_cons, Bench.after_nil, bus_answer, bus_after]

end PinRegisterBus

end JtagPlayer
