import JtagPlayer.Proofs.Directions
import JtagPlayer.Proofs.Transparency

/-!
# What a run leaves of the directions of its pins

A run that has acquired its pins releases them, and all of them are inputs in the end. A run that
cannot acquire them ends at once and releases nothing, so the pins whose directions have been chosen
by then stay as they are: outputs at a low level, for all but the last one.
`Player.directions_left` says this for every tree of files and every choice of pins, and
`Player.output_left_after_failure` shows a pin that is left an output.
-/

namespace JtagPlayer

namespace PinFiles

theorem fst_mem_all {files : PinFiles} {choice : Nat × String} (h : choice ∈ files.directions) :
    choice.1 ∈ files.pins.all := by
  rw [directions, List.mem_append, List.mem_map, List.mem_singleton] at h
  rw [PinNumbers.all_eq]
  rcases h with ⟨pin, hpin, rfl⟩ | rfl
  · exact List.mem_append_left _ hpin
  · exact List.mem_append_right _ List.mem_cons_self

end PinFiles

namespace Player

open PinFiles PinFileBus

variable {τ : Type} [Clock τ]

/-- A run that cannot acquire the bus leaves it as the attempt did. -/
theorem run_refused {β : Type} [Bus β] {bench : Bench β τ} {error : IoError}
    (hrefused : (Bus.acquire bench.bus).1 = .error error) (config : PlayerConfig)
    (program : List Instruction) :
    (∃ report, ((run config program).play bench).1 = .stopped (.hardware error) report) ∧
      ((run config program).play bench).2.bus = (Bus.acquire bench.bus).2 := by
  have hplay : (run config program).play bench =
      (runAcquired config program (bench.answer .now).1 (.error error)).play
        (acquired program bench).2 := by
    rw [← hrefused]
    rfl
  rw [hplay]
  exact ⟨⟨_, rfl⟩, rfl⟩

/-- A run that acquires its pins makes inputs of them in the end, unless it is abandoned. -/
theorem read_of_released {bench : Bench PinFileBus τ} {config : PlayerConfig}
    {program : List Instruction} (hacquired : (Bus.acquire bench.bus).1 = .ok ())
    (hends : ((run config program).play bench).1 ≠ .abandoned) {pin : Nat}
    (hpin : pin ∈ bench.bus.files.pins.all) {location : List String}
    (hplace : bench.bus.tree.place (bench.bus.files.directionFile pin) = .ok location) :
    ((run config program).play bench).2.bus.tree.read (bench.bus.files.directionFile pin) =
      .ok (Text.toBytes "in") := by
  obtain ⟨bus, hbus⟩ := run_released hacquired hends
  have hkeeps : bench.bus.Keeps (Bus.release bus) := hbus ▸ play_keeps (run config program) bench
  have hreleased := release_keeps bus
  have hsame : bus.files.directionFile pin = bench.bus.files.directionFile pin :=
    congrArg (Path.child · "direction")
      ((hreleased.directory_eq pin).symm.trans (hkeeps.directory_eq pin))
  have hpins : bus.files.pins = bench.bus.files.pins := hreleased.pins.symm.trans hkeeps.pins
  have hwritable := (hkeeps.directories.trans hreleased.directories.symm).place hplace
  rw [hbus, ← hsame]
  exact read_release bus (hpins ▸ hpin) (hsame ▸ hwritable)

/-- The directions of pins after a run. A direction file in which the run has chosen a direction
can still be written. If the pins were acquired it says that the pin is an input; if not, the run
ends with the error of that, and the file says what was chosen last. -/
theorem directions_left (bench : Bench PinFileBus τ) (config : PlayerConfig)
    (program : List Instruction) (hends : ((run config program).play bench).1 ≠ .abandoned)
    {before later : List (Nat × String)} {pin : Nat} {direction : String}
    (hchosen : bench.bus.files.chosen bench.bus.files.directions bench.bus.tree =
      before ++ (pin, direction) :: later) (hlast : ∀ choice ∈ later, choice.1 ≠ pin) :
    let played := (run config program).play bench
    let file := bench.bus.files.directionFile pin
    (∃ changed, played.2.bus.tree.write file (Text.toBytes "in") = .ok changed) ∧
    ((Bus.acquire bench.bus).1 = .ok () →
      played.2.bus.tree.read file = .ok (Text.toBytes "in")) ∧
    ∀ error, (Bus.acquire bench.bus).1 = .error error →
      (∃ report, played.1 = .stopped (.hardware error) report) ∧
      played.2.bus.tree.read file = .ok (Text.toBytes direction) := by
  intro played file
  have hconfigures := acquire_configures bench.bus
  have hread := hconfigures.read_of_chosen hchosen hlast
  -- All trees of the run have the same directories.
  have hacquire := (acquire_keeps bench.bus).directories.symm
  have hkeeps : bench.bus.Keeps played.2.bus := play_keeps (run config program) bench
  obtain ⟨location, hfile⟩ := FileTree.read_eq_ok_iff.mp hread
  have hplace := hacquire.place (FileTree.place_of_file hfile)
  refine ⟨?_, fun hacquired => ?_, fun error hrefused => ?_⟩
  · rw [FileTree.write, hkeeps.directories.place hplace]
    exact ⟨_, rfl⟩
  · have hall : (pin, direction) ∈ bench.bus.files.directions := by
      rw [← hconfigures.chosen_eq hacquired, hchosen]
      exact List.mem_append_right _ List.mem_cons_self
    exact read_of_released hacquired hends (fst_mem_all hall) hplace
  · obtain ⟨hstopped, hbus⟩ := run_refused hrefused config program
    refine ⟨hstopped, ?_⟩
    rw [← hread]
    exact congrArg (fun bus : PinFileBus => bus.tree.read file) hbus

/-- Only one of the four pins has a directory. Its direction is chosen, and then the next pin cannot
be brought into use. -/
theorem directions_left_one_directory :
    let tree : FileTree := ({} : FileTree).add ["gpio11", "value"] (.file [0x30])
    let files : PinFiles := { root := {}, pins := {} }
    let bench : Bench PinFileBus IdealClock := { bus := { files, tree }, clock := {} }
    let played := (run {} []).play bench
    files.chosen files.directions tree = [(11, "low")] ∧ played.1 ≠ .abandoned ∧
      (Bus.acquire bench.bus).1 = .error .notFound ∧
      played.2.bus.tree.read (files.directionFile 11) = .ok (Text.toBytes "low") := by
  intro tree files bench played
  have hchosen : files.chosen files.directions tree = [] ++ (11, "low") :: [] := by decide +kernel
  have hends : played.1 ≠ .abandoned := by decide +kernel
  have hrefused : (Bus.acquire bench.bus).1 = .error .notFound := by decide +kernel
  have hleft := directions_left bench {} [] hends hchosen (List.forall_mem_nil _)
  exact ⟨hchosen, hends, hrefused, (hleft.2.2 .notFound hrefused).2⟩

/-- A pin is left an output though it could have been made an input. -/
theorem output_left_after_failure :
    let tree : FileTree := ({} : FileTree).add ["gpio11", "value"] (.file [0x30])
    let files : PinFiles := { root := {}, pins := {} }
    let bench : Bench PinFileBus IdealClock := { bus := { files, tree }, clock := {} }
    let played := (run {} []).play bench
    (11, "low") ∈ files.chosen files.directions tree ∧ played.1 ≠ .abandoned ∧
      (played.2.bus.tree.write (files.directionFile 11) (Text.toBytes "in")).isOk = true ∧
      played.2.bus.tree.read (files.directionFile 11) ≠ .ok (Text.toBytes "in") := by
  decide +kernel

end Player

end JtagPlayer
