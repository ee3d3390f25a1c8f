import JtagPlayer.Proofs.Driving
import JtagPlayer.Proofs.Releasing

/-!
# Playing over pins behind plain files

Four pins may be behind plain files that are all there: each pin has a directory, with a direction
file that can be written and a level file. `PinFileBus.Plain` says so, and it stays so whatever is
done with the bus. Nothing ever changes the level file of the input, so such pins make a bus whose
input is at the same level all the time.

`Player.plain_files_constant` compares a run over such pins with one on any bus that never fails and
whose input is at that level, and says what the run leaves of the files.
-/

namespace JtagPlayer

namespace PinFiles

/-- The files of pins that may ever be changed. -/
def changing (files : PinFiles) : List Path :=
  files.pins.all.map files.directionFile ++ files.pins.outputs.map files.levelFile

/-- What is in a level file after the pin was driven. Only the first byte is overwritten. -/
def leveled (contents : List UInt8) : Option Bool → List UInt8
  | none => contents
  | some level => levelText level ++ contents.drop 1

/-- Only the last level counts. -/
theorem leveled_leveled (contents : List UInt8) (first last : Option Bool) :
    leveled (leveled contents first) last = leveled contents (last.or first) := by
  cases last with
  | none => rfl
  | some level => cases first <;> rfl

end PinFiles

namespace PinFileBus

open PinFiles

/-- The file for the level of a line. -/
def lineFile (bus : PinFileBus) (line : Line) : Path :=
  bus.files.levelFile (bus.files.pins.ofLine line)

/-- Four different pins behind files that are all there, with the input at some level. -/
structure Plain (bus : PinFileBus) (level : Bool) : Prop where
  distinct : bus.files.pins.all.Nodup
  /-- The direction files can be written. -/
  direction : ∀ pin ∈ bus.files.pins.all, ∃ location,
    bus.tree.place (bus.files.directionFile pin) = .ok location
  /-- The level files exist. -/
  connect : ∀ pin ∈ bus.files.pins.all, ∃ found,
    bus.tree.file (bus.files.levelFile pin) = .ok found
  /-- The level file of the input begins with its level. -/
  sample : (bus.tree.read (bus.lineFile .tdo)).bind levelOf = .ok level

instance {ε α : Type} : (result : Except ε α) → Decidable (∃ x, result = .ok x)
  | .ok x => .isTrue ⟨x, rfl⟩
  | .error _ => .isFalse nofun

instance (bus : PinFileBus) (level : Bool) : Decidable (bus.Plain level) :=
  decidable_of_iff (bus.files.pins.all.Nodup ∧
    (∀ pin ∈ bus.files.pins.all, ∃ location,
      bus.tree.place (bus.files.directionFile pin) = .ok location) ∧
    (∀ pin ∈ bus.files.pins.all, ∃ found,
      bus.tree.file (bus.files.levelFile pin) = .ok found) ∧
    (bus.tree.read (bus.lineFile .tdo)).bind levelOf = .ok level)
    ⟨fun h => ⟨h.1, h.2.1, h.2.2.1, h.2.2.2⟩, fun h => ⟨h.1, h.2, h.3, h.4⟩⟩

variable {bus bus' : PinFileBus}

theorem Keeps.changing_eq (h : bus.Keeps bus') : bus'.files.changing = bus.files.changing := by
  unfold changing directionFile levelFile directory
  rw [h.root, h.pins]

theorem Keeps.lineFile_eq (h : bus.Keeps bus') (line : Line) :
    bus'.lineFile line = bus.lineFile line := by
  unfold lineFile levelFile directory
  rw [h.root, h.pins]

/-! ## Places of files -/

/-- The level files of different lines lie at different places. -/
theorem apart_of_lines (hdistinct : bus.files.pins.all.Nodup) {line other : Line}
    (hne : line ≠ other) : bus.tree.Apart (bus.lineFile line) (bus.lineFile other) :=
  apart_levelFiles (mt (PinNumbers.ofLine_injective hdistinct) hne)

/-- No level file lies where a direction file does. -/
theorem apart_of_directions (bus : PinFileBus) (line : Line) :
    ∀ path ∈ bus.files.pins.all.map bus.files.directionFile,
      bus.tree.Apart path (bus.lineFile line) := by
  intro path hpath
  obtain ⟨pin, -, rfl⟩ := List.mem_map.mp hpath
  exact FileTree.apart_of_names (by decide) (by decide) (by decide)

/-- The level file of the input is not among those that may be changed. -/
theorem apart_of_changing (hdistinct : bus.files.pins.all.Nodup) :
    ∀ path ∈ bus.files.changing, bus.tree.Apart path (bus.lineFile .tdo) := by
  -- Direction files have another name, and the level files that change are those of other pins.
  refine List.forall_mem_append.mpr ⟨bus.apart_of_directions .tdo, fun path hpath => ?_⟩
  obtain ⟨pin, hpin, rfl⟩ := List.mem_map.mp hpath
  exact apart_levelFiles (PinNumbers.ne_tdo_of_mem_outputs hdistinct hpin)

/-! ## Single operations -/

theorem release_changes (bus : PinFileBus) :
    bus.tree.Touches bus.files.changing (Bus.release bus).tree :=
  (release_touches bus).mono (List.subset_append_left _ _)

theorem write_changes (bus : PinFileBus) {line : Line} (hline : line ≠ .tdo) (level : Bool) :
    bus.tree.Touches bus.files.changing (Bus.write line level bus).2.tree := by
  refine (write_touches bus line level).2.mono (List.cons_subset.mpr ⟨?_, List.nil_subset _⟩)
  have hpin := PinNumbers.ofLine_mem_outputs bus.files.pins hline
  exact List.mem_append_right _ (List.mem_map_of_mem hpin)

/-- An output can be driven while the pins are connected. Its level file begins with the level then
and goes on as before. -/
theorem write_of_connected (hconnected : bus.files.isConnected = true) {line : Line}
    (hline : line ≠ .tdo) {contents : List UInt8}
    (hread : bus.tree.read (bus.lineFile line) = .ok contents) (level : Bool) :
    (Bus.write line level bus).1 = .ok () ∧
      (Bus.write line level bus).2.tree.read (bus.lineFile line) =
        .ok (leveled contents (some level)) := by
  obtain ⟨tree, happlied, hwritten⟩ := FileTree.applied_overwrite hread (levelText level)
  have hwrite : bus.tree.perform (bus.files.write line level) = (.ok (), tree) := by
    rw [PinFiles.write, hconnected, if_neg (by decide), if_neg hline]
    exact happlied
  have hperform : Bus.write line level bus = (.ok (), { bus with tree }) :=
    congrArg (fun outcome : Except IoError Unit × FileTree =>
      (outcome.1, { bus with tree := outcome.2 })) hwrite
  rw [hperform]
  exact ⟨rfl, hwritten⟩

/-- Nothing can be driven or sampled otherwise. -/
theorem write_of_not_connected (hconnected : bus.files.isConnected = false) (line : Line)
    (level : Bool) : (Bus.write line level bus).1 = .error .notInitialized := by
  show (bus.tree.perform (bus.files.write line level)).1 = _
  rw [PinFiles.write, hconnected]
  rfl

theorem read_of_not_connected (hconnected : bus.files.isConnected = false) :
    (Bus.read .tdo bus).1 = .error .notInitialized := by
  show (bus.tree.perform (bus.files.read .tdo)).1 = _
  rw [PinFiles.read, hconnected]
  rfl

namespace Plain

variable {α τ : Type} [Clock τ] {level : Bool}

/-- The level file of the input is as it was after any change to the files that may be changed. -/
theorem read_tdo (h : bus.Plain level) (htouches : bus.tree.Touches bus.files.changing bus'.tree) :
    bus'.tree.read (bus.lineFile .tdo) = bus.tree.read (bus.lineFile .tdo) := by
  obtain ⟨contents, hread, -⟩ := bind_eq_ok h.sample
  rw [hread]
  exact htouches.read_of_apart hread (apart_of_changing h.distinct)

/-- Such a change keeps all files there. -/
theorem of_touches (h : bus.Plain level) (hkeeps : bus.Keeps bus')
    (htouches : bus.tree.Touches bus.files.changing bus'.tree) : bus'.Plain level where
  distinct := hkeeps.pins ▸ h.distinct
  direction pin hpin := by
    rw [directionFile, hkeeps.directory_eq]
    exact (h.direction pin (hkeeps.pins ▸ hpin)).imp fun _ => hkeeps.directories.place
  connect pin hpin := by
    rw [levelFile, hkeeps.directory_eq]
    exact (h.connect pin (hkeeps.pins ▸ hpin)).elim fun _ => htouches.file
  sample := by
    rw [hkeeps.lineFile_eq, h.read_tdo htouches]
    exact h.sample

theorem exists_read (h : bus.Plain level) (line : Line) :
    ∃ contents, bus.tree.read (bus.lineFile line) = .ok contents := by
  obtain ⟨⟨location, contents⟩, hfile⟩ := h.connect _ (bus.files.pins.ofLine_mem_all line)
  exact ⟨contents, FileTree.read_eq_ok_iff.mpr ⟨location, hfile⟩⟩

/-- The pins can be acquired. This touches the direction files only, since all directories exist. -/
theorem acquire (h : bus.Plain level) :
    (Bus.acquire bus).1 = .ok () ∧
      bus.tree.Touches (bus.files.pins.all.map bus.files.directionFile)
        (Bus.acquire bus).2.tree :=
  (acquire_configures bus).succeeds (fun _ hchoice => h.direction _ (fst_mem_all hchoice))
    fun _ hchoice => h.connect _ (fst_mem_all hchoice)

theorem acquire_changes (h : bus.Plain level) :
    bus.tree.Touches bus.files.changing (Bus.acquire bus).2.tree :=
  h.acquire.2.mono (List.subset_append_left _ _)

/-- While the pins are connected the input can be sampled. -/
theorem read (h : bus.Plain level) (hconnected : bus.files.isConnected = true) :
    (Bus.read .tdo bus).1 = .ok level := by
  show (bus.tree.perform (bus.files.read .tdo)).1 = _
  rw [PinFiles.read, hconnected, if_neg (by decide), if_neg (by decide)]
  exact h.sample

/-- If the input can be sampled at all it is at the one level. -/
theorem level_eq (h : bus.Plain level) {sampled : Bool}
    (hsampled : (Bus.read .tdo bus).1 = .ok sampled) : sampled = level := by
  cases hconnected : bus.files.isConnected with
  | true => exact Except.ok.inj (hsampled.symm.trans (h.read hconnected))
  | false => cases (read_of_not_connected hconnected).symm.trans hsampled

/-- Pins behind plain files answer by rule: the input is always at the same level. -/
def responsive (level : Bool) : Responsive PinFileBus fun _ _ _ => level where
  Shows bus _ := bus.Plain level
  acquire h := ⟨{}, h.of_touches (acquire_keeps _) h.acquire_changes⟩
  write h line level hline :=
    ⟨_, h.of_touches (write_keeps _ line level) (write_changes _ hline level), fun _ => rfl⟩
  read {bus wires} h := by
    refine ⟨wires.watch [⟨.read .tdo, .ok level⟩], by rwa [read_eq], fun sampled hsampled => ?_⟩
    obtain rfl := h.level_eq hsampled
    exact ⟨rfl, rfl⟩
  release h := ⟨{}, h.of_touches (release_keeps _) (release_changes _)⟩

/-! ## Single calls -/

variable {bench : Bench PinFileBus τ} {c : Call}

/-- Every proper call touches only files that may be changed. -/
theorem answer_changes (h : bench.bus.Plain level) (hproper : c.IsProper) :
    bench.bus.tree.Touches bench.bus.files.changing (bench.answer c).2.bus.tree := by
  cases c with
  | acquire => exact h.acquire_changes
  | write line level => exact write_changes bench.bus hproper level
  | read line =>
    show bench.bus.tree.Touches _ (Bus.read line bench.bus).2.tree
    rw [read_eq]
    exact .refl bench.bus.tree _
  | release => exact release_changes bench.bus
  | now | wait | note => exact .refl bench.bus.tree _

theorem answer_plain (h : bench.bus.Plain level) (hproper : c.IsProper) :
    (bench.answer c).2.bus.Plain level :=
  h.of_touches (answer_keeps bench c) (h.answer_changes hproper)

/-- Proper calls succeed if lines are driven and sampled only while the pins are connected. -/
theorem answer_succeeds (h : bench.bus.Plain level) (hproper : c.IsProper)
    (hconnected : c.IsOperation → bench.bus.files.isConnected = true) :
    Exchange.Succeeds ⟨c, (bench.answer c).1⟩ := by
  cases c with
  | acquire => exact Exchange.succeeds_acquire.mpr h.acquire.1
  | write line level =>
    obtain ⟨contents, hread⟩ := h.exists_read line
    have hwritten := write_of_connected (hconnected trivial) hproper hread level
    exact Exchange.succeeds_write.mpr hwritten.1
  | read line =>
    obtain rfl : line = .tdo := hproper
    exact Exchange.succeeds_read.mpr ⟨level, h.read (hconnected trivial)⟩
  | release | now | wait | note => trivial

/-- While the bus is held the pins are connected. -/
theorem answer_connected (h : bench.bus.Plain level) {isHeld : Bool}
    (hconnected : isHeld = true → bench.bus.files.isConnected = true) :
    c.holds isHeld = true → (bench.answer c).2.bus.files.isConnected = true := by
  intro hheld
  cases c with
  | acquire => exact isConnected_acquire h.acquire.1
  | write line level => exact hconnected hheld
  | read line => exact hconnected hheld
  | release => cases hheld
  | now | wait | note => exact hconnected hheld

/-- What a call that succeeds leaves in a level file. -/
theorem answer_level (h : bench.bus.Plain level) (hproper : c.IsProper)
    (hsucceeds : Exchange.Succeeds ⟨c, (bench.answer c).1⟩) {line : Line} {contents : List UInt8}
    (hread : bench.bus.tree.read (bench.bus.lineFile line) = .ok contents) :
    (bench.answer c).2.bus.tree.read (bench.bus.lineFile line) =
      .ok (leveled contents (c.drives? line)) := by
  cases c with
  | acquire => exact h.acquire.2.read_of_apart hread (bench.bus.apart_of_directions line)
  | write driven level =>
    by_cases hdriven : driven = line
    · subst hdriven
      rw [Call.drives?, if_pos rfl]
      cases hconnected : bench.bus.files.isConnected with
      | true => exact (write_of_connected hconnected hproper hread level).2
      | false =>
        have hfails := write_of_not_connected hconnected driven level
        cases hfails.symm.trans (Exchange.succeeds_write.mp hsucceeds)
    · rw [Call.drives?, if_neg hdriven]
      exact (write_touches bench.bus driven level).2.read_of_apart hread
        (List.forall_mem_singleton.mpr (apart_of_lines h.distinct hdriven))
  | read sampled =>
    show (Bus.read sampled bench.bus).2.tree.read _ = _
    rw [read_eq]
    exact hread
  | release =>
    exact (release_touches bench.bus).read_of_apart hread (bench.bus.apart_of_directions line)
  | now | wait | note => exact hread

/-! ## Dialogues -/

/-- A dialogue touches only files that may be changed. -/
theorem play_changes (dialogue : Dialogue α) (h : bench.bus.Plain level)
    (hproper : ∀ exchange ∈ dialogue.transcript bench, exchange.call.IsProper) :
    bench.bus.tree.Touches bench.bus.files.changing (dialogue.play bench).2.bus.tree := by
  induction dialogue generalizing bench with
  | done result => exact .refl bench.bus.tree _
  | call c next ih =>
    obtain ⟨hfirst, hrest⟩ := List.forall_mem_cons.mp hproper
    have hrests := ih _ (h.answer_plain hfirst) hrest
    rw [(answer_keeps bench c).changing_eq] at hrests
    exact (h.answer_changes hfirst).trans hrests

/-- Nothing fails in a dialogue in which lines are driven and sampled only while the bus is held. -/
theorem play_flawless (dialogue : Dialogue α) (h : bench.bus.Plain level)
    (hproper : ∀ exchange ∈ dialogue.transcript bench, exchange.call.IsProper) (isHeld : Bool)
    (hconnected : isHeld = true → bench.bus.files.isConnected = true)
    (hbracketed : Bracketed isHeld (dialogue.transcript bench)) :
    Flawless (dialogue.transcript bench) := by
  induction dialogue generalizing bench isHeld with
  | done result => exact flawless_nil
  | call c next ih =>
    obtain ⟨hfirst, hrest⟩ := List.forall_mem_cons.mp hproper
    obtain ⟨hheld, hbrackets⟩ := hbracketed
    have hsucceeds := h.answer_succeeds hfirst fun hoperation => hconnected (hheld hoperation)
    have hrests := ih _ (h.answer_plain hfirst) hrest _ (h.answer_connected hconnected) hbrackets
    exact flawless_cons.mpr ⟨hsucceeds, hrests⟩

/-- What a dialogue in which nothing fails leaves in a level file. -/
theorem play_level (dialogue : Dialogue α) (h : bench.bus.Plain level)
    (hproper : ∀ exchange ∈ dialogue.transcript bench, exchange.call.IsProper)
    (hflawless : Flawless (dialogue.transcript bench)) {line : Line} {contents : List UInt8}
    (hread : bench.bus.tree.read (bench.bus.lineFile line) = .ok contents) :
    (dialogue.play bench).2.bus.tree.read (bench.bus.lineFile line) =
      .ok (leveled contents (lastDriven line (dialogue.transcript bench))) := by
  induction dialogue generalizing bench contents with
  | done result => exact hread
  | call c next ih =>
    obtain ⟨hfirst, hrest⟩ := List.forall_mem_cons.mp hproper
    obtain ⟨hsucceeds, hsucceedings⟩ := flawless_cons.mp hflawless
    -- What the first call leaves in the file is what the rest of the dialogue finds there.
    have hlevel := h.answer_level hfirst hsucceeds hread
    rw [← (answer_keeps bench c).lineFile_eq] at hlevel ⊢
    rw [Dialogue.transcript, lastDriven_cons, ← leveled_leveled]
    exact ih _ (h.answer_plain hfirst) hrest hsucceedings hlevel

end Plain

end PinFileBus

/-! ## A bus with a constant input -/

/-- A bus that never fails and whose input is always at the same level. -/
structure IsConstant (β : Type) [Bus β] (level : Bool) : Prop where
  acquire : ∀ bus : β, (Bus.acquire bus).1 = .ok ()
  write : ∀ (bus : β) line driven, line ≠ .tdo → (Bus.write line driven bus).1 = .ok ()
  read : ∀ bus : β, (Bus.read .tdo bus).1 = .ok level

namespace IsConstant

variable {β : Type} [Bus β] {level : Bool}

theorem reliable (h : IsConstant β level) : Reliable β :=
  ⟨h.acquire, h.write, fun bus => ⟨level, h.read bus⟩⟩

/-- It answers by rule, whatever it has been through. -/
def responsive (h : IsConstant β level) : Responsive β fun _ _ _ => level where
  Shows _ _ := True
  acquire _ := ⟨{}, trivial⟩
  write _ _ _ _ := ⟨_, trivial, fun _ => rfl⟩
  read {bus wires} _ := by
    refine ⟨wires.watch [⟨.read .tdo, .ok level⟩], trivial, fun sampled hsampled => ?_⟩
    obtain rfl := Except.ok.inj (hsampled.symm.trans (h.read bus))
    exact ⟨rfl, rfl⟩
  release _ := ⟨{}, trivial⟩

end IsConstant

namespace Player

open PinFiles PinFileBus

variable {β τ : Type} [Bus β] [Clock τ]

/-- Pins behind plain files are as good as a bus with a constant input. A run over them ends as on
any such bus that never fails. Afterwards the level file of each output begins with the level to
which the line was driven last and goes on as before, that of the input is as it was, the pins are
inputs, and nothing but these files has changed. -/
theorem plain_files_constant {level : Bool} {bench : Bench PinFileBus τ}
    (h : bench.bus.Plain level) (hconstant : IsConstant β level) (bench' : Bench β τ)
    (config : PlayerConfig) (program : List Instruction)
    (hcomparable : Comparable program bench.clock bench'.clock
      ((run config program).play bench).1 ((run config program).play bench').1) :
    let played := (run config program).play bench
    let played' := (run config program).play bench'
    let bus := bench.bus
    let tree := played.2.bus.tree
    (played.1.Alike ⟨false, true⟩ played'.1 ∧
      (bench'.clock = bench.clock → played'.1 = played.1)) ∧
    (∀ line, line ≠ .tdo → ∃ last contents,
      lastDriven line ((run config program).transcript bench) = some last ∧
      bus.tree.read (bus.lineFile line) = .ok contents ∧
      tree.read (bus.lineFile line) = .ok (levelText last ++ contents.drop 1)) ∧
    tree.read (bus.lineFile .tdo) = bus.tree.read (bus.lineFile .tdo) ∧
    (played.1 ≠ .abandoned → ∀ pin ∈ bus.files.pins.all,
      tree.read (bus.files.directionFile pin) = .ok (Text.toBytes "in")) ∧
    bus.tree.Touches bus.files.changing tree := by
  intro played played' bus tree
  have hcourse := run_course config program bench
  have hproper := (hcourse.prepared {}).isProper
  have hproper' := ((run_course config program bench').prepared {}).isProper
  have hflawless := h.play_flawless (run config program) hproper false nofun hcourse.bracketed
  have hchanges := h.play_changes (run config program) hproper
  refine ⟨?_, fun line hline => ?_, h.read_tdo hchanges, fun hends pin hpin => ?_, hchanges⟩
  -- Both buses answer by the rule that takes no notice of what they have been through.
  · have hshows : (Plain.responsive level).Shows bench.bus {} := h
    have hshows' : hconstant.responsive.Shows bench'.bus {} := trivial
    obtain ⟨-, halike, hsame⟩ := responding_alike hshows hshows' (fun _ _ _ => rfl) config program
      hflawless (hconstant.reliable.flawless _ bench' hproper') hcomparable
    exact ⟨halike, fun hclock => (hsame hclock).1⟩
  · obtain ⟨last, hlast⟩ := hcourse.drives hflawless hline
    obtain ⟨contents, hread⟩ := h.exists_read line
    have hlevel := h.play_level (run config program) hproper hflawless hread
    rw [hlast] at hlevel
    exact ⟨last, contents, hlast, hread, hlevel⟩
  · obtain ⟨location, hplace⟩ := h.direction pin hpin
    exact read_of_released h.acquire.1 hends hpin hplace

/-- The level files hold more than a level. The scan comes back with ones only. -/
theorem plain_files_constant_high_input :
    let tree := (((({} : FileTree).add ["gpio11", "value"] (.file [0x30, 0x0A])).add
      ["gpio25", "value"] (.file [0x37])).add ["gpio10", "value"] (.file [])).add
      ["gpio9", "value"] (.file [0x31, 0x0A])
    let bench : Bench PinFileBus IdealClock :=
      { bus := { files := { root := {}, pins := {} }, tree }, clock := {} }
    let bench' : Bench (RuleBus fun _ _ _ => true) IdealClock := { bus := {}, clock := {} }
    let config : PlayerConfig := { continueOnFault := true }
    let program := [Instruction.shift .data { length := 5, tdi := some [9], tdo := some [9] }
      (some "first")]
    let played := (run config program).play bench
    let played' := (run config program).play bench'
    let lines : List Line := [.tck, .tms, .tdi, .tdo]
    bench.bus.Plain true ∧ played.1.Alike ⟨false, true⟩ played'.1 ∧
      (played.1.report?.map fun report => report.faults.faults.map Fault.record) =
        some [("first", "1F")] ∧
      lines.map (fun line => played.2.bus.tree.read (bench.bus.lineFile line)) =
        [.ok [0x31, 0x0A], .ok [0x30], .ok [0x30], .ok [0x31, 0x0A]] := by
  intro tree bench bench' config program played played' lines
  have hplain : bench.bus.Plain true := by decide +kernel
  have hconstant : IsConstant (RuleBus fun _ _ _ => true) true :=
    ⟨fun _ => rfl, fun _ _ _ _ => rfl, fun _ => rfl⟩
  have halike := plain_files_constant hplain hconstant bench' config program (.inl rfl)
  refine ⟨hplain, halike.1.1, ?_⟩
  decide +kernel

end Player

end JtagPlayer
