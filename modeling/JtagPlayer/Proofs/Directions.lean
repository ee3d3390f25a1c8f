import JtagPlayer.Bus.PinFiles
import JtagPlayer.Proofs.Frames

/-!
# The directions of pins behind files

Acquiring pins behind files chooses their directions one after the other, and may fail at any file.
`PinFiles.chosen` lists the directions that have been chosen by then, and `PinFiles.Configures`
relates them to the tree that is left. Releasing the pins turns all of them into inputs whose
direction files can still be written.
-/

namespace JtagPlayer

namespace PinFiles

variable {files : PinFiles} {tree tree' : FileTree} {location : List String}

/-! ## The files of pins -/

theorem pinName_ne_up (pin : Nat) : "gpio" ++ toString pin ≠ ".." := by
  intro h
  have hletters := congrArg String.toList h
  simp at hletters

theorem pinName_injective {pin other : Nat}
    (h : "gpio" ++ toString pin = "gpio" ++ toString other) : pin = other := by
  have hdigits : Nat.toDigits 10 pin = Nat.toDigits 10 other := by
    have hletters := congrArg String.toList h
    simpa [Nat.toString_eq_ofList_toDigits] using hletters
  rw [← Nat.ofDigitChars_ten_toDigits (n := pin), hdigits, Nat.ofDigitChars_ten_toDigits]

/-- The files of different pins lie at different places. -/
theorem apart_of_pins {pin other : Nat} {name name' : String} (hname : name ≠ "..")
    (hname' : name' ≠ "..") (hne : pin ≠ other) :
    tree.Apart ((files.directory pin).child name) ((files.directory other).child name') := by
  intro location h h'
  obtain ⟨-, parent, hparent, hparent'⟩ := FileTree.locate_child_inj hname hname' h h'
  have hsame := FileTree.locate_child_inj (pinName_ne_up pin) (pinName_ne_up other) hparent hparent'
  exact hne (pinName_injective hsame.1)

theorem apart_levelFiles {pin other : Nat} (hne : pin ≠ other) :
    tree.Apart (files.levelFile pin) (files.levelFile other) :=
  apart_of_pins (by decide) (by decide) hne

theorem apart_directionFiles {pin other : Nat} (hne : pin ≠ other) :
    tree.Apart (files.directionFile pin) (files.directionFile other) :=
  apart_of_pins (by decide) (by decide) hne

/-! ## Operations on a tree -/

theorem perform_exportPin (pin : Nat) : tree.perform (files.exportPin pin) =
    if tree.pathExists (files.directory pin) then (.ok (), tree)
    else tree.applied
      (tree.write (files.root.child "export") (Text.toBytes (toString pin))) := by
  show tree.perform (if tree.pathExists (files.directory pin) = true then pure (.ok ())
    else FileStore.write _ _) = _
  split <;> rfl

variable {pin other : Nat} {direction : String} {answer : Except IoError Unit}
  {contents : List UInt8}

/-- Nothing is to be done for a pin whose level file exists. -/
theorem exportPin_of_file {found : List String × List UInt8}
    (hfile : tree.file (files.levelFile pin) = .ok found) :
    tree.perform (files.exportPin pin) = (.ok (), tree) := by
  obtain ⟨hlocate, -, -⟩ := FileTree.file_eq_ok_iff.mp hfile
  rw [perform_exportPin, if_pos (FileTree.pathExists_of_locate_child (by decide) hlocate)]

/-- Making sure that a pin has a directory touches one file, which is not that of a pin. -/
theorem exportPin_touches (h : tree.perform (files.exportPin pin) = (answer, tree')) :
    tree.Touches [files.root.child "export"] tree' := by
  rw [perform_exportPin] at h
  split at h
  · cases h
    exact .refl tree _
  · obtain rfl := congrArg Prod.snd h
    exact FileTree.touches_write tree _ _

/-- Choosing a direction touches the file for it. -/
theorem setDirection_touches
    (h : tree.perform (files.setDirection pin direction) = (answer, tree')) :
    tree.Touches [files.directionFile pin] tree' := by
  obtain rfl := congrArg Prod.snd h
  exact FileTree.touches_write tree _ _

/-- A direction that has been chosen is in its file. One that has not leaves the tree as it was. -/
theorem setDirection_cases
    (h : tree.perform (files.setDirection pin direction) = (answer, tree')) :
    (answer = .ok () ∧ tree'.read (files.directionFile pin) = .ok (Text.toBytes direction)) ∨
    (∃ error, answer = .error error ∧ tree.place (files.directionFile pin) = .error error) ∧
      tree' = tree := by
  obtain ⟨location, changed, -, hset, hread⟩ | ⟨error, hplace, hset⟩ :=
    FileTree.applied_write tree (files.directionFile pin) (Text.toBytes direction)
  · cases hset.symm.trans h
    exact .inl ⟨rfl, hread⟩
  · cases hset.symm.trans h
    exact .inr ⟨⟨error, rfl, hplace⟩, rfl⟩

/-- What a direction file holds after a direction has been chosen. -/
theorem read_setDirection (h : tree.perform (files.setDirection pin direction) = (answer, tree'))
    (hread : tree.read (files.directionFile other) = .ok contents) :
    tree'.read (files.directionFile other) =
      .ok (if other = pin then Text.toBytes direction else contents) := by
  by_cases hsame : other = pin
  · subst hsame
    rw [if_pos rfl]
    obtain ⟨location, hfile⟩ := FileTree.read_eq_ok_iff.mp hread
    obtain ⟨-, hchosen⟩ | ⟨⟨error, -, hplace⟩, -⟩ := setDirection_cases h
    · exact hchosen
    · cases hplace.symm.trans (FileTree.place_of_file hfile)
  · rw [if_neg hsame]
    exact (setDirection_touches h).read_of_apart hread
      (List.forall_mem_singleton.mpr (apart_directionFiles (Ne.symm hsame)))

theorem read_exportPin (h : tree.perform (files.exportPin pin) = (answer, tree'))
    (hread : tree.read (files.directionFile other) = .ok contents) :
    tree'.read (files.directionFile other) = .ok contents :=
  (exportPin_touches h).read_of_apart hread (List.forall_mem_singleton.mpr
    (FileTree.apart_of_names (by decide) (by decide) (by decide)))

/-! ## Bringing pins into use -/

/-- The directions that are chosen while pins are brought into use, one after the other, up to the
first failure. -/
def chosen (files : PinFiles) : List (Nat × String) → FileTree → List (Nat × String)
  | [], _ => []
  | (pin, direction) :: rest, tree =>
    match tree.perform (files.exportPin pin) with
    | (.error _, _) => []
    | (.ok _, tree) =>
      match tree.perform (files.setDirection pin direction) with
      | (.error _, _) => []
      | (.ok _, tree) =>
        (pin, direction) ::
          match tree.perform (FileStore.connect (files.levelFile pin)) with
          | (.error _, _) => []
          | (.ok _, tree) => files.chosen rest tree

/-- `Configures files list tree chosen result tree'` says how bringing pins into use goes: which
directions are chosen, what the result is and which tree is left. -/
inductive Configures (files : PinFiles) : List (Nat × String) → FileTree → List (Nat × String) →
    Except IoError Unit → FileTree → Prop where
  | done (tree : FileTree) : Configures files [] tree [] (.ok ()) tree
  | unexported {pin direction rest tree error tree'}
      (hexport : tree.perform (files.exportPin pin) = (.error error, tree')) :
      Configures files ((pin, direction) :: rest) tree [] (.error error) tree'
  | undirected {pin direction rest tree exported error tree'}
      (hexport : tree.perform (files.exportPin pin) = (.ok (), exported))
      (hdirect : exported.perform (files.setDirection pin direction) = (.error error, tree')) :
      Configures files ((pin, direction) :: rest) tree [] (.error error) tree'
  | unconnected {pin direction rest tree exported error tree'}
      (hexport : tree.perform (files.exportPin pin) = (.ok (), exported))
      (hdirect : exported.perform (files.setDirection pin direction) = (.ok (), tree'))
      (hconnect : tree'.file (files.levelFile pin) = .error error) :
      Configures files ((pin, direction) :: rest) tree [(pin, direction)] (.error error) tree'
  | goesOn {pin direction rest tree exported directed chosen result tree'}
      (hexport : tree.perform (files.exportPin pin) = (.ok (), exported))
      (hdirect : exported.perform (files.setDirection pin direction) = (.ok (), directed))
      (hrest : Configures files rest directed chosen result tree') :
      Configures files ((pin, direction) :: rest) tree ((pin, direction) :: chosen) result tree'

/-- Bringing pins into use chooses these directions. -/
theorem configureAll_configures (files : PinFiles) (list : List (Nat × String))
    {tree tree' : FileTree} {result : Except IoError Unit}
    (h : tree.perform (files.configureAll list).run = (result, tree')) :
    Configures files list tree (files.chosen list tree) result tree' := by
  induction list generalizing tree with
  | nil =>
    cases h
    exact .done _
  | cons choice rest ih =>
    obtain ⟨pin, direction⟩ := choice
    rw [configureAll, configure, bind_assoc] at h
    rcases hexport : tree.perform (files.exportPin pin) with ⟨_ | _, exported⟩
    · rw [FileTree.perform_bind_of_error hexport] at h
      cases h
      simp only [chosen, hexport]
      exact .unexported hexport
    rw [FileTree.perform_bind_of_ok hexport, bind_assoc] at h
    rcases hdirect : exported.perform (files.setDirection pin direction) with ⟨_ | _, directed⟩
    · rw [FileTree.perform_bind_of_error hdirect] at h
      cases h
      simp only [chosen, hexport, hdirect]
      exact .undirected hexport hdirect
    rw [FileTree.perform_bind_of_ok hdirect] at h
    rcases hconnect : directed.perform (FileStore.connect (files.levelFile pin)) with
      ⟨_ | _, connected⟩
    -- Connecting changes nothing in the tree.
    all_goals obtain rfl : directed = connected := congrArg Prod.snd hconnect
    · rw [FileTree.perform_bind_of_error hconnect] at h
      cases h
      simp only [chosen, hexport, hdirect, hconnect]
      exact .unconnected hexport hdirect (FileTree.file_of_connect hconnect)
    · rw [FileTree.perform_bind_of_ok hconnect] at h
      simp only [chosen, hexport, hdirect, hconnect]
      exact .goesOn hexport hdirect (ih h)

namespace Configures

variable {list chosen : List (Nat × String)} {result : Except IoError Unit}

theorem directories (h : Configures files list tree chosen result tree') :
    tree.SameDirectories tree' := by
  induction h with
  | done tree => exact .refl tree
  | unexported hexport => exact (exportPin_touches hexport).directories
  | undirected hexport hdirect | unconnected hexport hdirect _ =>
    exact (exportPin_touches hexport).directories.trans (setDirection_touches hdirect).directories
  | goesOn hexport hdirect _ ih =>
    exact ((exportPin_touches hexport).directories.trans
      (setDirection_touches hdirect).directories).trans ih

/-- A direction file keeps what it held if no direction of the pin is chosen. -/
theorem read_of_not_chosen (h : Configures files list tree chosen result tree')
    (hpin : ∀ choice ∈ chosen, choice.1 ≠ pin)
    (hread : tree.read (files.directionFile pin) = .ok contents) :
    tree'.read (files.directionFile pin) = .ok contents := by
  induction h with
  | done tree => exact hread
  | unexported hexport => exact read_exportPin hexport hread
  | undirected hexport hdirect =>
    obtain ⟨⟨⟩, -⟩ | ⟨-, rfl⟩ := setDirection_cases hdirect
    exact read_exportPin hexport hread
  | unconnected hexport hdirect _ =>
    have hother := hpin _ List.mem_cons_self
    rw [read_setDirection hdirect (read_exportPin hexport hread), if_neg (Ne.symm hother)]
  | goesOn hexport hdirect _ ih =>
    obtain ⟨hother, hrest⟩ := List.forall_mem_cons.mp hpin
    refine ih hrest ?_
    rw [read_setDirection hdirect (read_exportPin hexport hread), if_neg (Ne.symm hother)]

/-- A direction file holds the direction of the pin that was chosen last. -/
theorem read_of_chosen (h : Configures files list tree chosen result tree')
    {before later : List (Nat × String)}
    (hchosen : chosen = before ++ (pin, direction) :: later)
    (hlast : ∀ choice ∈ later, choice.1 ≠ pin) :
    tree'.read (files.directionFile pin) = .ok (Text.toBytes direction) := by
  induction h generalizing before with
  | done | unexported | undirected => simp at hchosen
  | unconnected hexport hdirect _ =>
    obtain ⟨-, hread⟩ | ⟨⟨error, ⟨⟩, -⟩, -⟩ := setDirection_cases hdirect
    cases before with
    | nil =>
      cases hchosen
      exact hread
    | cons first before => simp at hchosen
  | goesOn hexport hdirect hrest ih =>
    obtain ⟨-, hread⟩ | ⟨⟨error, ⟨⟩, -⟩, -⟩ := setDirection_cases hdirect
    cases before with
    | nil =>
      cases hchosen
      exact hrest.read_of_not_chosen hlast hread
    | cons first before =>
      exact ih (List.cons.inj hchosen).2

/-- If nothing fails all directions are chosen. -/
theorem chosen_eq (h : Configures files list tree chosen result tree') (hok : result = .ok ()) :
    chosen = list := by
  induction h with
  | done tree => rfl
  | unexported | undirected | unconnected => cases hok
  | goesOn hexport hdirect _ ih => rw [ih hok]

/-- Pins with directories, whose direction files can be written and whose level files exist, are
brought into use by writing the direction files. -/
theorem succeeds (h : Configures files list tree chosen result tree')
    (hplace : ∀ choice ∈ list, ∃ location,
      tree.place (files.directionFile choice.1) = .ok location)
    (hfile : ∀ choice ∈ list, ∃ found, tree.file (files.levelFile choice.1) = .ok found) :
    result = .ok () ∧ tree.Touches (list.map fun choice => files.directionFile choice.1) tree' := by
  induction h with
  | done tree => exact ⟨rfl, .refl tree _⟩
  | unexported hexport =>
    obtain ⟨⟨found, hfound⟩, -⟩ := List.forall_mem_cons.mp hfile
    rw [exportPin_of_file hfound] at hexport
    cases hexport
  | undirected hexport hdirect =>
    obtain ⟨⟨found, hfound⟩, -⟩ := List.forall_mem_cons.mp hfile
    obtain ⟨⟨location, hlocation⟩, -⟩ := List.forall_mem_cons.mp hplace
    rw [exportPin_of_file hfound] at hexport
    cases hexport
    obtain ⟨⟨⟩, -⟩ | ⟨⟨error, -, hfails⟩, -⟩ := setDirection_cases hdirect
    cases hfails.symm.trans hlocation
  | unconnected hexport hdirect hconnect =>
    obtain ⟨⟨found, hfound⟩, -⟩ := List.forall_mem_cons.mp hfile
    rw [exportPin_of_file hfound] at hexport
    cases hexport
    obtain ⟨found', hfound'⟩ := (setDirection_touches hdirect).file hfound
    cases hconnect.symm.trans hfound'
  | goesOn hexport hdirect _ ih =>
    obtain ⟨⟨found, hfound⟩, hfiles⟩ := List.forall_mem_cons.mp hfile
    obtain ⟨-, hplaces⟩ := List.forall_mem_cons.mp hplace
    rw [exportPin_of_file hfound] at hexport
    cases hexport
    have htouches := setDirection_touches hdirect
    obtain ⟨hok, hrest⟩ := ih
      (fun choice hchoice => (hplaces choice hchoice).imp fun _ => htouches.directories.place)
      (fun choice hchoice => (hfiles choice hchoice).elim fun _ => htouches.file)
    exact ⟨hok, (htouches.mono (by simp)).trans (hrest.mono (List.subset_cons_self _ _))⟩

end Configures

/-! ## Taking pins out of use -/

theorem perform_releaseAll_cons (pin : Nat) (pins : List Nat) :
    tree.perform (files.releaseAll (pin :: pins)) =
      (tree.perform (files.setDirection pin "in")).2.perform (files.releaseAll pins) := rfl

/-- Taking pins out of use touches their direction files. -/
theorem releaseAll_touches (files : PinFiles) (pins : List Nat) (tree : FileTree) :
    tree.Touches (pins.map files.directionFile) (tree.perform (files.releaseAll pins)).2 := by
  induction pins generalizing tree with
  | nil => exact .refl tree []
  | cons pin pins ih =>
    rw [perform_releaseAll_cons]
    exact ((setDirection_touches rfl).mono (by simp)).trans
      ((ih _).mono (List.subset_cons_self _ _))

/-- A pin that is an input stays one. -/
theorem read_in_releaseAll (pins : List Nat)
    (hread : tree.read (files.directionFile pin) = .ok (Text.toBytes "in")) :
    (tree.perform (files.releaseAll pins)).2.read (files.directionFile pin) =
      .ok (Text.toBytes "in") := by
  induction pins generalizing tree with
  | nil => exact hread
  | cons other pins ih =>
    rw [perform_releaseAll_cons]
    refine ih ?_
    have hset : (tree.perform (files.setDirection other "in")).2.read
        (files.directionFile pin) = _ := read_setDirection rfl hread
    rwa [ite_self] at hset

/-- A pin becomes an input if its direction file can be written. -/
theorem read_releaseAll {pins : List Nat} (hpin : pin ∈ pins)
    (hplace : tree.place (files.directionFile pin) = .ok location) :
    (tree.perform (files.releaseAll pins)).2.read (files.directionFile pin) =
      .ok (Text.toBytes "in") := by
  induction pins generalizing tree with
  | nil => cases hpin
  | cons first pins ih =>
    rw [perform_releaseAll_cons]
    cases hpin with
    | head =>
      obtain ⟨-, hread⟩ | ⟨⟨error, -, hfails⟩, -⟩ :=
        setDirection_cases (rfl : tree.perform (files.setDirection pin "in") = _)
      · exact read_in_releaseAll pins hread
      · cases hfails.symm.trans hplace
    | tail _ hpin => exact ih hpin ((setDirection_touches rfl).directories.place hplace)

end PinFiles

namespace PinFileBus

open PinFiles

variable {τ : Type} [Clock τ]

/-- A bus with the same pins and a tree with the same directories. -/
structure Keeps (bus bus' : PinFileBus) : Prop where
  root : bus'.files.root = bus.files.root
  pins : bus'.files.pins = bus.files.pins
  directories : bus.tree.SameDirectories bus'.tree

theorem Keeps.refl (bus : PinFileBus) : bus.Keeps bus :=
  ⟨rfl, rfl, .refl bus.tree⟩

theorem Keeps.trans {bus bus' bus'' : PinFileBus} (h : bus.Keeps bus') (h' : bus'.Keeps bus'') :
    bus.Keeps bus'' :=
  ⟨h'.root.trans h.root, h'.pins.trans h.pins, h.directories.trans h'.directories⟩

theorem Keeps.directory_eq {bus bus' : PinFileBus} (h : bus.Keeps bus') (pin : Nat) :
    bus'.files.directory pin = bus.files.directory pin := by
  rw [directory, directory, h.root]

/-- Acquiring the bus brings its pins into use. They stay connected if they were before. -/
theorem acquire_eq (bus : PinFileBus) : Bus.acquire bus =
    let brought := bus.tree.perform (bus.files.configureAll bus.files.directions).run
    let isConnected := brought.1.isOk || bus.files.isConnected
    (brought.1, { files := { bus.files with isConnected }, tree := brought.2 }) := by
  have hacquire : Bus.acquire bus =
      let ((result, files), tree) := bus.tree.perform bus.files.acquire
      (result, { files, tree }) := rfl
  rw [hacquire, PinFiles.acquire, FileTree.perform_bind]
  rcases bus.tree.perform (bus.files.configureAll bus.files.directions).run with ⟨_ | _, tree⟩
  all_goals rfl

theorem isConnected_acquire {bus : PinFileBus} (h : (Bus.acquire bus).1 = .ok ()) :
    (Bus.acquire bus).2.files.isConnected = true := by
  rw [acquire_eq] at h ⊢
  dsimp only at h ⊢
  rw [h]
  rfl

theorem acquire_configures (bus : PinFileBus) :
    Configures bus.files bus.files.directions bus.tree
      (bus.files.chosen bus.files.directions bus.tree) (Bus.acquire bus).1
      (Bus.acquire bus).2.tree := by
  rw [acquire_eq]
  exact configureAll_configures bus.files bus.files.directions rfl

theorem acquire_keeps (bus : PinFileBus) : bus.Keeps (Bus.acquire bus).2 := by
  have hdirectories := (acquire_configures bus).directories
  rw [acquire_eq] at hdirectories ⊢
  exact ⟨rfl, rfl, hdirectories⟩

/-- Releasing the bus touches the direction files. -/
theorem release_touches (bus : PinFileBus) :
    bus.tree.Touches (bus.files.pins.all.map bus.files.directionFile) (Bus.release bus).tree :=
  releaseAll_touches bus.files bus.files.pins.all bus.tree

theorem release_keeps (bus : PinFileBus) : bus.Keeps (Bus.release bus) :=
  ⟨rfl, rfl, (release_touches bus).directories⟩

/-- Driving a line touches its level file, or nothing if it cannot be driven. -/
theorem write_touches (bus : PinFileBus) (line : Line) (level : Bool) :
    (Bus.write line level bus).2.files = bus.files ∧
      bus.tree.Touches [bus.files.levelFile (bus.files.pins.ofLine line)]
        (Bus.write line level bus).2.tree := by
  refine ⟨rfl, ?_⟩
  show bus.tree.Touches _ (bus.tree.perform (bus.files.write line level)).2
  unfold PinFiles.write
  split
  · exact .refl bus.tree _
  · split
    · exact .refl bus.tree _
    · exact FileTree.touches_overwrite bus.tree _ _

/-- Sampling a line changes nothing. -/
theorem read_eq (bus : PinFileBus) (line : Line) : (Bus.read line bus).2 = bus := by
  show { bus with tree := (bus.tree.perform (bus.files.read line)).2 } = bus
  unfold PinFiles.read
  split
  · rfl
  · split <;> rfl

theorem write_keeps (bus : PinFileBus) (line : Line) (level : Bool) :
    bus.Keeps (Bus.write line level bus).2 := by
  obtain ⟨hfiles, htouches⟩ := write_touches bus line level
  exact ⟨congrArg root hfiles, congrArg PinFiles.pins hfiles, htouches.directories⟩

/-- Every call keeps the pins and the directories. -/
theorem answer_keeps (bench : Bench PinFileBus τ) (call : Call) :
    bench.bus.Keeps (bench.answer call).2.bus := by
  cases call with
  | acquire => exact acquire_keeps bench.bus
  | write line level => exact write_keeps bench.bus line level
  | read line => exact (read_eq bench.bus line).symm ▸ .refl bench.bus
  | release => exact release_keeps bench.bus
  | now | wait | note => exact .refl bench.bus

theorem play_keeps {α : Type} (dialogue : Dialogue α) (bench : Bench PinFileBus τ) :
    bench.bus.Keeps (dialogue.play bench).2.bus := by
  induction dialogue generalizing bench with
  | done result => exact .refl bench.bus
  | call c next ih => exact (answer_keeps bench c).trans (ih _ _)

/-- A pin whose direction file can be written is an input after the bus has been released. -/
theorem read_release (bus : PinFileBus) {pin : Nat} (hpin : pin ∈ bus.files.pins.all)
    {location : List String}
    (hplace : bus.tree.place (bus.files.directionFile pin) = .ok location) :
    (Bus.release bus).tree.read (bus.files.directionFile pin) = .ok (Text.toBytes "in") :=
  read_releaseAll hpin hplace

end PinFileBus

end JtagPlayer
