import JtagPlayer.Proofs.Trees
import Mathlib.Data.List.Basic

/-!
# What a change to a file leaves alone

A program that writes to files and overwrites them makes no directory and removes none. So all paths
lead where they led, `FileTree.SameDirectories`, and what can be written once can be written again.
`FileTree.Touches` is what every operation does to the file that a path leads to: what lies anywhere
else is kept.
-/

namespace JtagPlayer

namespace FileTree

variable {tree tree' : FileTree} {path other : Path} {location : List String}

/-! ## Directories -/

/-- The same locations are directories. -/
def SameDirectories (tree tree' : FileTree) : Prop :=
  ∀ location, tree'.node? location = some .directory ↔ tree.node? location = some .directory

namespace SameDirectories

theorem refl (tree : FileTree) : tree.SameDirectories tree := fun _ => Iff.rfl

theorem symm (h : tree.SameDirectories tree') : tree'.SameDirectories tree :=
  fun location => (h location).symm

theorem trans {tree'' : FileTree} (h : tree.SameDirectories tree')
    (h' : tree'.SameDirectories tree'') : tree.SameDirectories tree'' :=
  fun location => (h' location).trans (h location)

/-- Names still lead where they led. -/
theorem follow (h : tree.SameDirectories tree') {place names target : List String}
    (hfollow : tree.follow place names = .ok target) :
    tree'.follow place names = .ok target := by
  induction names generalizing place with
  | nil => exact hfollow
  | cons name names ih =>
    rw [FileTree.follow] at hfollow ⊢
    by_cases hup : name = ".."
    · rw [if_pos hup] at hfollow ⊢
      by_cases hroot : place.isEmpty = true
      · rw [if_pos hroot] at hfollow
        cases hfollow
      · rw [if_neg hroot] at hfollow ⊢
        exact ih hfollow
    · rw [if_neg hup] at hfollow ⊢
      by_cases hlast : names.isEmpty = true
      · rwa [if_pos hlast] at hfollow ⊢
      · rw [if_neg hlast] at hfollow ⊢
        split at hfollow
        · rename_i hdirectory
          rw [(h _).mpr hdirectory]
          exact ih hfollow
        · cases hfollow
        · cases hfollow

theorem locate (h : tree.SameDirectories tree') (hlocate : tree.locate path = .ok location) :
    tree'.locate path = .ok location := by
  unfold FileTree.locate at hlocate ⊢
  split at hlocate
  · cases hlocate
  · rename_i hrelative
    rw [if_neg hrelative]
    exact h.follow hlocate

end SameDirectories

/-- A file can be written where no directory is, unless the path can name a directory only. -/
theorem place_eq_ok_iff : tree.place path = .ok location ↔ tree.locate path = .ok location ∧
    tree.node? location ≠ some .directory ∧ path.isDirectory = false := by
  refine ⟨place_eq_ok, ?_⟩
  rintro ⟨hlocate, hnode, hfile⟩
  rw [FileTree.place, hlocate, hfile]
  cases hfound : tree.node? location with
  | none => simp only [bind, Except.bind, hfound]; rfl
  | some node =>
    cases node with
    | file contents => simp only [bind, Except.bind, hfound]; rfl
    | directory => exact absurd hfound hnode

/-- What can be written once can be written again. -/
theorem SameDirectories.place (h : tree.SameDirectories tree')
    (hplace : tree.place path = .ok location) : tree'.place path = .ok location := by
  obtain ⟨hlocate, hnode, hfile⟩ := place_eq_ok_iff.mp hplace
  exact place_eq_ok_iff.mpr ⟨h.locate hlocate, mt (h location).mp hnode, hfile⟩

/-- A path leads to a file with the given contents. -/
theorem file_eq_ok_iff {contents : List UInt8} : tree.file path = .ok (location, contents) ↔
    tree.locate path = .ok location ∧ tree.node? location = some (.file contents) ∧
      path.isDirectory = false := by
  constructor
  · intro h
    obtain ⟨target, hlocate, hrest⟩ := bind_eq_ok h
    cases hnode : tree.node? target with
    | none =>
      rw [hnode] at hrest
      cases hrest
    | some node =>
      rw [hnode] at hrest
      cases node with
      | directory => cases hrest
      | file held =>
        cases hdirectory : path.isDirectory with
        | true =>
          rw [hdirectory] at hrest
          cases hrest
        | false =>
          rw [hdirectory] at hrest
          cases hrest
          exact ⟨hlocate, hnode, rfl⟩
  · rintro ⟨hlocate, hnode, hfile⟩
    rw [file, hlocate, hfile]
    simp only [bind, Except.bind, hnode]
    rfl

/-- An existing file can be written. -/
theorem place_of_file {contents : List UInt8} (h : tree.file path = .ok (location, contents)) :
    tree.place path = .ok location := by
  obtain ⟨hlocate, hnode, hfile⟩ := file_eq_ok_iff.mp h
  exact place_eq_ok_iff.mpr ⟨hlocate, by rw [hnode]; nofun, hfile⟩

theorem read_eq_ok_iff {contents : List UInt8} : tree.read path = .ok contents ↔
    ∃ location, tree.file path = .ok (location, contents) := by
  rw [read]
  cases hfile : tree.file path with
  | error error => simp [Except.map]
  | ok found => simp [Except.map, Prod.ext_iff]

/-! ## Files in directories -/

/-- A location that lies in directories. -/
def IsReached (tree : FileTree) (location : List String) : Prop :=
  ∀ count, tree.node? (location.take count) = some .directory

/-- Names that lead to a file lead through the directory it is in. -/
theorem follow_concat {place names target : List String} {name : String}
    (hplace : tree.IsReached place) (hname : name ≠ "..")
    (h : tree.follow place (names ++ [name]) = .ok target) :
    ∃ parent, tree.follow place names = .ok parent ∧ tree.node? parent = some .directory ∧
      target = parent ++ [name] := by
  induction names generalizing place with
  | nil =>
    rw [List.nil_append, follow, if_neg hname, if_pos List.isEmpty_nil] at h
    cases h
    have hself := hplace place.length
    rw [List.take_length] at hself
    exact ⟨place, rfl, hself, rfl⟩
  | cons first names ih =>
    rw [List.cons_append, follow] at h
    rw [follow]
    by_cases hup : first = ".."
    · rw [if_pos hup] at h ⊢
      by_cases hroot : place.isEmpty = true
      · rw [if_pos hroot] at h
        cases h
      · rw [if_neg hroot] at h ⊢
        refine ih (fun count => ?_) h
        rw [List.dropLast_eq_take, List.take_take]
        exact hplace _
    · rw [if_neg hup, if_neg (by simp)] at h
      rw [if_neg hup]
      split at h
      · rename_i hdirectory
        have hreached : tree.IsReached (place ++ [first]) := by
          intro count
          by_cases hcount : count ≤ place.length
          · rw [List.take_append_of_le_length hcount]
            exact hplace count
          · rw [List.take_of_length_le (by simp; omega), hdirectory]
        obtain ⟨parent, hparent, hnode, rfl⟩ := ih hreached h
        refine ⟨parent, ?_, hnode, rfl⟩
        split
        · rename_i hlast
          rwa [List.isEmpty_iff.mp hlast] at hparent
        · exact hparent
      · cases h
      · cases h

/-- A path to a file leads through the directory it is in. -/
theorem locate_child {name : String} {target : List String} (hname : name ≠ "..")
    (h : tree.locate (path.child name) = .ok target) :
    ∃ parent, tree.locate path = .ok parent ∧ tree.node? parent = some .directory ∧
      target = parent ++ [name] := by
  unfold locate Path.child at h
  unfold locate
  split at h
  · cases h
  · rename_i hrelative
    rw [if_neg hrelative]
    exact follow_concat (fun count => by rw [List.take_nil]; rfl) hname h

/-- A directory exists if a file in it can be located. -/
theorem pathExists_of_locate_child {name : String} {target : List String} (hname : name ≠ "..")
    (h : tree.locate (path.child name) = .ok target) : tree.pathExists path = true := by
  obtain ⟨parent, hparent, hnode, -⟩ := locate_child hname h
  rw [pathExists, hparent]
  simp only [hnode]

/-- Two paths do not lead to the same place. -/
def Apart (tree : FileTree) (path other : Path) : Prop :=
  ∀ location, tree.locate path = .ok location → tree.locate other ≠ .ok location

/-- Paths to files lead to the same place only by the same name and from the same directory. -/
theorem locate_child_inj {name name' : String} (hname : name ≠ "..") (hname' : name' ≠ "..")
    (h : tree.locate (path.child name) = .ok location)
    (h' : tree.locate (other.child name') = .ok location) :
    name = name' ∧ ∃ parent, tree.locate path = .ok parent ∧ tree.locate other = .ok parent := by
  obtain ⟨parent, hparent, -, rfl⟩ := locate_child hname h
  obtain ⟨parent', hparent', -, hsame⟩ := locate_child hname' h'
  obtain ⟨rfl, hnames⟩ := List.append_inj' hsame rfl
  exact ⟨List.singleton_injective hnames, parent, hparent, hparent'⟩

theorem apart_of_names {name name' : String} (hname : name ≠ "..") (hname' : name' ≠ "..")
    (hne : name ≠ name') : tree.Apart (path.child name) (other.child name') :=
  fun _ h h' => hne (locate_child_inj hname hname' h h').1

/-! ## Changes -/

/-- At most the files that some paths lead to have been created or given other contents. -/
structure Touches (tree : FileTree) (paths : List Path) (tree' : FileTree) : Prop where
  directories : tree.SameDirectories tree'
  /-- Nothing has been removed. -/
  exists_of_exists : ∀ {location}, tree.node? location ≠ none → tree'.node? location ≠ none
  elsewhere : ∀ {location}, (∀ path ∈ paths, tree.locate path ≠ .ok location) →
    tree'.node? location = tree.node? location

namespace Touches

variable {paths : List Path}

theorem refl (tree : FileTree) (paths : List Path) : tree.Touches paths tree :=
  ⟨.refl tree, id, fun _ => rfl⟩

/-- One change after the other. -/
theorem trans {tree'' : FileTree} (h : tree.Touches paths tree') (h' : tree'.Touches paths tree'') :
    tree.Touches paths tree'' where
  directories := h.directories.trans h'.directories
  exists_of_exists := h'.exists_of_exists ∘ h.exists_of_exists
  elsewhere hother := by
    rw [h'.elsewhere, h.elsewhere hother]
    exact fun path hpath hlocate => hother path hpath (h.directories.symm.locate hlocate)

theorem mono {paths' : List Path} (h : tree.Touches paths tree') (hpaths : paths ⊆ paths') :
    tree.Touches paths' tree' :=
  { h with elsewhere := fun hother => h.elsewhere fun path hpath => hother path (hpaths hpath) }

/-- A file is put where a path leads. -/
theorem put (hplace : tree.place path = .ok location) (contents : List UInt8) :
    tree.Touches [path] (tree.put location (.file contents)) := by
  obtain ⟨hlocate, hnode, -⟩ := place_eq_ok hplace
  have hroot : location ≠ [] := by
    rintro rfl
    exact hnode rfl
  refine ⟨fun other => ?_, fun {other} hother => ?_, fun {other} hother => ?_⟩
  · rw [node?_put tree hroot]
    split
    · rename_i hsame
      simp [hsame, hnode]
    · rfl
  · rw [node?_put tree hroot]
    split
    · nofun
    · exact hother
  · rw [node?_put tree hroot, if_neg]
    rintro rfl
    exact hother path List.mem_cons_self hlocate

/-- A file elsewhere has the contents it had. -/
theorem read_of_apart (h : tree.Touches paths tree') {contents : List UInt8}
    (hread : tree.read other = .ok contents) (hapart : ∀ path ∈ paths, tree.Apart path other) :
    tree'.read other = .ok contents := by
  obtain ⟨target, hfile⟩ := read_eq_ok_iff.mp hread
  obtain ⟨hlocate, hnode, hplain⟩ := file_eq_ok_iff.mp hfile
  refine read_eq_ok_iff.mpr ⟨target, file_eq_ok_iff.mpr ⟨?_, ?_, hplain⟩⟩
  · exact h.directories.locate hlocate
  · rw [h.elsewhere fun path hpath hsame => hapart path hpath target hsame hlocate, hnode]

/-- A file is still one. -/
theorem file (h : tree.Touches paths tree') {found : List String × List UInt8}
    (hfile : tree.file other = .ok found) : ∃ found, tree'.file other = .ok found := by
  obtain ⟨target, contents⟩ := found
  obtain ⟨hlocate, hnode, hplain⟩ := file_eq_ok_iff.mp hfile
  have hexists : tree'.node? target ≠ none := h.exists_of_exists (by rw [hnode]; nofun)
  have hdirectory : tree'.node? target ≠ some .directory :=
    mt (h.directories target).mp (by rw [hnode]; nofun)
  cases hnode' : tree'.node? target with
  | none => exact absurd hnode' hexists
  | some node =>
    cases node with
    | directory => exact absurd hnode' hdirectory
    | file contents =>
      exact ⟨_, file_eq_ok_iff.mpr ⟨h.directories.locate hlocate, hnode', hplain⟩⟩

end Touches

theorem touches_write (tree : FileTree) (path : Path) (contents : List UInt8) :
    tree.Touches [path] (tree.applied (tree.write path contents)).2 := by
  cases hplace : tree.place path with
  | error error =>
    rw [write, hplace]
    exact .refl tree [path]
  | ok location =>
    rw [write, hplace]
    exact .put hplace contents

theorem touches_overwrite (tree : FileTree) (path : Path) (start : List UInt8) :
    tree.Touches [path] (tree.applied (tree.overwrite path start)).2 := by
  cases hfile : tree.file path with
  | error error =>
    rw [overwrite, hfile]
    exact .refl tree [path]
  | ok found =>
    rw [overwrite, hfile]
    exact .put (place_of_file hfile) _

/-- A file can be written exactly if there is a place for it, and then it is read back. -/
theorem applied_write (tree : FileTree) (path : Path) (contents : List UInt8) :
    (∃ location tree', tree.place path = .ok location ∧
      tree.applied (tree.write path contents) = (.ok (), tree') ∧
      tree'.read path = .ok contents) ∨
    ∃ error, tree.place path = .error error ∧
      tree.applied (tree.write path contents) = (.error error, tree) := by
  cases hplace : tree.place path with
  | error error =>
    refine .inr ⟨error, rfl, ?_⟩
    rw [write, hplace]
    rfl
  | ok location =>
    refine .inl ⟨location, _, rfl, ?_, read_put hplace contents⟩
    rw [write, hplace]
    rfl

/-- An existing file can be overwritten, and goes on after its new beginning as before. -/
theorem applied_overwrite {contents : List UInt8} (hread : tree.read path = .ok contents)
    (start : List UInt8) : ∃ tree', tree.applied (tree.overwrite path start) = (.ok (), tree') ∧
      tree'.read path = .ok (start ++ contents.drop start.length) := by
  obtain ⟨location, hfile⟩ := read_eq_ok_iff.mp hread
  refine ⟨_, ?_, read_put (place_of_file hfile) _⟩
  rw [overwrite, hfile]
  rfl

/-! ## Operations -/

/-- The result of an operation on a tree, and the tree after it. -/
abbrev perform {α : Type} (tree : FileTree) (operation : StateM FileTree α) : α × FileTree :=
  operation.run tree

/-- What cannot be connected to is not a file. -/
theorem file_of_connect {error : IoError}
    (h : tree.perform (FileStore.connect path) = (.error error, tree')) :
    tree.file path = .error error := by
  have hanswer : ((tree.file path).map fun _ => ()) = .error error := congrArg Prod.fst h
  cases hfile : tree.file path with
  | error error =>
    rw [hfile] at hanswer
    cases hanswer
    rfl
  | ok found =>
    rw [hfile] at hanswer
    cases hanswer

section Steps

variable {α γ : Type}

theorem perform_bind (tree : FileTree) (operation : StateM FileTree α)
    (next : α → StateM FileTree γ) : tree.perform (operation >>= next) =
      (tree.perform operation).2.perform (next (tree.perform operation).1) := rfl

variable {operation : StateM FileTree (Except IoError α)}
  {next : α → ExceptT IoError (StateM FileTree) γ}

/-- After an operation that succeeds the next one is performed. -/
theorem perform_bind_of_ok {x : α} (h : tree.perform operation = (.ok x, tree')) :
    tree.perform (ExceptT.mk operation >>= next).run = tree'.perform (next x).run := by
  rw [ExceptT.run_bind, ExceptT.run_mk, perform_bind, h]

/-- Nothing is performed after an operation that fails. -/
theorem perform_bind_of_error {error : IoError}
    (h : tree.perform operation = (.error error, tree')) :
    tree.perform (ExceptT.mk operation >>= next).run = (.error error, tree') := by
  rw [ExceptT.run_bind, ExceptT.run_mk, perform_bind, h]
  rfl

end Steps

end FileTree

end JtagPlayer
