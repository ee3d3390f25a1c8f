import JtagPlayer.Files.Store
import JtagPlayer.Proofs.Merging

/-!
# What a write does to a tree

Putting a node at a location changes what lies there and nothing else. A path that leads to the
location still does afterwards, since the directories on its way are other entries. So what is
written to a file is read from it: `FileTree.read_of_write`.
-/

namespace JtagPlayer

namespace FileTree

variable {tree : FileTree} {location : List String}

/-- The first entry for a location counts. -/
theorem lookup_entry (place other : List String) (node : FileNode)
    (entries : List (List String × FileNode)) :
    ((place, node) :: entries).lookup other =
      if other = place then some node else entries.lookup other := by
  by_cases hother : other = place
  · subst hother
    simp
  · have hne : (other == place) = false := beq_false_of_ne hother
    rw [List.lookup_cons, hne, if_neg hother]

/-- The entry that was replaced or added is found, and the others are found as before. -/
theorem lookup_replaceOrAdd (location other : List String) (node : FileNode)
    (entries : List (List String × FileNode)) :
    (replaceOrAdd location node entries).lookup other =
      if other = location then some node else entries.lookup other := by
  induction entries with
  | nil => exact lookup_entry location other node []
  | cons entry entries ih =>
    obtain ⟨place, held⟩ := entry
    rw [replaceOrAdd]
    by_cases hplace : place = location
    · rw [if_pos hplace, lookup_entry, lookup_entry, hplace]
      split <;> rfl
    · rw [if_neg hplace, lookup_entry, lookup_entry, ih]
      by_cases hother : other = place
      · rw [if_pos hother, if_pos hother, if_neg (hother ▸ hplace)]
      · rw [if_neg hother, if_neg hother]

/-- What lies at a location after a node has been put somewhere below the working directory. -/
theorem node?_put (tree : FileTree) (hlocation : location ≠ []) (node : FileNode)
    (other : List String) :
    (tree.put location node).node? other =
      if other = location then some node else tree.node? other := by
  rw [node?, node?, put, lookup_replaceOrAdd]
  cases other with
  | nil => simp [Ne.symm hlocation]
  | cons name names => simp

/-- Names still lead where they led, if no directory on their way is replaced. -/
theorem follow_put (hlocation : location ≠ []) (hnode : tree.node? location ≠ some .directory)
    (node : FileNode) {place names target : List String}
    (h : tree.follow place names = .ok target) :
    (tree.put location node).follow place names = .ok target := by
  induction names generalizing place with
  | nil => exact h
  | cons name names ih =>
    rw [follow] at h ⊢
    by_cases hup : name = ".."
    · rw [if_pos hup] at h ⊢
      by_cases hroot : place.isEmpty = true
      · rw [if_pos hroot] at h
        cases h
      · rw [if_neg hroot] at h ⊢
        exact ih h
    · rw [if_neg hup] at h ⊢
      by_cases hlast : names.isEmpty = true
      · rwa [if_pos hlast] at h ⊢
      · rw [if_neg hlast] at h ⊢
        split at h
        · rename_i hdirectory
          have hother : place ++ [name] ≠ location := by
            rintro rfl
            exact hnode hdirectory
          rw [node?_put tree hlocation, if_neg hother, hdirectory]
          exact ih h
        · cases h
        · cases h

/-- No directory lies at the location of a file that exists or can be created. -/
theorem place_eq_ok {path : Path} (h : tree.place path = .ok location) :
    tree.locate path = .ok location ∧ tree.node? location ≠ some .directory ∧
      path.isDirectory = false := by
  obtain ⟨target, hlocate, hrest⟩ := bind_eq_ok h
  cases hdirectory : path.isDirectory with
  | true =>
    rw [hdirectory] at hrest
    split at hrest <;> cases hrest
  | false =>
    rw [hdirectory] at hrest
    cases hnode : tree.node? target with
    | none =>
      rw [hnode] at hrest
      cases hrest
      exact ⟨hlocate, by rw [hnode]; nofun, rfl⟩
    | some node =>
      rw [hnode] at hrest
      cases node with
      | directory => cases hrest
      | file contents =>
        cases hrest
        exact ⟨hlocate, by rw [hnode]; nofun, rfl⟩

/-- A path still leads to the location of a file that is put there. -/
theorem locate_put {path : Path} (hlocate : tree.locate path = .ok location)
    (hlocation : location ≠ []) (hnode : tree.node? location ≠ some .directory) (node : FileNode) :
    (tree.put location node).locate path = .ok location := by
  unfold locate at hlocate ⊢
  split at hlocate
  · cases hlocate
  · rename_i hrelative
    rw [if_neg hrelative]
    exact follow_put hlocation hnode node hlocate

/-- What is put where a path leads is read from there. -/
theorem read_put {path : Path} (h : tree.place path = .ok location) (contents : List UInt8) :
    (tree.put location (.file contents)).read path = .ok contents := by
  obtain ⟨hlocate, hnode, hfile⟩ := place_eq_ok h
  have hroot : location ≠ [] := by
    rintro rfl
    exact hnode rfl
  have hfound := tree.node?_put hroot (.file contents) location
  rw [if_pos rfl] at hfound
  rw [read, file, locate_put hlocate hroot hnode]
  simp only [bind, Except.bind, hfound, hfile]
  rfl

/-- What is written to a file is read from it. -/
theorem read_of_write {path : Path} {contents : List UInt8} {changed : FileTree}
    (h : tree.write path contents = .ok changed) : changed.read path = .ok contents := by
  cases hplace : tree.place path with
  | error error =>
    rw [write, hplace] at h
    cases h
  | ok location =>
    rw [write, hplace] at h
    cases h
    exact read_put hplace contents

end FileTree

end JtagPlayer
