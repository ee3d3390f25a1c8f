import JtagPlayer.Bus.Line
import JtagPlayer.Files.Path

/-!
# File stores

A `FileStore` is what a program needs of a file system: to ask for a file, to read it, to put
contents into it, and to overwrite its beginning. A `FileTree` is such a store: a working directory
with the files and directories in it, as a value.

Every operation on a tree first looks up where the path leads. All directories on the way must
exist.
-/

namespace JtagPlayer

/-- A file system, as an effect. -/
class FileStore (m : Type → Type) where
  /-- Whether a path leads to a file or directory. -/
  pathExists : Path → m Bool
  /-- The contents of a file. -/
  read : Path → m (Except IoError (List UInt8))
  /-- Creates a file with the given contents, or replaces the contents of an existing one. -/
  write : Path → List UInt8 → m (Except IoError Unit)
  /-- Checks that an existing file can be read and changed. -/
  connect : Path → m (Except IoError Unit)
  /-- Overwrites the beginning of an existing file and leaves the rest. -/
  overwrite : Path → List UInt8 → m (Except IoError Unit)

namespace IoError

/-- There is no such file. -/
def notFound : IoError where
  kind := .notFound
  message := "No such file or directory (os error 2)"

/-- A file stands where a directory should be. -/
def notADirectory : IoError where
  kind := .notADirectory
  message := "Not a directory (os error 20)"

/-- A directory stands where a file should be. -/
def isADirectory : IoError where
  kind := .isADirectory
  message := "Is a directory (os error 21)"

end IoError

/-- What a name in a directory stands for. -/
inductive FileNode where
  | file (contents : List UInt8)
  | directory
  deriving DecidableEq, Inhabited

/-- A working directory. Each entry lies in directories that are entries as well. -/
structure FileTree where
  entries : List (List String × FileNode) := []
  deriving DecidableEq, Inhabited

namespace FileTree

/-- What lies at a location. -/
def node? (tree : FileTree) (location : List String) : Option FileNode :=
  if location.isEmpty then some .directory else tree.entries.lookup location

/-- Replaces the node of an entry, or adds an entry at the end. -/
def replaceOrAdd (location : List String) (node : FileNode) :
    List (List String × FileNode) → List (List String × FileNode)
  | [] => [(location, node)]
  | entry :: entries =>
    if entry.1 = location then (location, node) :: entries
    else entry :: replaceOrAdd location node entries

/-- Puts a node at a location. -/
def put (tree : FileTree) (location : List String) (node : FileNode) : FileTree where
  entries := replaceOrAdd location node tree.entries

/-- Adds the directories on the way to a location that do not exist yet. -/
def addParents (tree : FileTree) (location : List String) : FileTree :=
  (List.range location.length).foldl (fun tree length =>
    let place := location.take length
    if (tree.node? place).isSome then tree else tree.put place .directory) tree

/-- Adds a node and the directories on the way to it. -/
def add (tree : FileTree) (location : List String) (node : FileNode) : FileTree :=
  (tree.addParents location).put location node

/-- Where names lead from a directory. The last of them need not exist. Two dots lead to the
directory above, but not out of the tree. -/
def follow (tree : FileTree) (place : List String) : List String → Except IoError (List String)
  | [] => .ok place
  | name :: names =>
    if name = ".." then
      if place.isEmpty then .error .notFound else tree.follow place.dropLast names
    else if names.isEmpty then .ok (place ++ [name])
    else
      match tree.node? (place ++ [name]) with
      | some .directory => tree.follow (place ++ [name]) names
      | some (.file _) => .error .notADirectory
      | none => .error .notFound

/-- Where a path leads. Nothing outside the working directory is known. -/
def locate (tree : FileTree) (path : Path) : Except IoError (List String) :=
  if path.isAbsolute then .error .notFound else tree.follow [] path.names

/-- The location and the contents of an existing file. -/
def file (tree : FileTree) (path : Path) : Except IoError (List String × List UInt8) := do
  let location ← tree.locate path
  match tree.node? location with
  | some (.file contents) =>
    if path.isDirectory then throw .notADirectory else return (location, contents)
  | some .directory => throw .isADirectory
  | none => throw .notFound

/-- The location of a file that exists or can be created. -/
def place (tree : FileTree) (path : Path) : Except IoError (List String) := do
  let location ← tree.locate path
  match tree.node? location with
  | some (.file _) => if path.isDirectory then throw .notADirectory else return location
  | some .directory => throw .isADirectory
  -- A file is not created by a path that can name a directory only.
  | none => if path.isDirectory then throw .isADirectory else return location

/-- Whether a path leads to a file or directory. -/
def pathExists (tree : FileTree) (path : Path) : Bool :=
  match tree.locate path with
  | .ok location =>
    match tree.node? location with
    | some (.file _) => !path.isDirectory
    | some .directory => true
    | none => false
  | .error _ => false

/-- The contents of a file. -/
def read (tree : FileTree) (path : Path) : Except IoError (List UInt8) :=
  (tree.file path).map Prod.snd

/-- Creates a file or replaces its contents. -/
def write (tree : FileTree) (path : Path) (contents : List UInt8) : Except IoError FileTree :=
  (tree.place path).map fun location => tree.put location (.file contents)

/-- Overwrites the beginning of a file. -/
def overwrite (tree : FileTree) (path : Path) (start : List UInt8) : Except IoError FileTree :=
  (tree.file path).map fun (location, contents) =>
    tree.put location (.file (start ++ contents.drop start.length))

/-- The result of a change, and the tree after it. A failed change leaves the tree as it was. -/
def applied (tree : FileTree) : Except IoError FileTree → Except IoError Unit × FileTree
  | .ok changed => (.ok (), changed)
  | .error error => (.error error, tree)

instance : FileStore (StateM FileTree) where
  pathExists path := fun tree => (tree.pathExists path, tree)
  read path := fun tree => (tree.read path, tree)
  write path contents := fun tree => tree.applied (tree.write path contents)
  connect path := fun tree => ((tree.file path).map fun _ => (), tree)
  overwrite path start := fun tree => tree.applied (tree.overwrite path start)

end FileTree

end JtagPlayer
