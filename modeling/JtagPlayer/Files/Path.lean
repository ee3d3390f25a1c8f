/-!
# Paths

A `Path` names a file by the directories that lead to it and its own name. Its text separates the
names by slashes; empty names and single dots in it lead nowhere, but one of them at the end says
that the path names a directory.
-/

namespace JtagPlayer

/-- A path, relative to the working directory unless it is absolute. -/
structure Path where
  isAbsolute : Bool := false
  names : List String := []
  /-- Whether the path can name a directory only. -/
  isDirectory : Bool := false
  deriving DecidableEq, Inhabited

namespace Path

/-- The parts of a text between its slashes. -/
def splitAtSlashes : List Char → List (List Char)
  | [] => [[]]
  | c :: cs =>
    match splitAtSlashes cs with
    | [] => [[c]]
    | part :: parts => if c = '/' then [] :: part :: parts else (c :: part) :: parts

/-- Whether a part of a text leads nowhere. -/
def isIdle (part : String) : Bool :=
  part == "" || part == "."

/-- The path with a given text. -/
def ofText (text : String) : Path :=
  let parts := (splitAtSlashes text.toList).map String.ofList
  { isAbsolute := text.startsWith "/"
    names := parts.filter (!isIdle ·)
    isDirectory := parts.getLast?.any isIdle }

/-- The text of a path. -/
def text (path : Path) : String :=
  let start := if path.isAbsolute then "/" else "./"
  start ++ String.intercalate "/" path.names ++ (if path.isDirectory then "/" else "")

/-- The file with a given name in a directory. -/
def child (path : Path) (name : String) : Path :=
  { path with names := path.names ++ [name], isDirectory := false }

end Path

end JtagPlayer
