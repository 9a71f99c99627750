import BoundedMemory.Fault

/-!
Files, as far as the keys of shared segments depend on them: which paths lead
to a file, to which one, and why the others do not. Some places are links, which
stand for another place wherever they occur in a path.
-/

namespace BoundedMemory

/-- What tells one file from another. -/
inductive FileId where
  /-- A file made for the occasion under a label. -/
  | temporary (label : String)
  /-- The file with these components below the root directory. -/
  | located (path : List String)
  deriving DecidableEq, Repr

structure FileTree where
  directories : List (List String)
  files : List (List String)
  /-- Places that stand for others, with those others. -/
  links : List (List String × List String)
  /-- Where paths that do not begin at the root start. -/
  home : List String

namespace FileTree

def isFile (tree : FileTree) (path : List String) : Bool := tree.files.contains path

def isDirectory (tree : FileTree) (path : List String) : Bool :=
  path.isEmpty || path = tree.home || tree.directories.contains path

def contains (tree : FileTree) (path : List String) : Bool :=
  tree.isFile path || tree.isDirectory path

/-- The longest name and the longest path, in bytes. -/
def longestName : Nat := 255
def longestPath : Nat := 4095

/-- How many links one path may go through. -/
def mostLinks : Nat := 40

/-- Follows the components of a path from `here`, through at most `links` links. -/
def walk (tree : FileTree) (links : Nat) (here components : List String) :
    Except OsError FileId :=
  match components with
  | [] => .ok (.located here)
  | name :: rest =>
      if tree.isFile here then .error .notDirectory
      else if name = "" ∨ name = "." then tree.walk links here rest
      else if name = ".." then tree.walk links here.dropLast rest
      else if longestName < name.utf8ByteSize then .error .nameTooLong
      else
        let next := here ++ [name]
        match tree.links.lookup next with
        | some target =>
            match links with
            | 0 => .error .tooManyLinks
            | links + 1 => tree.walk links [] (target ++ rest)
        | none => if tree.contains next then tree.walk links next rest else .error .notFound
termination_by (links, components.length)

/-- The file that a path without NUL leads to. -/
def locate (tree : FileTree) (path : String) : Except OsError FileId :=
  if path = "" then .error .notFound
  else if longestPath < path.utf8ByteSize then .error .nameTooLong
  else
    let start := if path.startsWith "/" then [] else tree.home
    tree.walk mostLinks start (path.splitOn "/")

/-- No files at all. -/
def bare : FileTree := { directories := [], files := [], links := [], home := [] }

end FileTree

end BoundedMemory
