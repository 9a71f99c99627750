import BoundedMemory.Segment.FileTree

/-!
Keys that name shared segments. A key is chosen by a program, or derived from
a file and a project number; equal files and projects give equal keys. The
anonymous key names nothing: each use of it makes a segment of its own.
-/

namespace BoundedMemory

inductive SegmentKey where
  | anonymous
  | named (name : String)
  | ofFile (file : FileId) (project : UInt8)
  deriving DecidableEq, Repr

namespace SegmentKey

/-- The number of bytes before the first NUL of a path. -/
def nulPosition? (path : String) : Option Nat :=
  if path.toList.contains '\x00' then
    some (String.ofList (path.toList.takeWhile (· ≠ '\x00'))).utf8ByteSize
  else none

/-- The file behind a path, or why no key can be derived from it. -/
def fileOf (tree : FileTree) (path : String) : Except Fault FileId :=
  match nulPosition? path with
  | some position =>
      .error (.system "ftok" (.other s!"nul byte found in provided data at position: {position}"))
  | none =>
      match tree.locate path with
      | .ok file => .ok file
      | .error e => .error (.os "ftok" e)

def derive (tree : FileTree) (path : String) (project : UInt8) : Except Fault SegmentKey :=
  (fileOf tree path).map (.ofFile · project)

end SegmentKey

end BoundedMemory
