import BoundedMemory.Cursor
import BoundedMemory.Stream.Window

/-!
Handles written out for inspection: the name of each structure with its fields,
nested as they are. Addresses, keys and identifiers differ from run to run and
are hidden.
-/

namespace BoundedMemory.Inspect

/-- Stands for a value that is not shown. -/
def hidden : String := "#"

def record (name : String) (fields : List (String × String)) : String :=
  let shown := fields.map fun (field, value) => field ++ ": " ++ value
  name ++ " \x7b " ++ ", ".intercalate shown ++ " \x7d"

def tagged (name value : String) : String := name ++ "(" ++ value ++ ")"

def flag (b : Bool) : String := if b then "true" else "false"

def list (values : List String) : String := "[" ++ ", ".intercalate values ++ "]"

def permit (p : Permit) : String :=
  let names := match p with
    | ⟨true, true⟩ => "READ | WRITE"
    | ⟨true, false⟩ => "READ"
    | ⟨false, true⟩ => "WRITE"
    | ⟨false, false⟩ => "0x0"
  tagged "Permissions" names

def byteOrder : ByteOrder → String
  | .bigEndian => "BigEndian"
  | .littleEndian => "LittleEndian"

def root (r : Root) : String :=
  let length := ("len", toString r.length)
  let valid := ("valid", flag r.isValid)
  match r.backing with
  | .array _ =>
      tagged "Array" (record "ArraySource" [("base", toString r.base), length, valid])
  | .heap _ =>
      tagged "Native" (record "NativeMemorySource" [("ptr", hidden), length, valid])
  | .buffer _ _ =>
      tagged "External" (record "ExternalBufferSource" [("ptr", hidden), length, valid])
  | .segment a =>
      tagged "Shared" (record "SharedSegmentSource" [
        ("key", hidden), ("id", hidden), ("ptr", hidden), length,
        ("destroy_on_release", flag a.destroyOnRelease), valid])

def kind : Region.Kind → String
  | .readOnly => "ReadOnly"
  | .root | .slice => "Slice"

def region (s : Store) (r : Region) : String :=
  let whole := ((s.roots[r.root]?).map root).getD hidden
  if r.isView then
    tagged "View" (record "SourceView" [
      ("parent", whole), ("base", toString r.base), ("length", toString r.length),
      ("permissions", permit r.permit), ("kind", kind r.kind)])
  else whole

def mark (m : Cursor.Mark) : String :=
  record "CursorState" [
    ("position", toString m.position), ("limit", toString m.limit),
    ("order", byteOrder m.order)]

def cursor (s : Store) (c : Cursor) : String :=
  record "Cursor" [
    ("source", region s c.region), ("state", mark c.mark),
    ("stack", list (c.saved.reverse.map mark))]

def window (s : Store) (w : Window) : String :=
  record "Window" [
    ("source", region s w.region), ("start", toString w.start), ("end", toString w.stop),
    ("offset", toString w.offset)]

def reader (s : Store) (w : Window) : String :=
  record "SourceReader" [("window", window s w)]

def writer (s : Store) (w : Window) : String :=
  record "SourceWriter" [("window", window s w)]

def buffer (b : Buffer) : String :=
  record "PageBuffer" [
    ("ptr", hidden), ("len", toString b.length), ("capacity", toString b.capacity)]

end BoundedMemory.Inspect
