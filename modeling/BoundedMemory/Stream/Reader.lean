import BoundedMemory.Region.Access
import BoundedMemory.Stream.Window

/-!
Reading forward through a window. A read is cut off at the end of the window
and gives nothing there; only where there is something to read does it ask the
region.
-/

namespace BoundedMemory.Reader

def read (n : Nat) : Window.Act Fault Bytes := do
  let w ← Window.current
  let count := min n w.available
  if count = 0 then pure []
  else
    let bytes ← Operation.onFirst (w.region.readBytes w.offset count)
    Window.moveOn count
    pure bytes

/-- Reads into the front of `buffer` and tells how many bytes it took. -/
def readInto (buffer : Bytes) : Window.Act Fault (Nat × Bytes) := do
  let bytes ← read buffer.length
  pure (bytes.length, bytes ++ buffer.drop bytes.length)

/-- Reads one byte; none at the end. -/
def readByte : Window.Act Fault (Option UInt8) := do
  let bytes ← read 1
  pure bytes.head?

/-- Reads exactly `n` bytes. Where fewer are left they are consumed all the same. -/
def readExact (n : Nat) : Window.Act StreamFault Bytes := do
  let bytes ← Operation.mapFault .access (read n)
  if bytes.length < n then Operation.refuse .unexpectedEnd
  pure bytes

def readToEnd : Window.Act StreamFault Bytes := do
  let w ← Window.current
  Operation.mapFault .access (read w.available)

def readText : Window.Act StreamFault String := do
  let bytes ← readToEnd
  match String.fromUTF8? ⟨bytes.toArray⟩ with
  | some text => pure text
  | none => Operation.refuse .notText

end BoundedMemory.Reader
