import BoundedMemory.Region.Access
import BoundedMemory.Stream.Window

/-!
Writing forward through a window. A write that does not fit in what is left is
refused as a whole, before the region is asked.
-/

namespace BoundedMemory.Writer

/-- Writes all of `bytes` or nothing. -/
def write (bytes : Bytes) : Window.Act Fault Unit := do
  let w ← Window.current
  if w.available < bytes.length then
    Operation.refuse (.capacityExceeded bytes.length w.available)
  Operation.onFirst (w.region.writeBytes w.offset bytes)
  Window.moveOn bytes.length

def writeByte (byte : UInt8) : Window.Act Fault Unit := write [byte]

/-- One write of a stream, which takes everything or fails. -/
def writeSome (bytes : Bytes) : Window.Act StreamFault Nat := do
  Operation.mapFault .access (write bytes)
  pure bytes.length

/-- Writes everything; with nothing to write the window is not even asked. -/
def writeAll (bytes : Bytes) : Window.Act StreamFault Unit := do
  if !bytes.isEmpty then Operation.mapFault .access (write bytes)

/-- Nothing is held back, so there is nothing to flush. -/
def flush : Window.Act StreamFault Unit := pure ()

end BoundedMemory.Writer
