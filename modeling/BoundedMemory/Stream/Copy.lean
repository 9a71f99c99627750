import BoundedMemory.Stream.Reader
import BoundedMemory.Stream.Writer

/-!
Copying one stream to another in chunks: read a chunk, stop at the end, write
all of it. A chunk that cannot be written has been read all the same.
-/

namespace BoundedMemory.Stream

structure Copying where
  store : Store
  source : Window
  target : Window

abbrev Copying.Act (α : Type) := Operation StreamFault Copying α

variable {α : Type}

def onSource (x : Window.Act StreamFault α) : Copying.Act α := fun c =>
  match x (c.store, c.source) with
  | .ok a (store, source) => .ok a { c with store, source }
  | .error e (store, source) => .error e { c with store, source }

def onTarget (x : Window.Act StreamFault α) : Copying.Act α := fun c =>
  match x (c.store, c.target) with
  | .ok a (store, target) => .ok a { c with store, target }
  | .error e (store, target) => .error e { c with store, target }

/-- At most `rounds` rounds; round `i` asks for `chunk i` bytes. Tells how many
bytes went over. -/
def copyRounds (chunk : Nat → Nat) : (rounds i copied : Nat) → Copying.Act Nat
  | 0, _, copied => pure copied
  | rounds + 1, i, copied => do
      let bytes ← onSource (Operation.mapFault .access (Reader.read (chunk i)))
      if bytes.isEmpty then pure copied
      else
        onTarget (Writer.writeAll bytes)
        copyRounds chunk rounds (i + 1) (copied + bytes.length)

/-- Copies the rest of the source in chunks of the given sizes. Every round but
the last takes at least a byte, which bounds their number. -/
def copyChunked (chunk : Nat → Nat) : Copying.Act Nat := do
  copyRounds chunk ((← get).source.available + 1) 0 0

def chunkSize : Nat := 8192

def copy : Copying.Act Nat := copyChunked fun _ => chunkSize

end BoundedMemory.Stream
