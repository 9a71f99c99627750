import BoundedMemory.Region

/-!
Reading and writing through regions. Every operation first settles the length
of the transfer, then validates, and only then touches memory; a transfer of
nothing is validated all the same and touches none.
-/

namespace BoundedMemory.Region

variable {t : ScalarType}

/-- The raw contents of a range of the region, with the route its root takes. -/
def fetch (r : Region) (offset n : Nat) : Action Store (Route × Bytes) := do
  let s ← get
  let inner ← Word.add? r.base offset
  let (root, start) ← s.place? r.root inner n
  let bytes ← s.read? root.block start n
  pure (root.backing.route, bytes)

/-- Replaces the raw contents of a range of the region. -/
def replace (r : Region) (offset : Nat) (bytes : Bytes) : Action Store Unit := do
  let s ← get
  let inner ← Word.add? r.base offset
  let (root, start) ← s.place? r.root inner bytes.length
  let after ← s.write? root.block start bytes
  set after

/-- The `count` scalars at `offset`, unchecked. -/
def loadAll (r : Region) (t : ScalarType) (order : ByteOrder) (offset count : Nat) :
    Action Store (List (Scalar t)) := do
  let n ← Word.mul? count t.width
  let (route, bytes) ← r.fetch offset n
  route.loadAll t order count bytes

/-- Scalars written one after another from `offset` on, unchecked. -/
def storeAll (r : Region) (order : ByteOrder) (offset : Nat) (vs : List (Scalar t)) :
    Action Store Unit := do
  let n ← Word.mul? vs.length t.width
  let (route, bytes) ← r.fetch offset n
  let after ← route.storeAll order vs bytes
  r.replace offset after

def read (r : Region) (t : ScalarType) (offset : Nat) (order : ByteOrder) :
    Action Store (Scalar t) := do
  r.validate .read "get" offset t.width
  let (route, bytes) ← r.fetch offset t.width
  pure (route.load t order bytes)

def write (r : Region) (offset : Nat) (v : Scalar t) (order : ByteOrder) : Action Store Unit := do
  r.validate .write "put" offset t.width
  let (route, bytes) ← r.fetch offset t.width
  let after ← route.store order v bytes
  r.replace offset after

def readSlice (r : Region) (t : ScalarType) (offset count : Nat) (order : ByteOrder) :
    Action Store (List (Scalar t)) := do
  let length ← Extent.byteLength count t.width
  r.validate .read "get" offset length
  if count = 0 then pure [] else r.loadAll t order offset count

def writeSlice (r : Region) (offset : Nat) (vs : List (Scalar t)) (order : ByteOrder) :
    Action Store Unit := do
  let length ← Extent.byteLength vs.length t.width
  r.validate .write "put" offset length
  if !vs.isEmpty then r.storeAll order offset vs

/-- Reads `count` scalars into the places of `target` from `start` on. -/
def readElements (r : Region) (offset : Nat) (target : List (Scalar t)) (start count : Nat)
    (order : ByteOrder) : Action Store (List (Scalar t)) := do
  let length ← Extent.byteLength count t.width
  r.validate .read "get" offset length
  Extent.check target.length start count
  if count = 0 then pure target
  else
    let vs ← r.loadAll t order offset count
    splice? target start vs

/-- Writes the `count` scalars of `source` from `start` on. -/
def writeElements (r : Region) (offset : Nat) (source : List (Scalar t)) (start count : Nat)
    (order : ByteOrder) : Action Store Unit := do
  let length ← Extent.byteLength count t.width
  r.validate .write "put" offset length
  Extent.check source.length start count
  if count ≠ 0 then
    let vs ← cut? source start count
    r.storeAll order offset vs

def clear (r : Region) (byte : UInt8) (offset length : Nat) : Action Store Unit := do
  r.validate .write "clear" offset length
  if length ≠ 0 then r.replace offset (List.replicate length byte)

def clearAll (r : Region) (byte : UInt8) : Action Store Unit :=
  r.clear byte 0 r.length

def clearBetween (r : Region) (byte : UInt8) (first last : Nat) : Action Store Unit := do
  let length ← Extent.between first last
  r.clear byte first length

/-- The bytes of `[offset, offset + count)`. -/
def readBytes (r : Region) (offset count : Nat) : Action Store Bytes := do
  let vs ← r.readSlice .u8 offset count .native
  pure (vs.map Scalar.toByte)

def writeBytes (r : Region) (offset : Nat) (bytes : Bytes) : Action Store Unit :=
  r.writeSlice offset (bytes.map Scalar.ofByte) .native

def toBytes (r : Region) : Action Store Bytes := r.readBytes 0 r.length

/-- A single byte, for which no order is needed. -/
def readByte (r : Region) (offset : Nat) : Action Store UInt8 := do
  let v ← r.read .u8 offset .native
  pure v.toByte

def writeByte (r : Region) (offset : Nat) (byte : UInt8) : Action Store Unit :=
  r.write offset (Scalar.ofByte byte) .native

end BoundedMemory.Region
