import BoundedMemory.Session.Reply

/-!
The steps of a session, by what they do to its names: make a handle from
nothing, derive one from another, use one, copy between two, or ask about the
system. Names of keys stand for keys of their own until one is derived from a
file.
-/

namespace BoundedMemory

/-- A file that keys are derived from. -/
inductive FilePlace where
  | temporary (label : String)
  | path (path : String)

/-- Where a segment is looked up. -/
inductive SegmentPlace where
  | key (name : String)
  | file (place : FilePlace) (project : UInt8)

/-- Handles made from nothing but arguments. -/
inductive Making where
  | newArray (size : Nat)
  | ofBytes (bytes : Bytes)
  | ofBytesWithin (bytes : Bytes) (offset length : Nat)
  /-- Heap memory that is set to one byte once it is there. -/
  | allocate (size : Nat) (byte : UInt8)
  | allocateZeroed (size : Nat)
  | allocateFilled (size : Nat) (byte : UInt8)
  | newBuffer (size : Nat) (bytes : Bytes)
  | nullBuffer (length : Nat)
  | bufferAgain (buffer : String)
  | wrap (buffer : String)
  | wrapWithin (buffer : String) (offset length : Nat)
  | attachSegment (place : SegmentPlace) (options : SegmentOptions)
  | createSegment (place : SegmentPlace) (options : SegmentOptions)

/-- Handles made from another handle. -/
inductive Deriving where
  | copy
  /-- The region under a cursor or stream. -/
  | region
  /-- The region under a cursor that is given up for it. -/
  | intoRegion
  | parent
  | slice (offset length : Nat)
  | sliceFrom (offset : Nat)
  | sliceBetween (first last : Nat)
  | restrict (mask : Permit)
  | readOnly
  | cursor (order : ByteOrder)
  | cursorWithin (position limit : Nat) (order : ByteOrder)
  | cursorOpen (options : CursorOptions)
  | cursorSlice (offset length : Nat)
  | cursorSliceFrom (offset : Nat)
  | cursorSliceHere
  | cursorSliceBetween (first last : Nat)
  | reader (window : Option (Nat × Nat))
  | writer (window : Option (Nat × Nat))

inductive RegionUse where
  | release
  | report
  | toBytes
  | clear (byte : UInt8) (offset length : Nat)
  | clearAll (byte : UInt8)
  | clearBetween (byte : UInt8) (first last : Nat)
  | read (t : ScalarType) (offset : Nat) (order : ByteOrder)
  | write (t : ScalarType) (offset : Nat) (v : Scalar t) (order : ByteOrder)
  | readSlice (t : ScalarType) (offset count : Nat) (order : ByteOrder)
  | writeSlice (t : ScalarType) (offset : Nat) (vs : List (Scalar t)) (order : ByteOrder)
  | readElements (t : ScalarType) (offset : Nat) (target : List (Scalar t)) (start count : Nat)
      (order : ByteOrder)
  | writeElements (t : ScalarType) (offset : Nat) (source : List (Scalar t)) (start count : Nat)
      (order : ByteOrder)

inductive SegmentUse where
  | detach
  | destroy
  /-- Takes the segment out of the address space and does not tell its root. -/
  | unmap
  /-- Whether another handle is on the same segment. -/
  | same (other : String)

inductive CursorUse where
  | setPosition (position : Nat)
  | advance (n : Nat)
  | setLimit (limit : Nat)
  | setOrder (order : ByteOrder)
  | mark
  | save
  | restore
  | pad (width : Nat) (byte : UInt8)
  | align (width : Nat)
  | padToWord (byte : UInt8)
  | alignToWord
  | read (t : ScalarType) (order : Option ByteOrder)
  | readAt (t : ScalarType) (offset : Nat) (order : Option ByteOrder)
  | write (t : ScalarType) (v : Scalar t) (order : Option ByteOrder)
  | writeAt (t : ScalarType) (offset : Nat) (v : Scalar t) (order : Option ByteOrder)
  | readSlice (t : ScalarType) (count : Nat) (order : Option ByteOrder)
  | readSliceAt (t : ScalarType) (offset count : Nat) (order : Option ByteOrder)
  | writeSlice (t : ScalarType) (vs : List (Scalar t)) (order : Option ByteOrder)
  | writeSliceAt (t : ScalarType) (offset : Nat) (vs : List (Scalar t)) (order : Option ByteOrder)

/-- Moves of a window, the same for readers and writers. -/
inductive WindowUse where
  | seekTo (offset : Nat)
  | skip (n : Nat)
  | seek (wanted : SeekFrom)
  | rewind
  | tell

inductive ReaderUse where
  | move (how : WindowUse)
  | readInto (n : Nat)
  /-- The same through the interface of streams. -/
  | read (n : Nat)
  | readByte
  | readExact (n : Nat)
  | readToEnd
  | readText

inductive WriterUse where
  | move (how : WindowUse)
  | write (bytes : Bytes)
  | writeByte (byte : UInt8)
  /-- The same as `write` through the interface of streams. -/
  | writeSome (bytes : Bytes)
  | writeAll (bytes : Bytes)
  | flush

inductive Use where
  | drop
  | inspect
  | region (how : RegionUse)
  | segment (how : SegmentUse)
  | cursor (how : CursorUse)
  | reader (how : ReaderUse)
  | writer (how : WriterUse)

/-- Questions and requests that concern no handle. -/
inductive Query where
  | bufferAlive (buffer : String)
  | segmentSize (options : SegmentOptions)
  /-- Derives a key, and lets `key` stand for it. -/
  | deriveKey (place : FilePlace) (project : UInt8) (key : Option String)
  | sameKey (a b : String)
  | segmentExists (key : String)
  | removeSegment (key : String)

inductive Command where
  | make (name : String) (what : Making)
  | derive (source name : String) (how : Deriving)
  | use (target : String) (how : Use)
  | copy (source target : String)
  | ask (query : Query)
  /-- A step with arguments of no use, on a handle that should be of the given kind. -/
  | unusable (target : String) (kind : Option Handle.Kind)

end BoundedMemory
