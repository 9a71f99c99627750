import BoundedMemory.Cursor.Access
import BoundedMemory.Session.Command
import BoundedMemory.Stream.Reader
import BoundedMemory.Stream.Writer

/-!
The uses of single handles, run to their replies. A use of a cursor or a stream
changes that handle as well as memory.
-/

namespace BoundedMemory

namespace Region

def viewReport? (r : Region) (s : Store) : Option ViewReport := do
  let root ← s.roots[r.root]?
  if r.isView then
    some {
      base := r.base
      length := r.length
      permit := r.permit
      readOnly := r.isReadOnly
      valid := r.isValid s
      parent := root.backing.variant
      parentLength := root.length }
  else none

def rootReport? (r : Region) (s : Store) (keyName : SegmentKey → String) :
    Option RootReport := do
  let root ← s.roots[r.root]?
  let key := match root.backing with
    | .segment attachment => keyName attachment.key
    | _ => ""
  if r.isView then none
  else
    some {
      backing := root.backing
      base := root.base
      length := root.length
      valid := root.isValid
      key }

def variant (r : Region) (s : Store) : Variant :=
  if r.isView then .view
  else
    match s.roots[r.root]? with
    | some root => root.backing.variant
    | none => .view

def report (r : Region) (s : Store) (keyName : SegmentKey → String) : RegionReport where
  variant := r.variant s
  length := r.length
  valid := r.isValid s
  permit := r.permit
  readable := r.isReadable
  writable := r.isWritable
  readOnly := r.isReadOnly
  view := r.viewReport? s
  root := r.rootReport? s keyName

end Region

private def done (_ : Unit) : Reply := .done

def RegionUse.run (how : RegionUse) (r : Region) (keyName : SegmentKey → String) (s : Store) :
    Reply × Store :=
  match how with
  | .release => r.release.settle .fault done s
  | .report => (.report (r.report s keyName), s)
  | .toBytes => r.toBytes.settle .fault .bytes s
  | .clear byte offset length => (r.clear byte offset length).settle .fault done s
  | .clearAll byte => (r.clearAll byte).settle .fault done s
  | .clearBetween byte first last => (r.clearBetween byte first last).settle .fault done s
  | .read t offset order => (r.read t offset order).settle .fault (.scalar t) s
  | .write _ offset v order => (r.write offset v order).settle .fault done s
  | .readSlice t offset count order =>
      (r.readSlice t offset count order).settle .fault (.scalars t) s
  | .writeSlice _ offset vs order => (r.writeSlice offset vs order).settle .fault done s
  | .readElements t offset target start count order =>
      (r.readElements offset target start count order).settle
        (fun cause => .filled t (some cause) target) (.filled t none) s
  | .writeElements _ offset source start count order =>
      (r.writeElements offset source start count order).settle .fault done s

def SegmentUse.run (how : SegmentUse) (r : Region) (attachment : Attachment)
    (other? : String → Option Attachment) (s : Store) : Reply × Store :=
  match how with
  | .detach => r.detach.settle .fault done s
  | .destroy => r.destroy.settle .fault done s
  | .unmap =>
      match Store.unmapSegment attachment.mapping s with
      | .ok () s => (.done, s)
      | .error _ s => (.unusable, s)
  | .same name =>
      match other? name with
      | some other => (.flag (attachment.segment = other.segment), s)
      | none => (.noHandle, s)

def CursorUse.run (how : CursorUse) (s : Store × Cursor) : Reply × (Store × Cursor) :=
  match how with
  | .setPosition position => (Cursor.setPosition position).settle .fault done s
  | .advance n => (Cursor.advance n).settle .fault .number s
  | .setLimit limit => (Cursor.setLimit limit).settle .fault done s
  | .setOrder order => (Cursor.setOrder order).settle .fault done s
  | .mark => (.mark (some s.2.mark), s)
  | .save => Cursor.save.settle .fault (fun m => .mark (some m)) s
  | .restore => Cursor.restore.settle .fault .mark s
  | .pad width byte => (Cursor.padTo width byte).settle .fault .number s
  | .align width => (Cursor.alignTo width).settle .fault .number s
  | .padToWord byte => (Cursor.padToWord byte).settle .fault .number s
  | .alignToWord => Cursor.alignToWord.settle .fault .number s
  | .read t order => (Cursor.read t order).settle .fault (.scalar t) s
  | .readAt t offset order =>
      (Operation.onFirst (s.2.readAt t offset order)).settle .fault (.scalar t) s
  | .write _ v order => (Cursor.write v order).settle .fault done s
  | .writeAt _ offset v order =>
      (Operation.onFirst (s.2.writeAt offset v order)).settle .fault done s
  | .readSlice t count order => (Cursor.readSlice t count order).settle .fault (.scalars t) s
  | .readSliceAt t offset count order =>
      (Operation.onFirst (s.2.readSliceAt t offset count order)).settle .fault (.scalars t) s
  | .writeSlice _ vs order => (Cursor.writeSlice vs order).settle .fault done s
  | .writeSliceAt _ offset vs order =>
      (Operation.onFirst (s.2.writeSliceAt offset vs order)).settle .fault done s

def WindowUse.run (how : WindowUse) (s : Store × Window) : Reply × (Store × Window) :=
  match how with
  | .seekTo offset => (Window.seekTo offset).settle .fault done s
  | .skip n => (Window.skip n : Window.Act Fault Nat).settle .fault .number s
  | .seek wanted => (Window.seek wanted).settle .streamFault .number s
  | .rewind => Window.rewind.settle .streamFault done s
  | .tell => Window.tell.settle .streamFault .number s

def ReaderUse.run (how : ReaderUse) (s : Store × Window) : Reply × (Store × Window) :=
  let filled (result : Nat × Bytes) : Reply := .read result.1 result.2
  match how with
  | .move how => how.run s
  | .readInto n => (Reader.readInto (List.replicate n 0)).settle .fault filled s
  | .read n =>
      (Operation.mapFault .access (Reader.readInto (List.replicate n 0))).settle
        .streamFault filled s
  | .readByte => Reader.readByte.settle .fault .byte s
  | .readExact n => (Reader.readExact n).settle .streamFault .bytes s
  | .readToEnd => Reader.readToEnd.settle .streamFault .bytes s
  | .readText => Reader.readText.settle .streamFault .text s

def WriterUse.run (how : WriterUse) (s : Store × Window) : Reply × (Store × Window) :=
  match how with
  | .move how => how.run s
  | .write bytes => (Writer.write bytes).settle .fault done s
  | .writeByte byte => (Writer.writeByte byte).settle .fault done s
  | .writeSome bytes => (Writer.writeSome bytes).settle .streamFault .number s
  | .writeAll bytes => (Writer.writeAll bytes).settle .streamFault done s
  | .flush => Writer.flush.settle .streamFault done s

end BoundedMemory
