import BoundedMemory.Proofs.CursorBounds
import BoundedMemory.Proofs.RecordLayout
import BoundedMemory.Proofs.Safety
import BoundedMemory.Proofs.ScalarCodec

/-!
Records written through a cursor and read again. Each item that is written puts its own
bytes behind those of the items before it and moves on by as many; reading it finds them
there and moves on by as many as well. So a record that was written as a whole is read
as a whole, and no byte outside of it was touched.
-/

namespace BoundedMemory

variable {s s' : Store} {c c' : Cursor} {r : Region}

namespace Cursor

/-- What there is to skip is the gap, as far as it is left. -/
theorem padding_eq (h : c.Ordered) {width : Nat} (some : 0 < width) :
    c.padding width =
      if c.position + RecordItem.gap width c.position ≤ c.limit then
        .ok (RecordItem.gap width c.position)
      else .error (.outOfBounds c.position (RecordItem.gap width c.position) c.limit) := by
  have low : c.position ≤ c.limit := h.mark.1
  unfold padding Extent.require RecordItem.gap
  simp only [some, decide_true, if_true, Extent.check_eq]
  split
  · exact (if_pos low).symm
  · split <;> rfl

theorem padding_eq_ok_iff (h : c.Ordered) {width skip : Nat} :
    c.padding width = .ok skip ↔
      0 < width ∧ skip = RecordItem.gap width c.position ∧ c.position + skip ≤ c.limit := by
  rcases Nat.eq_zero_or_pos width with rfl | wide
  · exact ⟨fun passed => (by cases passed), fun wanted => absurd wanted.1 (Nat.lt_irrefl 0)⟩
  · rw [padding_eq h wide]
    constructor
    · intro passed
      split at passed <;> cases passed
      exact ⟨wide, rfl, ‹_›⟩
    · rintro ⟨-, rfl, fits⟩
      exact if_pos fits

/-- A transfer at the position of a cursor that is not reported to have failed. -/
theorem transfer_passed {how : CursorUse} {x : Transfer}
    (transfer : c.transfer? how = some (x, none))
    (passed : (how.run (s, c)).1.isFailure = false) :
    ∃ reply s', how.run (s, c) = (reply, s', c.moved x.size) ∧
      c.position + x.size ≤ c.limit ∧ x.run c.region c.position s = .ok reply s' := by
  rw [run_use transfer] at passed ⊢
  simp only [Operation.settle] at passed ⊢
  cases run : Cursor.transfer x (s, c) with
  | ok reply after =>
      obtain ⟨s', c'⟩ := after
      obtain ⟨moved, -, rfl⟩ := transfer_eq_ok_iff.mp run
      obtain ⟨fits, moved⟩ := transferAt_eq_ok_iff.mp moved
      exact ⟨reply, s', rfl, fits, moved⟩
  | error e after =>
      simp only [run] at passed
      cases e <;> cases passed

end Cursor

/-- A write that went through is one into flat memory. -/
theorem Transfer.write?_of_run {x : Transfer} {offset : Nat} {reply : Reply}
    (writes : x.direction = .write) (apart : s.Apart) (run : x.run r offset s = .ok reply s') :
    s.flat.write? r offset x.payload = some s'.flat := by
  obtain ⟨-, bytes, moved, -⟩ := run_flat apart run
  simp only [onFlat?, writes, Option.map_eq_some_iff, Prod.mk.injEq] at moved
  obtain ⟨after, written, -, rfl⟩ := moved
  exact written

/-- A read to which nothing is opposed answers what is in flat memory, and changes nothing. -/
theorem Transfer.run_of_read? {x : Transfer} {offset : Nat} {bytes : Bytes}
    (reads : x.direction = .read) (apart : s.Apart) (served : r.Served s)
    (free : x.refusal? r s offset = none) (there : s.flat.read? r offset x.size = some bytes) :
    x.run r offset s = .ok (x.answer bytes) s := by
  obtain ⟨reply, after, outcome⟩ := outcome?_of_served served free
  have run := run_eq_ok_iff.mpr ⟨free, outcome⟩
  have same := unchanged run (.inl reads)
  obtain ⟨-, found, moved, rfl⟩ := run_flat apart run
  simp only [onFlat?, reads, there, Option.map_some, Option.some.injEq, Prod.mk.injEq] at moved
  rw [run, same, moved.1]

namespace RecordItem

/-- What the use that writes an item has done if it is not reported to have failed. -/
structure Wrote (item : RecordItem) (c : Cursor) (s : Store) (result : Store × Cursor) : Prop where
  sound : item.Sound
  fits : c.position + item.size c.position ≤ c.limit
  passed : result.2 = item.pass c
  written (now : Bytes) : s.flat.Filled c.region now →
    s.flat.write? c.region c.position (item.bytes c.position c.order now) = some result.1.flat

theorem wrote (item : RecordItem) (apart : s.Apart) (h : c.Ordered)
    (passed : (item.writing.run (s, c)).1.isFailure = false) :
    item.Wrote c s (item.writing.run (s, c)).2 := by
  cases item with
  | scalar t v order =>
      obtain ⟨reply, s', run, fits, moved⟩ :=
        Cursor.transfer_passed (x := .write t v (order.getD c.order)) rfl passed
      rw [run]
      exact ⟨trivial, fits, rfl, fun _ _ => Transfer.write?_of_run rfl apart moved⟩
  | scalars t vs order =>
      obtain ⟨reply, s', run, fits, moved⟩ :=
        Cursor.transfer_passed (x := .writeSlice t vs (order.getD c.order)) rfl passed
      rw [run]
      exact ⟨trivial, fits, rfl, fun _ _ => Transfer.write?_of_run rfl apart moved⟩
  | turn order => exact ⟨trivial, h.mark.1, rfl, fun _ _ => rfl⟩
  | pad width byte =>
      simp only [writing, CursorUse.run, Operation.settle, Cursor.padTo_run] at passed ⊢
      cases padding : c.padding width with
      | error fault =>
          simp only [padding] at passed
          cases passed
      | ok skip =>
          obtain ⟨wide, rfl, fits⟩ := (Cursor.padding_eq_ok_iff h).mp padding
          simp only [padding] at passed
          rcases Nat.eq_zero_or_pos (gap width c.position) with nothing | skips
          · simp only [if_pos nothing]
            refine ⟨wide, fits, ?_, fun _ _ => ?_⟩
            · simp only [pass, size, nothing]
              rfl
            · simp only [bytes, nothing]
              rfl
          · have some : gap width c.position ≠ 0 := Nat.ne_of_gt skips
            simp only [if_neg some] at passed ⊢
            cases run : (Transfer.clear byte (gap width c.position)).run c.region c.position s with
            | ok reply s' =>
                exact ⟨wide, fits, rfl, fun _ _ => Transfer.write?_of_run rfl apart run⟩
            | error e s' =>
                simp only [run] at passed
                cases e <;> cases passed
  | align width =>
      simp only [writing, CursorUse.run, Operation.settle, Cursor.alignTo_run] at passed ⊢
      cases padding : c.padding width with
      | error fault =>
          simp only [padding] at passed
          cases passed
      | ok skip =>
          obtain ⟨wide, rfl, fits⟩ := (Cursor.padding_eq_ok_iff h).mp padding
          have low : c.limit ≤ c.region.length := h.mark.2
          simp only [padding] at passed ⊢
          rcases Nat.lt_or_ge (c.position + gap width c.position) Word.modulus with word | beyond
          · simp only [if_pos word]
            -- Nothing is written here, which is to write what stands there already.
            exact ⟨wide, fits, rfl, fun _ filled => filled.write?_same (Nat.le_trans fits low)⟩
          · simp only [if_neg (Nat.not_lt.mpr beyond)] at passed
            cases passed

/-- An item of which flat memory holds the bytes is read, and the store left as it is. -/
theorem readAgain (item : RecordItem) (apart : s.Apart) (h : c.Ordered)
    (served : c.region.Served s) (valid : c.region.isValid s = true)
    (readable : c.region.isReadable = true) (sound : item.Sound)
    (fits : c.position + item.size c.position ≤ c.limit) {old : Bytes}
    (there : s.flat.read? c.region c.position (item.size c.position) =
      some (item.bytes c.position c.order old)) :
    item.reading.run (s, c) = (item.answer c.position, s, item.pass c) := by
  have inside : c.limit ≤ c.region.length := h.mark.2
  have words := served.words
  have aligned {width : Nat} (wide : 0 < width)
      (fits : c.position + gap width c.position ≤ c.limit) :
      CursorUse.run (.align width) (s, c) =
        (.number (gap width c.position), s, c.moved (gap width c.position)) := by
    have padding := (Cursor.padding_eq_ok_iff h).mpr ⟨wide, rfl, fits⟩
    simp only [CursorUse.run, Operation.settle, Cursor.alignTo_run, padding]
    rw [if_pos (h.word served fits)]
  have read {x : Transfer} {how : CursorUse} (transfer : c.transfer? how = some (x, none))
      (reads : x.direction = .read) (short : x.lengthFault? = none) (all : x.listFault? = none)
      (fits : c.position + x.size ≤ c.limit) {bytes : Bytes}
      (there : s.flat.read? c.region c.position x.size = some bytes) :
      how.run (s, c) = (x.answer bytes, s, c.moved x.size) := by
    have allowed : c.region.refusal? s x.direction x.operation c.position x.size = none := by
      rw [reads]
      exact Region.refusal?_eq_none_iff.mpr
        ⟨valid, fun writes => (by cases writes), readable, Nat.le_trans fits inside⟩
    have free := Transfer.refusal?_eq_none_iff.mpr ⟨short, allowed, all⟩
    have run := Transfer.run_of_read? reads apart served free there
    have moved := Cursor.transfer_eq_ok_iff.mpr
      ⟨Cursor.transferAt_eq_ok_iff.mpr ⟨fits, run⟩, h.word served fits, rfl⟩
    rw [Cursor.run_use transfer]
    simp only [Operation.settle, moved]
    rfl
  cases item with
  | scalar t v order =>
      rw [reading, read (x := .read t (order.getD c.order)) rfl rfl rfl rfl fits there]
      have same := Scalar.decode_encode (order.getD c.order) v
      simp only [Transfer.answer, bytes, same]
      rfl
  | scalars t vs order =>
      have short : vs.length * t.width < Word.modulus := by
        simp only [size] at fits
        omega
      rw [reading, read (x := .readSlice t vs.length (order.getD c.order)) rfl rfl (if_pos short)
        rfl fits there]
      have same := Scalar.decode_encodeAll (order.getD c.order) vs
      simp only [Transfer.answer, bytes, same]
      rfl
  | turn order => rfl
  | pad width byte => exact aligned sound fits
  | align width => exact aligned sound fits

end RecordItem

/-- Uses of one cursor after another, with the reply to each. -/
def CursorUse.runAll (hows : List CursorUse) (now : Store × Cursor) :
    List Reply × (Store × Cursor) :=
  match hows with
  | [] => ([], now)
  | how :: rest =>
      let (reply, now) := how.run now
      let (replies, now) := runAll rest now
      (reply :: replies, now)

/-- The same uses put to the cursor that a name stands for. -/
def CursorUse.commands (hows : List CursorUse) (name : String) : List Command :=
  hows.map fun how => .use name (.cursor how)

theorem CursorUse.runAll_cons (how : CursorUse) (rest : List CursorUse) (now : Store × Cursor) :
    runAll (how :: rest) now =
      ((how.run now).1 :: (runAll rest (how.run now).2).1, (runAll rest (how.run now).2).2) := rfl

namespace Record

/-- What the uses that write a record have done if none of them is reported to have failed. -/
structure Wrote (items : List RecordItem) (c : Cursor) (s : Store) (result : Store × Cursor) :
    Prop where
  sound : ∀ item ∈ items, item.Sound
  fits : (pass items c).position ≤ c.limit
  passed : result.2 = pass items c
  written (now : Bytes) : s.flat.Filled c.region now → s.flat.write? c.region c.position
    (layout items c.position c.order now) = some result.1.flat

/-- What one item wrote lies in front of what the others write, and is not touched again. -/
theorem Wrote.cons {item : RecordItem} {rest : List RecordItem} {s₁ : Store}
    {result : Store × Cursor} (h : c.Ordered) (first : item.Wrote c s (s₁, item.pass c))
    (later : Wrote rest (item.pass c) s₁ result) : Wrote (item :: rest) c s result where
  sound other member := by
    rcases List.mem_cons.mp member with rfl | member
    · exact first.sound
    · exact later.sound other member
  fits := later.fits
  passed := later.passed
  written now filled := by
    have inside : c.limit ≤ c.region.length := h.mark.2
    have length := filled.length
    have room : c.position + item.size c.position ≤ now.length := by
      rw [length]
      exact Nat.le_trans first.fits inside
    have size := item.length_bytes c.order room
    have front := first.written now filled
    have filled' := filled.write? (by omega) front
    have back := later.written _ filled'
    -- The rest is laid out over what lies past the first item, where nothing has changed.
    have behind : (splice now c.position (item.bytes c.position c.order now)).drop
        (item.pass c).position = now.drop (item.pass c).position := by
      show List.drop (c.position + item.size c.position) _ = List.drop (c.position + _) _
      rw [← size]
      exact drop_splice (by omega)
    rw [layout_congr behind] at back
    have last : (pass rest (item.pass c)).position ≤ now.length := by
      rw [length]
      exact Nat.le_trans later.fits inside
    have ended : (pass rest (item.pass c)).position = c.position + item.size c.position +
        (layout rest (item.pass c).position (item.pass c).order now).length := position_pass last
    refine filled.write?_append ?_ front ?_
    · show _ + (layout rest (item.pass c).position (item.pass c).order now).length ≤ _
      omega
    · rw [size]
      exact back

theorem wrote {items : List RecordItem} (apart : s.Apart) (h : c.Ordered)
    (passed : ∀ reply ∈ (CursorUse.runAll (items.map RecordItem.writing) (s, c)).1,
      reply.isFailure = false) :
    Wrote items c s (CursorUse.runAll (items.map RecordItem.writing) (s, c)).2 := by
  -- An item begins where the cursor was left by the one before it, in the store as it was left.
  induction items generalizing s c with
  | nil => exact ⟨fun _ member => (by cases member), h.mark.1, rfl, fun _ _ => rfl⟩
  | cons item rest ih =>
      have first := item.wrote apart h (passed _ List.mem_cons_self)
      have ordered := (item.writing.useStep (s := s) h).ordered h
      have still := (item.writing.handled (c := c) apart).apart
      rw [List.map_cons, CursorUse.runAll_cons] at passed ⊢
      rcases ran : item.writing.run (s, c) with ⟨reply, s₁, c₁⟩
      rw [ran] at first ordered still passed
      obtain rfl : c₁ = item.pass c := first.passed
      exact .cons h first (ih still ordered fun reply member =>
        passed reply (List.mem_cons_of_mem _ member))

/-- Where memory holds the bytes of a record, all of it is read, and the store is left as
it is. -/
theorem readAgain {items : List RecordItem} (apart : s.Apart) (h : c.Ordered)
    (served : c.region.Served s) (valid : c.region.isValid s = true)
    (readable : c.region.isReadable = true) (sound : ∀ item ∈ items, item.Sound)
    (fits : (pass items c).position ≤ c.limit) {old : Bytes} (length : old.length = c.region.length)
    (there : s.flat.read? c.region c.position (layout items c.position c.order old).length =
      some (layout items c.position c.order old)) :
    CursorUse.runAll (items.map RecordItem.reading) (s, c) =
      (answers items c.position, s, pass items c) := by
  -- Only the cursor moves on; `old` and the store are the same for all of the items.
  induction items generalizing c with
  | nil => rfl
  | cons item rest ih =>
      have inside : c.limit ≤ c.region.length := h.mark.2
      have low : (item.pass c).position ≤ c.limit :=
        Nat.le_trans (position_le_pass rest (item.pass c)) fits
      have room : c.position + item.size c.position ≤ old.length := by
        rw [length]
        exact Nat.le_trans low inside
      have size := item.length_bytes c.order room
      rw [layout, List.length_append] at there
      obtain ⟨front, back⟩ := FlatMemory.read?_append there
      rw [List.take_left, size] at front
      rw [List.drop_left, size] at back
      have first := item.readAgain apart h served valid readable
        (sound item List.mem_cons_self) low front
      have ordered := (item.reading.useStep (s := s) h).ordered h
      rw [first] at ordered
      have later := ih (c := item.pass c) ordered served valid readable
        (fun other member => sound other (List.mem_cons_of_mem item member)) fits length back
      rw [List.map_cons, CursorUse.runAll_cons, first]
      simp only [later]
      rfl

end Record

namespace Session

variable {s s' : Session} {name : String}

/-- A session stays swept while the same things are held and names lead where they led. -/
theorem Swept.of_seats (h : s.Swept) (faithful : s.handles.Faithful)
    (faithful' : s'.handles.Faithful) (seats : s'.seats = s.seats)
    (alike : s.store.Resembles s'.store) : s'.Swept where
  roots id held := by
    have before : s.store.rootHeld id = true := by
      unfold Store.rootHeld
      rw [alike.roots]
      exact held
    rw [reaches_iff faithful', seats]
    exact (reaches_iff faithful).mp (h.roots id before)
  buffers id alive := by
    have before : s.store.bufferAlive id = true := by
      unfold Store.bufferAlive
      rw [alike.buffers]
      exact alive
    rw [holds_iff faithful', seats]
    rcases (holds_iff faithful).mp (h.buffers id before) with seat | under
    · exact .inl seat
    · right
      unfold Store.buffersRoot at under ⊢
      rw [← alike.roots]
      exact under

/-- With nothing to sweep, a use that leaves its handle where it led and all else alive does to
a session what it does to the handle. -/
theorem Tidy.step_rebound (tidy : s.Tidy) {how : Use} {h h' : Handle} {reply : Reply}
    {store : Store} (found : s.handles.find? name = some h)
    (used : s.use name how = (reply, { s with store }.bind name h'))
    (harmless : ¬ how.Ends) (steady : h'.seat = h.seat) :
    s.step (.use name how) = (reply, { s with store }.bind name h') := by
  have performed : s.perform (.use name how) = (reply, { s with store }.bind name h') := used
  have faithful := perform_faithful (.use name how) tidy.faithful
  have alike : s.store.Resembles (s.use name how).2.store := use_resembles harmless
  rw [performed] at faithful
  rw [used] at alike
  have seats : ({ s with store }.bind name h').seats = s.seats :=
    seats_rebind (s := { s with store }) found steady
  -- The name leads where it led before, so that the sweep has nothing to drop.
  have swept := tidy.swept.of_seats tidy.faithful faithful seats alike
  unfold Session.step
  simp only [performed, swept.sweep_eq]

theorem Tidy.step_cursor (tidy : s.Tidy) (found : s.handles.find? name = some (.cursor c))
    (how : CursorUse) :
    s.step (.use name (.cursor how)) =
      ((how.run (s.store, c)).1,
        { s with store := (how.run (s.store, c)).2.1 }.bind name
          (.cursor (how.run (s.store, c)).2.2)) := by
  have steady := (how.handled (c := c) tidy.apart).steady
  refine tidy.step_rebound found (by simp only [use, found]) id ?_
  simp only [Handle.seat, steady]

/-- So does a list of uses, one after another. -/
theorem Tidy.run_cursor (tidy : s.Tidy) (found : s.handles.find? name = some (.cursor c))
    (hows : List CursorUse) :
    let result := CursorUse.runAll hows (s.store, c)
    let ran := Session.run (CursorUse.commands hows name) s
    ran.1 = result.1 ∧ ran.2.store = result.2.1 ∧
      ran.2.handles.find? name = some (.cursor result.2.2) := by
  induction hows generalizing s c with
  | nil => exact ⟨rfl, rfl, found⟩
  | cons how rest ih =>
      have stepped := tidy.step_cursor found how
      have tidy' := tidy.step (.use name (.cursor how))
      rw [stepped] at tidy'
      obtain ⟨replies, store, leads⟩ := ih tidy' (Names.find?_bind_same _ _ _)
      simp only [CursorUse.commands, List.map_cons, Session.run, stepped, CursorUse.runAll_cons]
      exact ⟨congrArg (_ :: ·) replies, store, leads⟩

theorem commands_orderly (hows : List CursorUse) (name : String) :
    ∀ command ∈ CursorUse.commands hows name, command.Orderly := by
  intro command member
  obtain ⟨how, -, rfl⟩ := List.mem_map.mp member
  trivial

end Session

/-- A region whose memory is there is in flat memory as a whole. -/
theorem Region.Served.filled (served : r.Served s) (apart : s.Apart)
    (valid : r.isValid s = true) : ∃ now, s.flat.Filled r now := by
  unfold FlatMemory.Filled FlatMemory.read?
  rcases Nat.eq_zero_or_pos r.length with nothing | some
  · rw [if_pos nothing]
    exact ⟨[], rfl⟩
  · rw [if_neg (Nat.ne_of_gt some)]
    have whole : 0 + r.length ≤ r.length := Nat.le_of_eq (Nat.zero_add _)
    obtain ⟨root, b, reach⟩ := served.reach valid whole (Nat.ne_of_gt some)
    rw [reach.locate? apart (Nat.ne_of_gt some)]
    exact ⟨_, rfl⟩

namespace Record

def writing (items : List RecordItem) (name : String) : List Command :=
  CursorUse.commands (items.map RecordItem.writing) name

def reading (items : List RecordItem) (name : String) : List Command :=
  CursorUse.commands (items.map RecordItem.reading) name

/-- What becomes of a record that is written between two sessions, by a cursor that goes from
`c` to `c'`, on a region that held `old`. -/
structure Kept (items : List RecordItem) (old : Bytes) (s : Session) (c : Cursor) (s' : Session)
    (c' : Cursor) : Prop where
  region : c'.region = c.region
  ended : c'.position = c.position + (layout items c.position c.order old).length
  /-- The bytes of the record replace what was in their range, and no others change. -/
  written : s.store.flat.write? c.region c.position (layout items c.position c.order old) =
    some s'.store.flat
  /-- From then on, as long as these bytes stay and the region is valid, any cursor that stands
  where the record begins, in the same order and with room for it, reads all of it. -/
  read {between : List Command} {t : Session} {name : String} {c₁ : Cursor} :
    (∀ command ∈ between, command.Orderly) → (Session.run between s').2 = t →
      t.handles.find? name = some (.cursor c₁) → c₁.region = c.region →
      c₁.position = c.position → c₁.order = c.order → c'.position ≤ c₁.limit →
      c.region.isValid t.store = true →
      t.store.flat.read? c.region c.position (c'.position - c.position) =
        s'.store.flat.read? c.region c.position (c'.position - c.position) →
      (Session.run (reading items name) t).1 = answers items c.position ∧
        ∃ c₂, (Session.run (reading items name) t).2.handles.find? name = some (.cursor c₂) ∧
          c₂.position = c'.position

end Record

namespace Session

variable {s : Session} {name : String}

/-- Where memory holds a record behind a cursor, it is read through the name of the cursor. -/
private theorem Ready.read_record (ready : s.Ready) (tidy : s.Tidy)
    (found : s.handles.find? name = some (.cursor c)) (valid : c.region.isValid s.store = true)
    (readable : c.region.isReadable = true) {items : List RecordItem}
    (sound : ∀ item ∈ items, item.Sound) (fits : (Record.pass items c).position ≤ c.limit)
    {old : Bytes} (length : old.length = c.region.length)
    (there : s.store.flat.read? c.region c.position
        (Record.layout items c.position c.order old).length =
      some (Record.layout items c.position c.order old)) :
    (Session.run (Record.reading items name) s).1 = Record.answers items c.position ∧
      ∃ c', (Session.run (Record.reading items name) s).2.handles.find? name = some (.cursor c') ∧
        c'.position = (Record.pass items c).position := by
  have ordered : c.Ordered := (ready.inBounds found).2
  have reads := Record.readAgain tidy.apart ordered (ready.served found rfl) valid readable sound
    fits length there
  obtain ⟨replies, -, leads⟩ := tidy.run_cursor found (items.map RecordItem.reading)
  rw [reads] at replies leads
  exact ⟨replies, _, leads, rfl⟩

/-- A record that was written through a cursor is all that changed, and can be read again. -/
theorem record_round_trip {machine : Machine} {files : FileTree} {before : List Command}
    {items : List RecordItem} (orderly : ∀ command ∈ before, command.Orderly)
    (reached : (run before (.initial machine files)).2 = s)
    (found : s.handles.find? name = some (.cursor c)) (valid : c.region.isValid s.store = true)
    (readable : c.region.isReadable = true)
    (succeeds : ∀ reply ∈ (run (Record.writing items name) s).1, reply.isFailure = false) :
    ∃ old c', s.store.flat.Filled c.region old ∧
      (run (Record.writing items name) s).2.handles.find? name = some (.cursor c') ∧
      Record.Kept items old s c (run (Record.writing items name) s).2 c' := by
  have ready : s.Ready := reached ▸ ((Ready.empty machine files).run orderly).2
  have tidy : s.Tidy := reached ▸ run_tidy machine files before
  have ordered : c.Ordered := (ready.inBounds found).2
  have inside : c.limit ≤ c.region.length := ordered.mark.2
  obtain ⟨old, filled⟩ := (ready.served found rfl).filled tidy.apart valid
  obtain ⟨replies, store, leads⟩ := tidy.run_cursor found (items.map RecordItem.writing)
  have wrote := Record.wrote tidy.apart ordered fun reply member =>
    succeeds reply (replies ▸ member)
  have written := wrote.written old filled
  have room : (Record.pass items c).position ≤ old.length := by
    rw [filled.length]
    exact Nat.le_trans wrote.fits inside
  have ended := Record.position_pass room
  have fits :
      c.position + (Record.layout items c.position c.order old).length ≤ c.region.length := by
    rw [← ended]
    exact Nat.le_trans wrote.fits inside
  rw [← store] at written
  rw [wrote.passed] at leads
  refine ⟨old, Record.pass items c, filled, leads, Record.pass_region items c, ended, written, ?_⟩
  intro between t other c₁ orderly' onward found' region position order low valid' same
  have ready' : (run (Record.writing items name) s).2.Ready :=
    (ready.run (commands_orderly _ name)).2
  have ready'' : t.Ready := onward ▸ (ready'.run orderly').2
  have tidy'' : t.Tidy := onward ▸ (tidy.run _).run between
  have length : old.length = c₁.region.length := region ▸ filled.length
  have passed : (Record.pass items c₁).position = (Record.pass items c).position :=
    Record.position_pass_congr position
  have there : t.store.flat.read? c₁.region c₁.position
      (Record.layout items c₁.position c₁.order old).length =
        some (Record.layout items c₁.position c₁.order old) := by
    have now := (filled.write? fits written).read? fits
    rw [cut_splice_same (by rw [filled.length]; exact fits)] at now
    rw [ended, Nat.add_sub_cancel_left] at same
    rw [region, position, order, same]
    exact now
  obtain ⟨answers, c₂, leads', stands⟩ := ready''.read_record tidy'' found' (region ▸ valid')
    (region ▸ readable) wrote.sound (passed ▸ low) length there
  rw [position] at answers
  exact ⟨answers, c₂, leads', stands.trans passed⟩

/-- A cursor in the midst of an array that is not empty. -/
private def ruled : List Command :=
  [.make "array" (.ofBytes (Bytes.sequential 32)),
    .derive "array" "cursor" (.cursorWithin 1 30 .bigEndian)]

private def writable : Session := (run ruled (.initial Host.machine .bare)).2

/-- Values of several types, in three orders, with both kinds of gaps between them. -/
private def fields : List RecordItem :=
  [.scalar .u32 0x01020304 none, .align 4, .turn .littleEndian, .scalars .i16 [1, 2, 3] none,
    .scalar .u16 0xABCD (some .bigEndian), .pad 8 0xEE, .scalar .f64 0x7FF8000000000001 none,
    .scalars .u64 [] none, .scalar .i8 0x80 none]

theorem record_round_trip_fields :
    let c : Cursor :=
      { region := .ofRoot 0 32, mark := { position := 1, limit := 30, order := .bigEndian } }
    writable.handles.find? "cursor" = some (.cursor c) ∧
      ∃ old c', writable.store.flat.Filled c.region old ∧
        (run (Record.writing fields "cursor") writable).2.handles.find? "cursor" =
          some (.cursor c') ∧
        Record.Kept fields old writable c (run (Record.writing fields "cursor") writable).2 c' := by
  intro c
  have orderly : ∀ command ∈ ruled, command.Orderly := by
    simp [ruled, Command.Orderly, Making.Fits, Word.modulus, Bytes.sequential]
  have found : writable.handles.find? "cursor" = some (.cursor c) := by decide +kernel
  have succeeds : ∀ reply ∈ (run (Record.writing fields "cursor") writable).1,
      reply.isFailure = false := by decide +kernel
  exact ⟨found, record_round_trip orderly rfl found (by decide +kernel) rfl succeeds⟩

end Session

end BoundedMemory
