import BoundedMemory.Proofs.SegmentBytes

/-!
Shared segments. However sources on segments come and go, with whatever keys, sizes and
fates on release: all handles on a segment share its bytes; a key leads to its segment, and
to the bytes in it, until something removes the segment; from then on it leads nowhere until
it leads to a new segment, which is all zero.
-/

namespace BoundedMemory

namespace Session

/-- What holds of the handles on segments in a session and in all runs that follow it. -/
structure Sharing (s : Session) : Prop where
  /-- What is written through a handle on a segment stands in the segment, at the place that
  bases and offset add up to. -/
  written {name : String} {how : Use} {τ : Touch} {g : SegmentId} : s.Through name how τ g →
    τ.transfer.direction = .write →
      (s.step (.use name how)).2.store.Holds g τ.start τ.transfer.payload
  /-- It stands there until something is written over it, whoever detaches or removes what. -/
  kept {g : SegmentId} {start : Nat} {bytes : Bytes} {later : List Command} :
    s.store.Holds g start bytes → (∀ command ∈ later, command.Orderly) →
      Throughout (fun s command => ¬ s.Overwrites command g start bytes.length) later s →
        (run later s).2.store.Holds g start bytes
  /-- Whatever handle on the segment is read through shows it. -/
  shown {name : String} {how : Use} {τ : Touch} {g : SegmentId} {start : Nat} {bytes : Bytes} :
    s.Through name how τ g → τ.transfer.direction = .read → s.store.Holds g start bytes →
      start ≤ τ.start → τ.start + τ.transfer.size ≤ start + bytes.length →
        (s.step (.use name how)).1 = τ.reply (cut bytes (τ.start - start) τ.transfer.size)
  /-- Nothing stops a use of a region but what the region objects to. -/
  answered {name : String} {r : Region} {how : RegionUse} {x : Transfer} {offset : Nat}
    {g : SegmentId} : s.handles.find? name = some (.region r) →
      r.transfer? how = some (x, offset) → x.refusal? r s.store offset = none →
        s.store.LiesOver r g →
          s.Through name (.region how) { region := r, offset, transfer := x, reply := x.answer } g
  /-- A handle stays on its segment, whatever becomes of the key, and no source changes
  whether its release removes the segment. -/
  stays {r : Region} {g : SegmentId} {later : List Command} : s.store.LiesOver r g →
    (∀ command ∈ later, command.Orderly) → (run later s).2.store.LiesOver r g ∧
      ((run later s).2.store.Removes r.root g ↔ s.store.Removes r.root g)
  /-- A key leads to its segment until a source on the segment is destroyed, one that removes
  it on release is released or loses its last handle, or it is removed below all sources. -/
  named {key : SegmentKey} {g : SegmentId} {later : List Command} :
    s.store.segmentOf? key = some g → (∀ command ∈ later, command.Orderly) →
      Throughout (fun s command => ¬ s.FreesKey command g) later s →
        (run later s).2.store.segmentOf? key = some g
  /-- What attaches to the key is a source on that segment, which removes it on release only
  if it was made to. -/
  attached {name : String} {what : Making} {l : Looking} {key : SegmentKey} {g : SegmentId} :
    what.looking? = some l → (s.placeKey l.place).1 = .ok key →
      s.store.segmentOf? key = some g → (s.step (.make name what)).1 = .bound →
        (s.step (.make name what)).2.OpenedAs name l g s.store.roots.length
  /-- After a removal the key leads nowhere, until a segment is made under it. -/
  removed {key : SegmentKey} {g : SegmentId} {command : Command} {later : List Command} :
    s.store.segmentOf? key = some g → s.FreesKey command g → command.Orderly →
      (∀ command ∈ later, command.Orderly) →
        Throughout (fun s command => ¬ s.Creates command key) later (s.step command).2 →
          (run later (s.step command).2).2.store.segmentOf? key = none
  /-- Attaching to a key that leads nowhere fails, and changes nothing. -/
  missing {name : String} {place : SegmentPlace} {options : SegmentOptions} {key : SegmentKey} :
    (s.placeKey place).1 = .ok key → key ≠ .anonymous → s.store.segmentOf? key = none →
      options.flags.has SegmentFlags.create = false →
        (s.step (.make name (.attachSegment place options))).1 = .fault (.os "shmget" .notFound) ∧
          (s.step (.make name (.attachSegment place options))).2.store = s.store
  /-- What is made under such a key is a source on a segment that was never there before, to
  which the key leads from then on, and which is all zero. -/
  created {name : String} {what : Making} {l : Looking} {key : SegmentKey} :
    what.looking? = some l → (s.placeKey l.place).1 = .ok key → key ≠ .anonymous →
      s.store.segmentOf? key = none → (s.step (.make name what)).1 = .bound →
        (∀ r, ¬ s.store.LiesOver r s.store.segments.length) ∧
          (s.step (.make name what)).2.OpenedAs name l s.store.segments.length
            s.store.roots.length ∧
          (s.step (.make name what)).2.store.segmentOf? key = some s.store.segments.length ∧
          (s.step (.make name what)).2.store.Holds s.store.segments.length 0
            (List.replicate l.size 0)
  /-- So what stands in a segment is read by every source that attaches to its key later,
  unless it is written over or the segment removed before. -/
  lasting {key : SegmentKey} {g : SegmentId} {start : Nat} {bytes : Bytes} {later : List Command}
    {name : String} {what : Making} {l : Looking} {how : RegionUse} {x : Transfer} {offset : Nat} :
    s.store.Holds g start bytes → s.store.segmentOf? key = some g →
      (∀ command ∈ later, command.Orderly) →
        Throughout (fun s command => ¬ s.Overwrites command g start bytes.length ∧
          ¬ s.FreesKey command g) later s →
        let t := (run later s).2
        what.looking? = some l → (t.placeKey l.place).1 = .ok key →
          (t.step (.make name what)).1 = .bound →
            (Region.ofRoot t.store.roots.length l.size).transfer? how = some (x, offset) →
              x.direction = .read → x.lengthFault? = none → x.listFault? = none →
                start ≤ offset → offset + x.size ≤ start + bytes.length →
                  offset + x.size ≤ l.size →
                    ((t.step (.make name what)).2.step (.use name (.region how))).1 =
                      x.answer (cut bytes (offset - start) x.size)

variable {s : Session} {name : String} {what : Making} {l : Looking} {key : SegmentKey}
  {g : SegmentId} {later : List Command}

private theorem orderly_of_looking (looks : what.looking? = some l) (name : String) :
    (Command.make name what).Orderly := by
  cases what <;> cases looks <;> trivial

/-- Where only keys were looked up there is nothing to sweep. -/
private theorem step_missing {place : SegmentPlace} {options : SegmentOptions} (swept : s.Swept)
    (missing : s.make name (.attachSegment place options) =
      (.fault (.os "shmget" .notFound), (s.placeKey place).2)) :
    s.step (.make name (.attachSegment place options)) =
      (.fault (.os "shmget" .notFound), (s.placeKey place).2) := by
  obtain ⟨store, handles⟩ := s.placeKey_alongside place
  have still : (s.placeKey place).2.Swept := by
    constructor
    · intro id held
      rw [store] at held
      rw [reaches_eq_of_handles handles]
      exact swept.roots id held
    · intro id alive
      rw [store] at alive
      rw [holds_eq_of_roots handles (congrArg Store.roots store)]
      exact swept.buffers id alive
  simp only [step, perform, missing]
  rw [still.sweep_eq]

private theorem Tracked.stays {r : Region} (tracked : s.Tracked) (lies : s.store.LiesOver r g)
    (orderly : ∀ command ∈ later, command.Orderly) :
    (Session.run later s).2.store.LiesOver r g ∧
      ((Session.run later s).2.store.Removes r.root g ↔ s.store.Removes r.root g) := by
  have renames : Store.Renames (fun _ => True) (fun _ => True) s.store _ :=
    tracked.run_renames orderly (.of_all fun _ _ => ⟨fun _ _ => trivial, fun _ _ => trivial⟩)
  exact ⟨renames.liesOver lies, renames.removes_iff lies⟩

private theorem Tracked.names_run (tracked : s.Tracked)
    (names : s.store.segmentOf? key = some g) (orderly : ∀ command ∈ later, command.Orderly)
    (spared : Throughout (fun s command => ¬ s.FreesKey command g) later s) :
    (Session.run later s).2.store.segmentOf? key = some g := by
  obtain ⟨other, named⟩ := Store.keyOf?_of_segmentOf? names
  have distinct : (Session.run later s).2.store.Distinct := (tracked.run orderly).keyed.distinct
  exact Store.Distinct.segmentOf? distinct other (tracked.named_run orderly spared named)

/-- What stands in a segment is read through a new source on it. -/
private theorem OpenedAs.shown {id : RootId} {start offset : Nat} {bytes : Bytes}
    {how : RegionUse} {x : Transfer} (openedAs : s.OpenedAs name l g id) (tracked : s.Tracked)
    (holds : s.store.Holds g start bytes)
    (moves : (Region.ofRoot id l.size).transfer? how = some (x, offset))
    (reads : x.direction = .read) (length : x.lengthFault? = none) (list : x.listFault? = none)
    (low : start ≤ offset) (high : offset + x.size ≤ start + bytes.length)
    (inside : offset + x.size ≤ l.size) :
    (s.step (.use name (.region how))).1 = x.answer (cut bytes (offset - start) x.size) := by
  have free : x.refusal? (.ofRoot id l.size) s.store offset = none :=
    Transfer.refusal?_eq_none_iff.mpr ⟨length, openedAs.allows inside, list⟩
  have through := tracked.answered openedAs.found moves free openedAs.lies
  have place :
      Touch.start { region := .ofRoot id l.size, offset, transfer := x, reply := x.answer } =
        offset := Nat.zero_add offset
  have shown := tracked.shown through reads holds (place.symm ▸ low) (place.symm ▸ high)
  rwa [place] at shown

theorem Tracked.sharing (tracked : s.Tracked) (swept : s.Swept) : s.Sharing where
  written := tracked.written
  kept holds orderly spared := tracked.holds_run orderly spared holds
  shown := tracked.shown
  answered := tracked.answered
  stays := tracked.stays
  named := tracked.names_run
  attached := tracked.attached
  removed names frees first orderly uncreated := by
    have other := (Store.keyOf?_of_segmentOf? names).1
    exact (tracked.step first).unnamed_run orderly uncreated other
      (tracked.freed first names frees)
  missing {name place options key} placed other free plain := by
    rw [step_missing swept (make_missing placed other free plain)]
    exact ⟨rfl, (s.placeKey_alongside place).store⟩
  created {name what l key} looks placed other free bound := by
    have orderly := orderly_of_looking looks name
    obtain ⟨openedAs, named⟩ := tracked.created orderly looks placed other free bound
    refine ⟨tracked.unseen, openedAs, named, ?_⟩
    exact ⟨_, tracked.zeroed orderly looks bound openedAs, cut_all _⟩
  lasting holds names orderly within := by
    intro t looks placed bound moves reads length list low high inside
    -- Key and bytes outlast the run, and the bytes the making of the new source as well.
    have reached := tracked.run orderly
    have names := tracked.names_run names orderly (within.mono fun _ _ => And.right)
    have holds := tracked.holds_run orderly (within.mono fun _ _ => And.left) holds
    have openedAs := reached.attached looks placed names bound
    refine openedAs.shown (reached.step (orderly_of_looking looks _)) ?_ moves reads length list low
      high inside
    exact reached.holds_step holds id

/-- Whatever has been done in an orderly run, with whatever handles on whatever segments, all
handles on a segment share it from then on, and keys lead to segments as they should. -/
theorem run_sharing (machine : Machine) (files : FileTree) {commands : List Command}
    (orderly : ∀ command ∈ commands, command.Orderly) :
    (Session.run commands (.initial machine files)).2.Sharing :=
  ((Tracked.empty machine files).run orderly).sharing (run_tidy machine files commands).swept

/-- A segment outlives the source that it was made by, but not the last view of a source that
destroys it. -/
theorem run_sharing_outlived :
    let commands : List Command := [
      .make "first" (.createSegment (.key "k") { size := 8, persistent := true }),
      .use "first" (.region (.clear 7 2 3)),
      .use "first" (.region .release),
      .make "second" (.createSegment (.key "k") { size := 4 }),
      .derive "second" "view" (.slice 1 3),
      .use "second" .drop,
      .use "view" (.region (.read .u8 1 .native)),
      .use "view" .drop]
    (∀ command ∈ commands, command.Orderly) ∧
      (Session.run commands (.initial Host.machine .bare)).2.Sharing ∧
      ((Session.run commands (.initial Host.machine .bare)).2.step
        (.make "third" (.attachSegment (.key "k") { size := 8 }))).1 =
          .fault (.os "shmget" .notFound) := by
  intro commands
  have orderly : ∀ command ∈ commands, command.Orderly := by
    simp [commands, Command.Orderly, Making.Fits]
  have sharing := run_sharing Host.machine .bare orderly
  have free :
      (Session.run commands (.initial Host.machine .bare)).2.store.segmentOf? (.named "k") =
        none := by
    decide +kernel
  exact ⟨orderly, sharing, (sharing.missing rfl (by decide) free (by decide)).1⟩

end Session

end BoundedMemory
