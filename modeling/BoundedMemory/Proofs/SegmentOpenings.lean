import BoundedMemory.Proofs.SegmentEffects

/-!
What is left of an attempt to open a segment that failed. To open a segment takes two
calls to the system: the segment is looked up, which may make it, and it is mapped. When
the second is refused, nothing takes the first back. So a segment that was made for the
attempt stays, under its key, all zero and mapped nowhere; in all other cases the system
is as it was, whichever call was refused, and why.
-/

namespace BoundedMemory

namespace Store

variable {s : Store} {key : SegmentKey}

/-- How often a segment is mapped. -/
def attachCount (s : Store) (g : SegmentId) : Nat :=
  s.mappings.countP fun m => m.live && m.segment = g

/-- Two stores with the same segments, as far as anybody can tell. -/
structure SameSegments (s t : Store) : Prop where
  segments : t.segments = s.segments
  contents (g : SegmentId) : t.flat.arrays (.segment g) = s.flat.arrays (.segment g)
  named (key : SegmentKey) : t.segmentOf? key = s.segmentOf? key
  attachCount (g : SegmentId) : t.attachCount g = s.attachCount g

theorem SameSegments.refl (s : Store) : s.SameSegments s :=
  ⟨rfl, fun _ => rfl, fun _ => rfl, fun _ => rfl⟩

section WithSegment

variable (size : Nat) (flags : SegmentFlags)

theorem not_sameSegments_withSegment : ¬ s.SameSegments (s.withSegment key size flags) := by
  intro same
  have length := congrArg List.length same.segments
  simp [withSegment] at length

/-- A new segment is found under its key, unless that is the anonymous one. -/
theorem segmentOf?_withSegment (free : s.segmentOf? key = none) (other : SegmentKey) :
    (s.withSegment key size flags).segmentOf? other =
      if other = key ∧ key ≠ .anonymous then some s.segments.length else s.segmentOf? other := by
  unfold segmentOf? at free ⊢
  by_cases anonymous : other = .anonymous
  · rw [if_pos anonymous, if_pos anonymous, if_neg]
    rintro ⟨rfl, named⟩
    exact named anonymous
  · rw [if_neg anonymous, if_neg anonymous, withSegment, List.findIdx?_append]
    by_cases same : other = key
    · subst same
      rw [if_neg anonymous] at free
      rw [free, if_pos ⟨rfl, anonymous⟩]
      simp [List.findIdx?_cons]
    · rw [if_neg fun both => same both.1]
      simp [List.findIdx?_cons, Ne.symm same]

/-- A new segment is all zero and mapped nowhere, and nothing happens to the others. -/
theorem withSegment_beside (apart : s.Apart) (mapped : s.Mapped)
    (room : s.machine.hasRoom size = true) :
    let t := s.withSegment key size flags
    t.flat.arrays (.segment s.segments.length) = some (List.replicate size 0) ∧
      t.attachCount s.segments.length = 0 ∧
        ∀ g, g ≠ s.segments.length → t.segments[g]? = s.segments[g]? ∧
          t.flat.arrays (.segment g) = s.flat.arrays (.segment g) ∧
            t.attachCount g = s.attachCount g := by
  intro t
  have flat := (apart.withSegment key size flags).2
  rw [if_pos room] at flat
  refine ⟨by rw [flat]; exact if_pos rfl, ?_, fun g other => ?_⟩
  · refine List.countP_eq_zero.mpr fun m member both => ?_
    obtain ⟨live, new⟩ := Bool.and_eq_true_iff.mp both
    obtain ⟨id, found⟩ := List.getElem?_of_mem member
    obtain ⟨segment, _⟩ := m
    cases live
    cases of_decide_eq_true new
    -- What is mapped had been made before.
    obtain ⟨seg, there, -⟩ := mapped.standing found
    rw [List.getElem?_eq_none (Nat.le_refl _)] at there
    cases there
  · have apart : Home.segment g ≠ .segment s.segments.length := fun same =>
      other (Home.segment.inj same)
    refine ⟨getElem?_concat_other other, ?_, rfl⟩
    rw [flat]
    exact if_neg apart

end WithSegment

/-- What its owner may use is mapped, as far as there is room. -/
theorem mapSegment_run {g : SegmentId} {seg : Segment}
    (found : s.segments[g]? = some seg) (there : seg.phase ≠ .gone)
    (owner : seg.mode.permits SegmentFlags.ownerAccess = true)
    (room : s.machine.hasRoom seg.size = true) :
    mapSegment g s =
      .ok s.mappings.length { s with mappings := s.mappings ++ [{ segment := g }] } := by
  unfold mapSegment
  simp only [Operation.bind_run, Operation.get_run, found, there, owner, room, Bool.not_true,
    Bool.false_eq_true, if_false]
  rfl

end Store

namespace SegmentCalls

/-- A system that does what is documented of its calls, or refuses them. A look-up finds
what the key names, or makes a segment where that is asked for and the key names none; a
mapping is added to those there are. A call that is refused, for whatever reason and in
whatever state, changes nothing. -/
structure Documented (calls : SegmentCalls Store) : Prop where
  find (key : SegmentKey) (size : Nat) (flags : SegmentFlags) (s : Store) :
    (∃ e, calls.find key size flags s = .error e s) ∨
      (∃ g, s.segmentOf? key = some g ∧ calls.find key size flags s = .ok g s) ∨
        s.segmentOf? key = none ∧ (key = .anonymous ∨ flags.has SegmentFlags.create = true) ∧
          calls.find key size flags s = .ok s.segments.length (s.withSegment key size flags)
  map (g : SegmentId) (s : Store) :
    (∃ e, calls.map g s = .error e s) ∨
      calls.map g s = .ok s.mappings.length { s with mappings := s.mappings ++ [{ segment := g }] }

/-- A call that is refused wherever there is a reason to. -/
def unlessRefused {σ α : Type} (reason : σ → Option OsError) (call : EStateM OsError σ α) :
    EStateM OsError σ α := fun s =>
  match reason s with
  | some e => .error e s
  | none => call s

theorem unlessRefused_cases {σ α : Type} (reason : σ → Option OsError)
    (call : EStateM OsError σ α) (s : σ) :
    (∃ e, unlessRefused reason call s = .error e s) ∨ unlessRefused reason call s = call s := by
  unfold unlessRefused
  cases reason s with
  | some e => exact .inl ⟨e, rfl⟩
  | none => exact .inr rfl

/-- The same system, which also refuses to find and to map whatever there is a reason
not to. -/
def refusing {σ : Type} (calls : SegmentCalls σ)
    (find : SegmentKey → Nat → SegmentFlags → σ → Option OsError)
    (map : SegmentId → σ → Option OsError) : SegmentCalls σ :=
  { calls with
    find := fun key size flags => unlessRefused (find key size flags) (calls.find key size flags)
    map := fun g => unlessRefused (map g) (calls.map g) }

theorem Documented.refusing {calls : SegmentCalls Store} (documented : calls.Documented)
    (find : SegmentKey → Nat → SegmentFlags → Store → Option OsError)
    (map : SegmentId → Store → Option OsError) : (calls.refusing find map).Documented where
  find key size flags s := by
    obtain refused | call := unlessRefused_cases (find key size flags) (calls.find key size flags) s
    · exact .inl refused
    · have answer : (calls.refusing find map).find key size flags s = calls.find key size flags s :=
        call
      rw [answer]
      exact documented.find key size flags s
  map g s := by
    obtain refused | call := unlessRefused_cases (map g) (calls.map g) s
    · exact .inl refused
    · have answer : (calls.refusing find map).map g s = calls.map g s := call
      rw [answer]
      exact documented.map g s

end SegmentCalls

theorem Store.segmentCalls_documented : Store.segmentCalls.Documented where
  find key size flags s := by
    obtain ⟨e, find⟩ | ⟨g, -, names, -, -, find⟩ | ⟨free, wanted, find⟩ :=
      findSegment_cases key size flags s
    · exact .inl ⟨e, find⟩
    · exact .inr (.inl ⟨g, names, find⟩)
    · obtain ⟨e, make⟩ | ⟨-, -, make⟩ := newSegment_cases key size flags s
      · exact .inl ⟨e, find.trans make⟩
      · exact .inr (.inr ⟨free, wanted, find.trans make⟩)
  map g s := by
    obtain ⟨e, map⟩ | ⟨-, -, -, -, map⟩ := mapSegment_cases g s
    · exact .inl ⟨e, map⟩
    · exact .inr map

/-- An attempt to open a segment. Its key was given, or comes of `SegmentKey.derive` with a
file, which may give none. -/
structure Opening where
  key : Except Fault SegmentKey
  options : SegmentOptions
  /-- Whether a segment is to be made where the key names none. -/
  creates : Bool

namespace Opening

variable {σ : Type}

def run (o : Opening) (calls : SegmentCalls σ) : Action σ Attachment := do
  let key ← o.key
  if o.creates then o.options.create calls key else o.options.attach calls key

/-- The flags that the segment is looked up with. -/
def flags (o : Opening) : SegmentFlags :=
  if o.creates then o.options.flags ||| SegmentFlags.create else o.options.flags

/-- The attempt makes a segment, as its key names none, and then cannot map it. -/
def Strands (o : Opening) (calls : SegmentCalls Store) (s : Store) : Prop :=
  ∃ key g t, o.key = .ok key ∧ s.segmentOf? key = none ∧
    calls.find key o.options.size o.flags s = .ok g t ∧ ∃ e u, calls.map g t = .error e u

variable {calls : SegmentCalls Store} {o : Opening} {s t : Store} {key : SegmentKey}

theorem run_of_key (keyed : o.key = .ok key) (calls : SegmentCalls Store) (s : Store) :
    o.run calls s =
      match calls.find key o.options.size o.flags s with
      | .error e s₁ => .error (.fault (.os "shmget" e)) s₁
      | .ok segment s₁ =>
          match calls.map segment s₁ with
          | .error e s₂ => .error (.fault (.os "shmat" e)) s₂
          | .ok mapping s₂ => .ok {
              key, segment, mapping
              destroyOnRelease := o.creates && !o.options.persistent } s₂ := by
  unfold run flags
  rw [keyed, Operation.bind_run, Operation.accepted_run]
  cases o.creates with
  | false => exact Attachment.lookUp_run calls key _ _ _ s
  | true => exact Attachment.lookUp_run calls key _ _ _ s

theorem strands_iff (keyed : o.key = .ok key) (calls : SegmentCalls Store) (s : Store) :
    o.Strands calls s ↔ s.segmentOf? key = none ∧ ∃ g t,
      calls.find key o.options.size o.flags s = .ok g t ∧ ∃ e u, calls.map g t = .error e u := by
  unfold Strands
  constructor
  · rintro ⟨other, g, t, resolved, rest⟩
    cases keyed.symm.trans resolved
    exact ⟨rest.1, g, t, rest.2⟩
  · rintro ⟨free, g, t, refused⟩
    exact ⟨key, g, t, keyed, free, refused⟩

/-- What an attempt comes to. Only what it made itself is left by one that fails. -/
theorem run_cases (documented : calls.Documented) (o : Opening) (s : Store) :
    (∃ a t, o.run calls s = .ok a t) ∨
      (¬ o.Strands calls s ∧ ∃ cause, o.run calls s = .error (.fault cause) s) ∨
        ∃ key e, o.key = .ok key ∧ s.segmentOf? key = none ∧
          (key = .anonymous ∨ o.flags.has SegmentFlags.create = true) ∧ o.Strands calls s ∧
            o.run calls s = .error (.fault (.os "shmat" e))
              (s.withSegment key o.options.size o.flags) := by
  cases keyed : o.key with
  | error cause =>
      refine .inr (.inl ⟨?_, cause, ?_⟩)
      · rintro ⟨key, -, -, resolved, -⟩
        cases keyed.symm.trans resolved
      · rw [run, keyed, Operation.bind_run, Operation.refused_run]
  | ok key =>
      have run := run_of_key keyed calls s
      have strands := strands_iff keyed calls s
      obtain ⟨e, find⟩ | ⟨g, names, find⟩ | ⟨free, wanted, find⟩ :=
        documented.find key o.options.size o.flags s
      · simp only [find] at run strands
        exact .inr (.inl ⟨by simp [strands], _, run⟩)
      · obtain ⟨e, map⟩ | map := documented.map g s
        · simp only [find, map] at run
          refine .inr (.inl ⟨fun stranded => ?_, _, run⟩)
          cases names.symm.trans (strands.mp stranded).1
        · simp only [find, map] at run
          exact .inl ⟨_, _, run⟩
      · obtain ⟨e, map⟩ | map := documented.map s.segments.length
          (s.withSegment key o.options.size o.flags)
        · simp only [find, map] at run
          have stranded := strands.mpr ⟨free, _, _, find, e, _, map⟩
          exact .inr (.inr ⟨key, e, rfl, free, wanted, stranded, run⟩)
        · simp only [find, map] at run
          exact .inl ⟨_, _, run⟩

/-- Whatever is refused, and in whatever state, an attempt that fails leaves the system as it
was, unless it stranded a segment of its own. Then that segment is what is left, and the
mapping is what failed. -/
theorem fails_clean_iff (documented : calls.Documented) {stop : Stop Fault}
    (fails : o.run calls s = .error stop t) :
    (s.SameSegments t ↔ ¬ o.Strands calls s) ∧
      (¬ o.Strands calls s → t = s ∧ ∃ cause, stop = .fault cause) ∧
      (o.Strands calls s → ∃ key e, o.key = .ok key ∧
        (key = .anonymous ∨ o.flags.has SegmentFlags.create = true) ∧
        stop = .fault (.os "shmat" e) ∧ t = s.withSegment key o.options.size o.flags) := by
  obtain ⟨a, u, opens⟩ | ⟨spared, cause, clean⟩ | ⟨key, e, keyed, -, wanted, strands, leaves⟩ :=
    run_cases documented o s
  · rw [opens] at fails
    cases fails
  · rw [clean] at fails
    cases fails
    exact ⟨iff_of_true (.refl s) spared, fun _ => ⟨rfl, cause, rfl⟩,
      fun strands => absurd strands spared⟩
  · rw [leaves] at fails
    cases fails
    exact ⟨iff_of_false (Store.not_sameSegments_withSegment _ _) fun spared => spared strands,
      fun spared => absurd strands spared, fun _ => ⟨key, e, keyed, wanted, rfl, rfl⟩⟩

/-- A system may lack memory for a mapping alone. -/
theorem fails_clean_iff_outOfMemory :
    ∃ calls : SegmentCalls Store, calls.Documented ∧ ∃ t : Store,
      (⟨.ok (.named "K"), { size := 16 }, true⟩ : Opening).run calls { machine := Host.machine } =
        .error (.fault (.os "shmat" .outOfMemory)) t ∧
          ¬ ({ machine := Host.machine } : Store).SameSegments t := by
  have documented := Store.segmentCalls_documented.refusing (fun _ _ _ _ => none)
    fun _ _ => some .outOfMemory
  have clean := (fails_clean_iff documented
    (o := ⟨.ok (.named "K"), { size := 16 }, true⟩) (s := { machine := Host.machine }) rfl).1
  exact ⟨_, documented, _, rfl, fun same => clean.mp same ⟨_, _, _, rfl, rfl, rfl, _, _, rfl⟩⟩

/-- As far as there is room, what is made with its owner's access is mapped: under the
default flags nothing is ever stranded on this host. -/
theorem not_strands_of_owner (owner : (o.flags &&& 0o777).permits SegmentFlags.ownerAccess = true)
    (room : s.machine.hasRoom o.options.size = true) : ¬ o.Strands Store.segmentCalls s := by
  rintro ⟨key, g, t, -, free, found, e, u, refused⟩
  obtain ⟨_, find⟩ | ⟨_, names, -⟩ | ⟨-, -, find⟩ :=
    Store.segmentCalls_documented.find key o.options.size o.flags s
  · cases found.symm.trans find
  · cases free.symm.trans names
  · cases found.symm.trans find
    have new := s.withSegment_new key o.options.size o.flags
    cases refused.symm.trans (Store.mapSegment_run new nofun owner room)

example : ((SegmentFlags.ownerAccess ||| SegmentFlags.create) &&& 0o777).permits
    SegmentFlags.ownerAccess = true := by decide

/-- An attempt under a key that failed, whatever the system was like then. -/
def Failed (key : SegmentKey) (s t : Store) : Prop :=
  ∃ (calls : SegmentCalls Store) (o : Opening) (stop : Stop Fault), calls.Documented ∧
    o.key = .ok key ∧ o.run calls s = .error stop t

/-- However often it is tried in vain, under one key no more than one segment is left. -/
theorem retries_leave_one (named : key ≠ .anonymous)
    (tries : Relation.ReflTransGen (Failed key) s t) :
    t = s ∨ s.segmentOf? key = none ∧ ∃ size flags, t = s.withSegment key size flags := by
  induction tries with
  | refl => exact .inl rfl
  | @tail between after _ failed ih =>
      obtain ⟨calls, o, stop, documented, keyed, fails⟩ := failed
      obtain ⟨a, u, opens⟩ | ⟨-, cause, clean⟩ | ⟨other, e, resolved, free, -, -, leaves⟩ :=
        run_cases documented o between
      · cases fails.symm.trans opens
      · cases fails.symm.trans clean
        exact ih
      · cases fails.symm.trans leaves
        cases keyed.symm.trans resolved
        -- What was left before has the key, so that no other segment is made under it.
        obtain rfl | ⟨free', size, flags, rfl⟩ := ih
        · exact .inr ⟨free, _, _, rfl⟩
        · rw [Store.segmentOf?_withSegment size flags free' key, if_pos ⟨rfl, named⟩] at free
          cases free

end Opening

namespace Session

/-- The attempt that a command makes to open a segment. -/
def opening? (s : Session) : Making → Option Opening
  | .attachSegment place options =>
      some { key := (s.placeKey place).1, options, creates := false }
  | .createSegment place options =>
      some { key := (s.placeKey place).1, options, creates := true }
  | _ => none

variable {s : Session} {cause : Fault} {t : Store}

private theorem bindSegment_of_failed {place : SegmentPlace} {size : Nat}
    {attach : SegmentKey → Action Store Attachment} (name : String)
    (fails : (do attach (← (s.placeKey place).1) : Action Store Attachment) s.store =
      .error (.fault cause) t) :
    let result := s.bindSegment name place fun key => Region.ofAttachment size (attach key)
    result.1 = .fault cause ∧ result.2.store = t := by
  have beside := s.placeKey_alongside place
  unfold bindSegment
  rcases at_place : s.placeKey place with ⟨found, after⟩
  rw [at_place] at beside fails
  have store : after.store = s.store := beside.store
  cases found with
  | error cause' =>
      cases fails
      exact ⟨rfl, store⟩
  | ok key =>
      simp only [Operation.bind_run, Operation.accepted_run] at fails
      simp [bindRegion, bindMade, Region.ofAttachment, Operation.bind_run, store, fails]

/-- A session reports an attempt that fails, and goes on with what is left of it. -/
theorem make_of_failed {what : Making} {o : Opening} (opens : s.opening? what = some o)
    (name : String) (fails : o.run Store.segmentCalls s.store = .error (.fault cause) t) :
    (s.make name what).1 = .fault cause ∧ (s.make name what).2.store = t := by
  cases what <;> cases opens
  · exact bindSegment_of_failed name fails
  · exact bindSegment_of_failed name fails

/-- A segment made without any permissions cannot be mapped even by its owner, and is there
from then on. -/
theorem failed_creation_stays :
    (run [
      .ask (.segmentExists "K"),
      .make "s" (.createSegment (.key "K") { size := 16, flags := 0 }),
      .ask (.segmentExists "K")] (.initial Host.machine .bare)).1 =
      [.flag false, .fault (.os "shmat" .accessDenied), .flag true] := by
  rfl

end Session

end BoundedMemory
