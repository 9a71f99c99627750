import BoundedMemory.Proofs.Uses

/-!
Using handles is coherent with flat memory, and so is copying from one to another.
-/

namespace BoundedMemory.Session

variable {s : Session}

theorem segmentUse_keeps (how : SegmentUse) (r : Region) (a : Attachment)
    (other? : String → Option Attachment) (s : Store) : s.Keeps (how.run r a other? s).2 := by
  cases how with
  | detach =>
      unfold SegmentUse.run
      rw [Operation.settle_snd]
      exact s.onAttachment_keeps (fun _ => Attachment.detach_steps.keeps) r.root
  | destroy =>
      unfold SegmentUse.run
      rw [Operation.settle_snd]
      exact s.onAttachment_keeps (fun _ => Attachment.destroy_steps.keeps) r.root
  | unmap =>
      have keeps := s.unmapSegment_keeps a.mapping
      unfold Operation.after at keeps
      unfold SegmentUse.run
      cases run : Store.unmapSegment a.mapping s with
      | ok _ s' =>
          simp only [run] at keeps
          simpa only [run] using keeps
      | error e s' =>
          simp only [run] at keeps
          simpa only [run] using keeps
  | same name =>
      simp only [SegmentUse.run]
      cases other? name <;> exact .refl s

/-- A use that drops nothing, and leaves all names leading where they led. -/
private theorem performs_of_touches {target : String} {how : Use} {result : Reply × Session}
    (keeps : how ≠ .drop) (apart : result.2.store.Apart) (seats : result.2.seats = s.seats)
    (touches : Touches ((s.handles.find? target).bind fun h => h.touch? how) result.1
      s.store.flat result.2.store.flat) :
    Performs (.use target how) s result := by
  refine ⟨apart, ?_⟩
  cases how with
  | drop => exact absurd rfl keeps
  | _ => exact ⟨touches, seats⟩

/-- Nothing is known by a name that leads to nothing, so nothing changes if it is dropped. -/
private theorem seats_set_missing {target : String} (missing : s.handles.find? target = none) :
    s.seats = s.seats.set target none := by
  funext other
  unfold Seats.set
  by_cases same : other = target
  · simp only [same, if_true, seats, missing, Option.map_none]
  · simp only [same, if_false]

private theorem unfit_performs {target : String} {how : Use} (h : s.store.Apart)
    (misfit : ∀ handle, s.handles.find? target = some handle → ¬ how.Fits s.store handle) :
    Performs (.use target how) s (.noHandle, s) := by
  have untouched : ((s.handles.find? target).bind fun h => h.touch? how) = none := by
    rw [Option.bind_eq_none_iff]
    exact fun handle found => Handle.touch?_of_misfit (misfit handle found)
  cases how with
  | drop =>
      have missing : s.handles.find? target = none :=
        Option.eq_none_iff_forall_not_mem.mpr fun handle found => misfit handle found trivial
      exact ⟨h, rfl, seats_set_missing missing⟩
  | _ => exact performs_of_touches nofun h rfl (by rw [untouched]; rfl)

/-- What a use of the handle behind a name leaves behind. -/
theorem use_performs (target : String) (how : Use) (h : s.store.Apart) :
    Performs (.use target how) s (s.use target how) := by
  have used := s.use_used target how
  generalize s.use target how = result at used ⊢
  cases used with
  | unfit misfit => exact unfit_performs h misfit
  | drop found => exact ⟨h, rfl, seats_erase⟩
  | inspect found => exact performs_of_touches nofun h rfl (by rw [found]; rfl)
  | @region r how found =>
      obtain ⟨apart, touches⟩ := how.touches r s.keyName h
      exact performs_of_touches nofun apart rfl (by rwa [found])
  | @segment r a how found attached =>
      have keeps := segmentUse_keeps how r a (fun name => (s.attachment? name).map Prod.snd) s.store
      exact performs_of_touches nofun (keeps.apart h) rfl (by rw [found]; exact keeps.flat)
  | @cursor c how found =>
      obtain ⟨apart, steady, touches⟩ := how.handled (c := c) h
      refine performs_of_touches nofun apart ?_ (by rwa [found])
      exact seats_rebind (s := { s with store := _ }) found (congrArg Seat.region steady)
  | @reader w how found =>
      obtain ⟨apart, steady, touches⟩ := how.handled (w := w) h
      refine performs_of_touches nofun apart ?_ (by rwa [found])
      exact seats_rebind (s := { s with store := _ }) found (congrArg Seat.region steady)
  | @writer w how found =>
      obtain ⟨apart, steady, touches⟩ := how.handled (w := w) h
      refine performs_of_touches nofun apart ?_ (by rwa [found])
      exact seats_rebind (s := { s with store := _ }) found (congrArg Seat.region steady)

/-- Handles that moved on together lead where they led. -/
private theorem seats_copied {source target : String} {r r' w w' : Window} (store : Store)
    (first : s.handles.find? source = some (.reader r))
    (second : s.handles.find? target = some (.writer w)) (steady : r'.region = r.region)
    (steady' : w'.region = w.region) :
    ((Session.bind source (.reader r') { s with store }).bind target (.writer w')).seats =
      s.seats := by
  have apart : target ≠ source := by
    rintro rfl
    rw [first] at second
    cases second
  have still : (Session.bind source (.reader r') { s with store }).handles.find? target =
      some (.writer w) := by
    rw [← second]
    exact Names.find?_bind_other s.handles (.reader r') apart
  have there : (Handle.reader r').seat = (Handle.reader r).seat := congrArg Seat.region steady
  have there' : (Handle.writer w').seat = (Handle.writer w).seat := congrArg Seat.region steady'
  rw [seats_rebind still there']
  exact seats_rebind (s := { s with store }) first there

theorem copy_performs (source target : String) (h : s.store.Apart) :
    Performs (.copy source target) s (s.copy source target) := by
  cases first : s.handles.find? source with
  | none => simp only [Performs, copy, Coherent, first, h, and_self]
  | some handle =>
      cases second : s.handles.find? target with
      | none => cases handle <;> simp only [Performs, copy, Coherent, first, second, h, and_self]
      | some other =>
          cases handle with
          | reader r =>
              cases other with
              | writer w =>
                  have carries := Stream.copy_carries
                    (c := { store := s.store, source := r, target := w }) h
                  unfold Operation.after at carries
                  simp only [Performs, copy, Coherent, first, second, Operation.settle]
                  cases run : Stream.copy { store := s.store, source := r, target := w } with
                  | ok total after =>
                      simp only [run] at carries
                      obtain ⟨apart, steady, steady', n, carried, counted⟩ := carries
                      obtain ⟨sum, all⟩ := counted total rfl
                      refine ⟨apart, seats_copied _ first second steady steady', n, carried, ?_⟩
                      intro _
                      rw [sum, Nat.zero_add]
                      exact ⟨rfl, all (Nat.lt_succ_self _)⟩
                  | error e after =>
                      simp only [run] at carries
                      obtain ⟨apart, steady, steady', n, carried, -⟩ := carries
                      have seats := seats_copied after.store first second steady steady'
                      cases e <;> exact ⟨apart, seats, n, carried, fun success => by cases success⟩
              | _ => simp only [Performs, copy, Coherent, first, second, h, and_self]
          | _ => simp only [Performs, copy, Coherent, first, second, h, and_self]

end BoundedMemory.Session
