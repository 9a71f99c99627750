import BoundedMemory.Proofs.Records
import BoundedMemory.Proofs.Resting

/-!
Commands through handles that may change places. A command that ends nothing looks at the
handles it names, at what is known of roots and buffers, and at the bytes of one touch; it
changes these bytes, and of the handles only a cursor or stream that it moves and what it
derives. So two such commands of which neither names what the other changes reply the same and
leave the same, whichever comes first, as long as both only read or no byte is touched by both.
-/

namespace BoundedMemory

namespace Names

variable {α : Type} {names names' : List String} {change change' : Names α → Names α}

/-- A change of a table under some names only, and of each name by what it meant before. -/
structure Within (names : List String) (change : Names α → Names α) : Prop where
  elsewhere (table : Names α) {name : String} :
    name ∉ names → (change table).find? name = table.find? name
  entrywise {table table' : Names α} {name : String} :
    table.find? name = table'.find? name → (change table).find? name = (change table').find? name

theorem Within.same : Within names (id : Names α → Names α) where
  elsewhere _ _ _ := rfl
  entrywise same := same

theorem Within.bind {name : String} (member : name ∈ names) (a : α) :
    Within names fun table => table.bind name a where
  elsewhere table other apart := find?_bind_other table a fun same => apart (same ▸ member)
  entrywise {table table' other} same := by
    by_cases here : other = name
    · rw [here, find?_bind_same, find?_bind_same]
    · rw [find?_bind_other _ a here, find?_bind_other _ a here, same]

theorem Within.erase {name : String} (member : name ∈ names) :
    Within names fun table : Names α => table.erase name where
  elsewhere table other apart := find?_erase_other table fun same => apart (same ▸ member)
  entrywise {table table' other} same := by
    by_cases here : other = name
    · rw [here, find?_erase_same, find?_erase_same]
    · rw [find?_erase_other _ here, find?_erase_other _ here, same]

theorem Within.comp (within : Within names change) (within' : Within names change') :
    Within names fun table => change' (change table) where
  elsewhere table _ apart := (within'.elsewhere _ apart).trans (within.elsewhere table apart)
  entrywise same := within'.entrywise (within.entrywise same)

/-- Changes under different names may change places. -/
theorem Within.comm (within : Within names change) (within' : Within names' change')
    (apart : ∀ name ∈ names, name ∉ names') (table : Names α) (name : String) :
    (change' (change table)).find? name = (change (change' table)).find? name := by
  by_cases member : name ∈ names
  · rw [within'.elsewhere _ (apart name member)]
    exact within.entrywise (within'.elsewhere table (apart name member)).symm
  · rw [within.elsewhere _ member]
    exact within'.entrywise (within.elsewhere table member)

end Names

/-- The handles that a use looks at besides its own. Uses that may end something are no uses to
speak of here. -/
def Use.others? : Use → Option (List String)
  | .drop | .region .release | .segment .detach | .segment .destroy | .segment .unmap => none
  | .segment (.same other) => some [other]
  | _ => some []

/-- The names that a command through a handle is about: those of the handles, and the one under
which a new handle is to be found. Other commands have none. -/
def Command.names? : Command → Option (List String)
  | .use target how => how.others?.map (target :: ·)
  | .derive source name _ => some [source, name]
  | .unusable target _ => some [target]
  | .make .. | .copy .. | .ask _ => none

/-- The names under which a command may leave another handle than it found, or one where there
was none. What is done through a region leaves the region what it is. -/
def Command.rebinds : Command → List String
  | .use target (.cursor _) | .use target (.reader _) | .use target (.writer _) => [target]
  | .derive source name .intoRegion => [source, name]
  | .derive _ name _ => [name]
  | _ => []

/-- A command looks at what it may bind anew. -/
theorem Command.rebinds_subset {command : Command} {names : List String}
    (named : command.names? = some names) : command.rebinds ⊆ names := by
  cases command with
  | use target how =>
      obtain ⟨others, -, rfl⟩ := Option.map_eq_some_iff.mp named
      cases how <;> simp [rebinds]
  | derive source name how =>
      cases named
      cases how <;> simp [rebinds]
  | _ => simp [rebinds]

/-- What is left of a table once a derivation has begun: one way of it gives its source up. -/
def Deriving.spared (how : Deriving) (source : String) (table : Names Handle) : Names Handle :=
  match how with
  | .intoRegion => table.erase source
  | _ => table

/-- A command that binds no name which means something already. -/
def Command.Fresh (s : Session) : Command → Prop
  | .derive _ name _ => s.handles.find? name = none
  | _ => True

/-- The touch that a command comes down to, if there is one and it is not refused. -/
def Command.touch? (command : Command) (s : Session) : Option Touch :=
  match command with
  | .use target how =>
      if (s.use target how).1.isRefusal then none
      else (s.handles.find? target).bind fun h => h.touch? how
  | _ => none

/-- Commands that touch no byte in common, or both only read. -/
def Session.Independent (s : Session) (A B : Command) : Prop :=
  ∀ τ τ', A.touch? s = some τ → B.touch? s = some τ' → Touch.Clear s.store τ τ'

namespace Session

variable {s t : Session} {A B : Command} {names names' rebound : List String}
  {name target : String}

/-- Sessions in which some names mean the same, and of which the rest that a command through
these names can look at differs in nothing but what is in memory. -/
structure Akin (names : List String) (s t : Session) : Prop where
  store : s.store.Resembles t.store
  handles : ∀ name ∈ names, t.handles.find? name = s.handles.find? name
  keys : t.keys = s.keys

theorem Akin.refl (s : Session) : s.Akin names s where
  store := .refl s.store
  handles _ _ := rfl
  keys := rfl

/-- What a command makes of a store and of a table of handles. -/
abbrev Effect := Store → Reply × Store × (Names Handle → Names Handle)

def undergo (s : Session) (effect : Effect) : Reply × Session :=
  ((effect s.store).1,
    { s with store := (effect s.store).2.1, handles := (effect s.store).2.2 s.handles })

/-- What a step does to all sessions that are akin to `s` in some names: one and the same, which
rests on a touch at most and changes the table under some names only. -/
def Affects (names rebound : List String) (s : Session) (touch? : Option Touch)
    (step : Session → Reply × Session) : Prop :=
  ∃ effect : Effect, Rests s.store touch? effect ∧
    (∀ store, Names.Within rebound (effect store).2.2) ∧
      ∀ t, s.Akin names t → step t = t.undergo effect

namespace Affects

variable {touch? : Option Touch} {step : Session → Reply × Session}

/-- A step that does not look at memory. -/
theorem aloof (reply : Reply) {change : Names Handle → Names Handle}
    (within : Names.Within rebound change)
    (same : ∀ t, s.Akin names t → step t = (reply, { t with handles := change t.handles })) :
    Affects names rebound s touch? step :=
  ⟨fun store => (reply, store, change), .aloof reply change fun _ _ => rfl, fun _ => within, same⟩

/-- A step that leaves everything as it is. -/
theorem idle (reply : Reply) (same : ∀ t, s.Akin names t → step t = (reply, t)) :
    Affects names rebound s touch? step :=
  .aloof reply .same same

/-- A step that rests on a touch and may move the handle. -/
theorem rebind {β : Type} {run : Store → Reply × Store × β} (rests : Rests s.store touch? run)
    (member : target ∈ rebound) (handle : β → Handle)
    (same : ∀ t, s.Akin names t → step t = ((run t.store).1,
      { t with store := (run t.store).2.1 }.bind target (handle (run t.store).2.2))) :
    Affects names rebound s touch? step := by
  let change (b : β) (table : Names Handle) : Names Handle := table.bind target (handle b)
  exact ⟨_, rests.map change, fun _ => .bind member _, same⟩

end Affects

/-- What is shown of a handle is known without memory. -/
theorem inspect_akin (alike : s.store.Resembles t.store) (h : Handle) :
    t.inspect h = s.inspect h := by
  have shown (r : Region) : Inspect.region t.store r = Inspect.region s.store r := by
    unfold Inspect.region
    rw [alike.roots]
  cases h with
  | buffer id => simp only [inspect, alike.buffers]
  | _ =>
      simp only [inspect, Inspect.cursor, Inspect.reader, Inspect.writer, Inspect.window, shown]

theorem attachment?_akin (akin : s.Akin names t) (member : name ∈ names) :
    t.attachment? name = s.attachment? name := by
  unfold Session.attachment? Region.attachment?
  rw [akin.handles name member, akin.store.roots]

private theorem use_affects {how : Use} (named : (Command.use target how).names? = some names) :
    Affects names (Command.use target how).rebinds s
      ((s.handles.find? target).bind fun h => h.touch? how) (use target how) := by
  obtain ⟨others, looks, rfl⟩ := Option.map_eq_some_iff.mp named
  have member : target ∈ target :: others := List.mem_cons_self
  cases found : s.handles.find? target with
  | none =>
      refine .idle .noHandle fun t akin => ?_
      have absent := (akin.handles target member).trans found
      cases how <;> simp only [use, absent]
  | some h =>
      have there (t : Session) (akin : s.Akin (target :: others) t) :
          t.handles.find? target = some h :=
        (akin.handles target member).trans found
      cases how with
      | drop => cases looks
      | inspect =>
          refine .idle (s.inspect h) fun t akin => ?_
          simp only [use, there t akin, inspect_akin akin.store]
      | region how =>
          cases h with
          | region r =>
              have kept : how ≠ .release := by
                rintro rfl
                cases looks
              refine ⟨_, (how.rests r s.keyName s.store kept).map fun _ => id, fun _ => .same,
                fun t akin => ?_⟩
              have names : t.keyName = s.keyName := by
                funext key
                unfold keyName
                rw [akin.keys]
              simp only [use, there t akin, names]
              rfl
          | _ => exact .idle .noHandle fun t akin => by simp only [use, there t akin]
      | segment how =>
          cases how with
          | same other =>
              cases looks
              cases h with
              | region r =>
                  have attachment (t : Session) (akin : s.Akin [target, other] t) :
                      r.attachment? t.store = r.attachment? s.store := by
                    unfold Region.attachment?
                    rw [akin.store.roots]
                  cases attached : r.attachment? s.store with
                  | none =>
                      exact .idle .noHandle fun t akin => by
                        simp only [use, there t akin, attachment t akin, attached]
                  | some a =>
                      have sibling (t : Session) (akin : s.Akin [target, other] t) :
                          t.attachment? other = s.attachment? other :=
                        attachment?_akin akin (List.mem_cons_of_mem _ List.mem_cons_self)
                      cases b? : s.attachment? other with
                      | none =>
                          exact .idle .noHandle fun t akin => by
                            simp only [use, there t akin, attachment t akin, attached,
                              SegmentUse.run, sibling t akin, b?, Option.map_none]
                      | some b =>
                          exact .idle (.flag (a.segment = b.2.segment)) fun t akin => by
                            simp only [use, there t akin, attachment t akin, attached,
                              SegmentUse.run, sibling t akin, b?, Option.map_some]
              | _ => exact .idle .noHandle fun t akin => by simp only [use, there t akin]
          | _ => cases looks
      | cursor how =>
          cases h with
          | cursor c =>
              refine .rebind (how.rests c s.store) List.mem_cons_self .cursor fun t akin => ?_
              simp only [use, there t akin]
          | _ => exact .idle .noHandle fun t akin => by simp only [use, there t akin]
      | reader how =>
          cases h with
          | reader w =>
              refine .rebind (how.rests w s.store) List.mem_cons_self .reader fun t akin => ?_
              simp only [use, there t akin]
          | _ => exact .idle .noHandle fun t akin => by simp only [use, there t akin]
      | writer how =>
          cases h with
          | writer w =>
              refine .rebind (how.rests w s.store) List.mem_cons_self .writer fun t akin => ?_
              simp only [use, there t akin]
          | _ => exact .idle .noHandle fun t akin => by simp only [use, there t akin]

private theorem derive_affects (source name : String) (how : Deriving) :
    Affects [source, name] (Command.derive source name how).rebinds s none
      (derive source name how) := by
  have same (t : Session) (akin : s.Akin [source, name] t) :
      ((t.handles.find? source).bind fun h => derivation? how h t.store) =
        (s.handles.find? source).bind fun h => derivation? how h s.store := by
    rw [akin.handles source List.mem_cons_self]
    unfold derivation? ofRegion? Region.parent?
    rw [akin.store.roots]
  cases found : (s.handles.find? source).bind fun h => derivation? how h s.store with
  | none => exact .idle .noHandle fun t akin => by simp only [derive, same t akin, found]
  | some make =>
      obtain ⟨h, -, derives⟩ := Option.bind_eq_some_iff.mp found
      have run (t : Session) (akin : s.Akin [source, name] t) : t.derive source name how =
          bindMade name make { t with handles := how.spared source t.handles } := by
        simp only [derive, same t akin, found]
        cases how <;> rfl
      have spared : Names.Within (Command.derive source name how).rebinds
          (how.spared source) := by
        cases how with
        | intoRegion => exact .erase List.mem_cons_self
        | _ => exact .same
      have agree (t : Session) (akin : s.Akin [source, name] t) :=
        (derivation_oblivious derives s.store t.store akin.store).cases
      cases made : make s.store with
      | ok handle s' =>
          have member : name ∈ (Command.derive source name how).rebinds := by
            cases how <;> simp [Command.rebinds]
          have bound : Names.Within (Command.derive source name how).rebinds
              fun table : Names Handle => (how.spared source table).bind name handle :=
            spared.comp (.bind member handle)
          refine .aloof .bound bound fun t akin => ?_
          obtain ⟨_, _, t', run₁, run₂, -⟩ | ⟨_, _, _, run₁, -⟩ := agree t akin
          · rw [made] at run₁
            cases run₁
            have still := derive_store source name how t
            rw [run t akin] at still ⊢
            simp only [bindMade, run₂, Session.bind] at still ⊢
            rw [still]
          · rw [made] at run₁
            cases run₁
      | error e s' =>
          refine .aloof (e.reply .fault) spared fun t akin => ?_
          obtain ⟨_, _, _, run₁, -⟩ | ⟨_, _, t', run₁, run₂, -⟩ := agree t akin
          · rw [made] at run₁
            cases run₁
          · rw [made] at run₁
            cases run₁
            have still := derive_store source name how t
            rw [run t akin] at still ⊢
            cases e <;>
              · simp only [bindMade, run₂, Stop.reply] at still ⊢
                rw [still]

/-- A command through a handle does the same to all sessions in which its names mean the same,
and rests on the touch of the handle. -/
private theorem perform_affects (named : A.names? = some names) :
    ∃ touch? : Option Touch, Affects names A.rebinds s touch? (perform A) ∧
      ((s.perform A).1.isRefusal = false → A.touch? s = touch?) := by
  cases A with
  | use target how =>
      refine ⟨_, use_affects named, fun passed => ?_⟩
      simp only [perform] at passed
      simp only [Command.touch?, passed, Bool.false_eq_true, if_false]
  | derive source name how =>
      cases named
      exact ⟨none, derive_affects source name how, fun _ => rfl⟩
  | unusable target kind =>
      cases named
      refine ⟨none, .idle (s.refuse target kind) fun t akin => ?_, fun _ => rfl⟩
      simp only [perform, refuse, akin.handles target List.mem_cons_self]
  | _ => cases named

/-- A derivation keeps hold of all that was held. -/
private theorem Swept.derived (swept : s.Swept) (faithful : s.handles.Faithful)
    (faithful' : t.handles.Faithful) (store : t.store = s.store) {source : String} {how : Deriving}
    {h : Handle} {r : Region} (found : s.handles.find? source = some h)
    (derived : h.derived? how s.store.flat = some r) (fresh : s.handles.find? name = none)
    (seats : t.seats = (how.begun source s.seats).set name (some (.region r))) : t.Swept := by
  obtain ⟨r₀, seat, rooted, -⟩ := Handle.derived?_cases derived
  have bound : t.seats name = some (.region r) := by
    rw [seats]
    exact if_pos rfl
  -- Whatever a name leads to it still leads to, or it was the source and the new name does.
  have kept (other : String) (place : Seat) (leads : s.seats other = some place) :
      t.seats other = some place ∨ place = .region r₀ := by
    have different : other ≠ name := by
      rintro rfl
      simp only [Session.seats, fresh, Option.map_none] at leads
      cases leads
    rw [seats, Seats.set, if_neg different]
    rcases how.begun_cases source s.seats other with same | ⟨rfl, -⟩
    · exact .inl (same.trans leads)
    · right
      simp only [Session.seats, found, Option.map_some, Option.some.injEq] at leads
      exact leads.symm.trans seat
  constructor
  · intro id held
    rw [store] at held
    obtain ⟨other, q, leads, rfl⟩ := (reaches_iff faithful).mp (swept.roots id held)
    rw [reaches_iff faithful']
    rcases kept other _ leads with same | given
    · exact ⟨other, q, same, rfl⟩
    · cases given
      exact ⟨name, r, bound, rooted⟩
  · intro id alive
    rw [store] at alive
    rw [holds_iff faithful', store]
    refine ((holds_iff faithful).mp (swept.buffers id alive)).imp_left ?_
    rintro ⟨other, leads⟩
    rcases kept other _ leads with same | given
    · exact ⟨other, same⟩
    · cases given

/-- There is nothing to sweep after a command through a handle. -/
private theorem Tidy.perform (tidy : s.Tidy) (named : A.names? = some names) (fresh : A.Fresh s) :
    (s.perform A).2.Tidy := by
  have faithful := perform_faithful A tidy.faithful
  cases A with
  | use target how =>
      obtain ⟨apart, coherent⟩ := use_performs target how tidy.apart
      obtain ⟨_, ⟨effect, rests, -, same⟩, -⟩ := perform_affects (s := s) named
      have alike : s.store.Resembles (s.use target how).2.store := by
        have run : s.use target how = s.undergo effect := same s (.refl s)
        rw [run]
        exact rests.resembles (.refl s.store)
      have seats : (s.use target how).2.seats = s.seats := by
        cases how with
        | drop => cases named
        | _ => exact coherent.2
      exact ⟨apart, faithful, tidy.swept.of_seats tidy.faithful faithful seats alike⟩
  | derive source name how =>
      have performs : Performs (.derive source name how) s (s.derive source name how) :=
        derive_performs source how tidy.apart
      obtain ⟨apart, -, coherent⟩ := performs
      have store := derive_store source name how s
      refine ⟨apart, faithful, ?_⟩
      split at coherent
      · obtain ⟨h, r, found, derived, seats⟩ := coherent
        exact tidy.swept.derived tidy.faithful faithful store found derived fresh seats
      · have alike : s.store.Resembles (s.derive source name how).2.store := by
          rw [store]
          exact .refl s.store
        exact tidy.swept.of_seats tidy.faithful faithful coherent alike
  | unusable target kind => exact tidy
  | _ => cases named

/-- What a command has left of a session: all that is known of roots and buffers, and all handles
but under some names as they were. -/
structure Spares (rebound : List String) (s s' : Session) : Prop where
  store : s.store.Resembles s'.store
  handles {name : String} : name ∉ rebound → s'.handles.find? name = s.handles.find? name
  others : s' = { s with store := s'.store, handles := s'.handles }

/-- What a command about other names finds is akin to what it would have found before. -/
theorem Spares.akin (spares : s.Spares rebound t) (apart : ∀ name ∈ names, name ∉ rebound) :
    s.Akin names t where
  store := spares.store
  handles name member := spares.handles (apart name member)
  keys := by rw [spares.others]

/-- A name that means nothing still means nothing after a command about others. -/
private theorem Spares.fresh (spares : s.Spares rebound t) (fresh : B.Fresh s)
    (named : B.names? = some names) (apart : ∀ name ∈ names, name ∉ rebound) : B.Fresh t := by
  cases B with
  | derive source name how =>
      cases named
      exact (spares.handles (apart name (by simp))).trans fresh
  | _ => trivial

/-- With nothing to sweep, a step is what it does to all sessions akin. -/
private theorem step_affects (named : A.names? = some names) :
    ∃ (touch? : Option Touch) (effect : Effect), Rests s.store touch? effect ∧
      (∀ t, t.Tidy → A.Fresh t → s.Akin names t →
        t.step A = t.undergo effect ∧ t.Spares A.rebinds (t.step A).2) ∧
      (∀ store, Names.Within A.rebinds (effect store).2.2) ∧
      ((effect s.store).1.isRefusal = false → A.touch? s = touch?) := by
  obtain ⟨touch?, ⟨effect, rests, within, same⟩, touched⟩ := perform_affects (s := s) named
  refine ⟨touch?, effect, rests, fun t tidy fresh akin => ?_, within, fun passed => touched ?_⟩
  · have step : t.step A = t.undergo effect := by
      rw [← same t akin]
      show ((t.perform A).1, (t.perform A).2.sweep) = t.perform A
      rw [(tidy.perform named fresh).swept.sweep_eq]
    rw [step]
    refine ⟨rfl, ?_, (within t.store).elsewhere t.handles, rfl⟩
    exact akin.store.symm.trans (rests.resembles akin.store)
  · rw [same s (.refl s)]
    exact passed

/-- Two commands of which neither tells whether the other has come before it, and after which
everything is the same whichever was first. -/
structure Commute (s : Session) (A B : Command) : Prop where
  first : ((s.step B).2.step A).1 = (s.step A).1
  second : ((s.step A).2.step B).1 = (s.step B).1
  store : ((s.step A).2.step B).2.store = ((s.step B).2.step A).2.store
  handles (name : String) : ((s.step A).2.step B).2.handles.find? name =
    ((s.step B).2.step A).2.handles.find? name
  others : ((s.step A).2.step B).2 =
    { ((s.step B).2.step A).2 with handles := ((s.step A).2.step B).2.handles }

/-- In any session that a run leads to, take two commands through handles that end nothing, bind
no name that means something already, and of which neither names what the other may bind anew,
as is so for accesses through different handles. Each of them leaves all handles as they were
but what it may bind anew. If no byte is touched by both, or both only read, then each has the
reply that it would have had alone, and all bytes and all handles are the same in the end,
whichever came first. -/
theorem run_commute {machine : Machine} {files : FileTree} {before : List Command}
    (reached : (Session.run before (.initial machine files)).2 = s) (named : A.names? = some names)
    (named' : B.names? = some names') (apart : ∀ name ∈ names, name ∉ B.rebinds)
    (apart' : ∀ name ∈ names', name ∉ A.rebinds) (fresh : A.Fresh s) (fresh' : B.Fresh s) :
    s.Spares A.rebinds (s.step A).2 ∧ s.Spares B.rebinds (s.step B).2 ∧
      (s.Independent A B → s.Commute A B) := by
  have tidy : s.Tidy := reached ▸ run_tidy machine files before
  have different : ∀ name ∈ A.rebinds, name ∉ B.rebinds := fun name member =>
    apart name (Command.rebinds_subset named member)
  obtain ⟨touch?, effect, rests, same, within, touched⟩ := step_affects (s := s) named
  obtain ⟨touch'?, effect', rests', same', within', touched'⟩ := step_affects (s := s) named'
  obtain ⟨now, spares⟩ := same s tidy fresh (.refl s)
  obtain ⟨now', spares'⟩ := same' s tidy fresh' (.refl s)
  refine ⟨spares, spares', fun independent => ?_⟩
  have commute : Rests.Commute effect effect' s.store :=
    rests.commute rests' tidy.apart fun τ τ' found found' passed passed' =>
      independent τ τ' ((touched passed).trans found) ((touched' passed').trans found')
  have later := (same _ (tidy.step B) (spares'.fresh fresh named apart)
    (spares'.akin apart)).1
  have later' := (same' _ (tidy.step A) (spares.fresh fresh' named' apart')
    (spares.akin apart')).1
  rw [now'] at later
  rw [now] at later'
  exact {
    first := by
      rw [now', later, now]
      exact commute.reply
    second := by
      rw [now, later', now']
      exact commute.reply'
    store := by
      rw [now, later', now', later]
      exact commute.store.symm
    handles := fun name => by
      rw [now, later', now', later]
      simp only [undergo, commute.handle, commute.handle']
      exact (within s.store).comm (within' s.store) different s.handles name
    others := by
      rw [now, later', now', later]
      simp only [undergo, commute.store] }

/-- A number written under a cursor on a view, and a read by a reader that stops at the end of
its window, short of what it is asked for. The view and the window have bytes in common, but
what is written ends where what is read begins. -/
theorem run_commute_side_by_side :
    let before : List Command := [.make "array" (.ofBytes (Bytes.sequential 16)),
      .derive "array" "part" (.slice 2 8), .derive "part" "cursor" (.cursorWithin 2 8 .bigEndian),
      .derive "array" "in" (.reader (some (8, 8)))]
    let s := (Session.run before (.initial Host.machine .bare)).2
    let A : Command := .use "cursor" (.cursor (.write .u32 0x01020304 none))
    let B : Command := .use "in" (.reader (.read 20))
    A.names? = some ["cursor"] ∧ B.names? = some ["in"] ∧ A.Fresh s ∧ B.Fresh s ∧
      s.Independent A B ∧ s.Commute A B := by
  intro before s A B
  let part : Region := { root := 0, base := 2, length := 8, permit := .both, kind := .slice }
  let c : Cursor := {
    region := part
    mark := { position := 2, limit := 8, order := .bigEndian } }
  let w : Window := { region := .ofRoot 0 16, start := 8, stop := 16, offset := 8 }
  have cursor : s.handles.find? "cursor" = some (.cursor c) := by decide +kernel
  have reader : s.handles.find? "in" = some (.reader w) := by decide +kernel
  have independent : s.Independent A B := by
    intro τ τ' found found'
    have write : c.touch? (.write .u32 0x01020304 none) = some τ := by
      simp only [A, Command.touch?, cursor] at found
      split at found
      · cases found
      · exact found
    have read : w.readerTouch? (.read 20) = some τ' := by
      simp only [B, Command.touch?, reader] at found'
      split at found'
      · cases found'
      · exact found'
    cases write
    cases read
    refine .inr fun ground ground' there there' _ i j inside inside' => ?_
    have same : ground = ground' := Option.some.inj (there.symm.trans there')
    subst same
    have before : i < 4 := inside
    show ground.base + 2 + 2 + i ≠ ground.base + 0 + 8 + j
    omega
  have commute := run_commute (s := s) (A := A) (B := B) rfl rfl rfl (by decide) (by decide)
    trivial trivial
  exact ⟨rfl, rfl, trivial, trivial, independent, commute.2.2 independent⟩

end Session

end BoundedMemory
