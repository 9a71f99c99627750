import BoundedMemory.Proofs.Narrowing

/-!
A view keeps one base, one length, one mask and one kind, however many steps led
to it. The reference here forgets nothing: a tower keeps every view of a chain,
each of which checks an access against its own range and mask and passes it on
to the one below, and only the root touches memory. Along every chain the two
accept the same accesses and do the same with them.
-/

namespace BoundedMemory

/-- One view of a tower: where it begins in what is below, and what it allows. -/
structure Layer where
  offset : Nat
  length : Nat
  mask : Permit
  readOnly : Bool
  deriving DecidableEq, Repr

/-- What a view objects to by itself, without a look at what is below. -/
def Layer.check (layer : Layer) (access : Access) (operation : String) (offset length : Nat) :
    Except Fault Unit :=
  if access = .write && layer.readOnly then .error (.readOnly operation)
  else if !layer.mask.allows access then .error (.forbidden access)
  else Extent.check layer.length offset length

/-- A root, or a view of what lies below it. -/
inductive Tower where
  | root (id : RootId) (length : Nat)
  | view (below : Tower) (layer : Layer)
  deriving DecidableEq, Repr

namespace Tower

def length : Tower → Nat
  | .root _ length => length
  | .view _ layer => layer.length

/-- A transfer that every view passes on, with its own offset added. -/
def run (x : Transfer) : Tower → Nat → Action Store Reply
  | .root id length, offset => x.run (.ofRoot id length) offset
  | .view below layer, offset => do
      layer.check x.direction x.operation offset x.size
      below.run x (offset + layer.offset)

/-- One more view on top. -/
def derive (below : Tower) (n : Narrowing) : Tower :=
  .view below {
    offset := n.offset
    length := n.length below.length
    mask := n.mask
    readOnly := n.isReadOnly }

/-- All the views of a chain of steps. -/
def ofSteps (id : RootId) (length : Nat) (steps : List Narrowing) : Tower :=
  steps.foldl derive (.root id length)

end Tower

theorem Layer.check_eq_ok_iff {layer : Layer} {access : Access} {operation : String}
    {offset length : Nat} :
    layer.check access operation offset length = .ok () ↔
      (access = .write → layer.readOnly = false) ∧ layer.mask.allows access = true ∧
        offset + length ≤ layer.length := by
  rw [← Extent.check_eq_ok_iff]
  unfold Layer.check
  cases access <;> cases layer.readOnly <;> cases layer.mask.allows _ <;> simp

variable {id : RootId} {whole : Nat} {steps : List Narrowing} {view : Region}

/-- What a single step takes away, and nothing else. -/
theorem Narrowing.run_narrowed_eq_ok_iff {n : Narrowing} {r : Region} {x : Transfer}
    {offset : Nat} {s s' : Store} {reply : Reply}
    (inside : n.offset + n.length r.length ≤ r.length) :
    x.run (n.narrowed r) offset s = .ok reply s' ↔
      ((x.direction = .write → n.isReadOnly = false) ∧ n.mask.allows x.direction = true ∧
        offset + x.size ≤ n.length r.length) ∧
        x.run r (offset + n.offset) s = .ok reply s' := by
  have readOnly := n.isReadOnly_narrowed r
  have allows (access : Access) : (n.narrowed r).permit.allows access =
      (r.permit.allows access && n.mask.allows access) := Permit.allows_meet _ _ access
  have outcome : x.outcome? (n.narrowed r) s offset = x.outcome? r s (offset + n.offset) := by
    unfold Transfer.outcome?
    rw [n.peek?_narrowed, n.poke?_narrowed]
  have length : (n.narrowed r).length = n.length r.length := rfl
  have valid : (n.narrowed r).isValid s = r.isValid s := rfl
  rw [Transfer.run_eq_ok_iff, Transfer.run_eq_ok_iff, outcome, Transfer.refusal?_eq_none_iff,
    Transfer.refusal?_eq_none_iff, Region.refusal?_eq_none_iff, Region.refusal?_eq_none_iff,
    readOnly, allows, length, valid]
  constructor
  · rintro ⟨⟨count, ⟨alive, fixed, allowed, fits⟩, list⟩, result⟩
    have fixed' (h : x.direction = .write) := Bool.or_eq_false_iff.mp (fixed h)
    obtain ⟨below, own⟩ := Bool.and_eq_true_iff.mp allowed
    exact ⟨⟨fun h => (fixed' h).2, own, fits⟩,
      ⟨count, ⟨alive, fun h => (fixed' h).1, below, by omega⟩, list⟩, result⟩
  · rintro ⟨⟨fixed, own, fits⟩, ⟨count, ⟨alive, fixedBelow, below, _⟩, list⟩, result⟩
    refine ⟨⟨count, ⟨alive, ?_, ?_, fits⟩, list⟩, result⟩
    · intro h
      rw [fixedBelow h, fixed h]
      rfl
    · rw [below, own]
      rfl

/-- What is known of a region by the steps that led to it from a root of `whole`
bytes. Only slices set a length; the region below a view is the root itself. -/
structure Derives.Flat (id : RootId) (whole : Nat) (steps : List Narrowing) (view : Region) :
    Prop where
  rooted : view.root = id
  parent (s : Store) (root : Root) (found : s.roots[id]? = some root)
    (length : root.length = whole) :
    view.parent? s = if steps = [] then none else some (.ofRoot id whole)
  base : view.base = (steps.map Narrowing.offset).foldl (· + ·) 0
  length : view.length = steps.foldl (fun length n => (n.sliceLength? length).getD length) whole
  permit : view.permit = (steps.map Narrowing.mask).foldl Permit.meet .both
  readOnly : view.isReadOnly = true ↔ .readOnly ∈ steps
  inside : view.base + view.length ≤ whole

private theorem Derives.flat (h : Derives (.ofRoot id whole) steps view) :
    Flat id whole steps view := by
  induction h with
  | refl => constructor <;> simp [Region.ofRoot, Permit.initial, Region.isReadOnly, Region.parent?,
      Region.isView]
  | @step between view steps n s s' chain accepted ih =>
      obtain ⟨free, -, rfl, -⟩ := Narrowing.apply_eq_ok_iff.mp accepted
      obtain ⟨-, -, fits⟩ := Narrowing.refusal?_eq_none_iff.mp free
      have rooted : (n.narrowed between).root = id := ih.rooted
      refine {
        rooted
        parent := ?_
        base := by simp [Narrowing.narrowed, ih.base]
        length := by simp [Narrowing.narrowed, Narrowing.length, ih.length]
        permit := by simp [Narrowing.narrowed, ih.permit]
        readOnly := ?_
        inside := ?_ }
      · intro s root found length
        simp [Region.parent?, n.isView_narrowed, rooted, found, length]
      · have last : n.isReadOnly = true ↔ n = .readOnly := by
          cases n <;> simp [Narrowing.isReadOnly]
        rw [n.isReadOnly_narrowed, Bool.or_eq_true, ih.readOnly, last, List.mem_append,
          List.mem_singleton, eq_comm (a := n)]
      · have inside := ih.inside
        show between.base + n.offset + n.length between.length ≤ whole
        omega

private theorem Derives.length_ofSteps (h : Derives (.ofRoot id whole) steps view) :
    (Tower.ofSteps id whole steps).length = view.length := by
  induction h with
  | refl =>
      rfl
  | @step between view steps n s s' chain accepted ih =>
      obtain ⟨-, -, rfl, -⟩ := Narrowing.apply_eq_ok_iff.mp accepted
      simp only [Tower.ofSteps, List.foldl_append, List.foldl_cons, List.foldl_nil] at ih ⊢
      rw [Tower.derive, Tower.length, ih]
      rfl

/-- One view does what all the views of its chain do together. -/
private theorem Derives.run_eq_ok_iff (h : Derives (.ofRoot id whole) steps view) (x : Transfer)
    (offset : Nat) (s s' : Store) (reply : Reply) :
    x.run view offset s = .ok reply s' ↔
      (Tower.ofSteps id whole steps).run x offset s = .ok reply s' := by
  induction h generalizing offset with
  | refl =>
      rfl
  | @step between view steps n t t' chain accepted ih =>
      obtain ⟨free, -, rfl, -⟩ := Narrowing.apply_eq_ok_iff.mp accepted
      obtain ⟨-, -, fits⟩ := Narrowing.refusal?_eq_none_iff.mp free
      have top : Tower.ofSteps id whole (steps ++ [n]) =
          (Tower.ofSteps id whole steps).derive n := by
        simp [Tower.ofSteps]
      -- The last step is on top of the tower; the offset below it is as much further on.
      rw [top, Tower.derive, Tower.run, chain.length_ofSteps, Operation.check_bind_eq_ok_iff,
        Narrowing.run_narrowed_eq_ok_iff fits, ih (offset + n.offset)]
      constructor
      · rintro ⟨own, below⟩
        exact ⟨(), Layer.check_eq_ok_iff.mpr own, below⟩
      · rintro ⟨⟨⟩, own, below⟩
        exact ⟨Layer.check_eq_ok_iff.mp own, below⟩

/-- Whatever the chain, its view is one range of the root under one mask and of
one kind, and a transfer through it succeeds exactly where it passes every view
of the chain on its way to the root, with the same answer and the same store. -/
theorem Derives.flattens (h : Derives (.ofRoot id whole) steps view) :
    Flat id whole steps view ∧
      ∀ (x : Transfer) (offset : Nat) (s s' : Store) (reply : Reply),
        x.run view offset s = .ok reply s' ↔
          (Tower.ofSteps id whole steps).run x offset s = .ok reply s' :=
  ⟨h.flat, h.run_eq_ok_iff⟩

/-- Sixteen bytes, all of which a root covers. -/
private def sixteen : Store where
  machine := Host.machine
  blocks := [{ bytes := Bytes.sequential 16 }]
  roots := [{ backing := .array true, block := 0, base := 0, length := 16 }]

private theorem three_steps :
    Derives (.ofRoot 0 16) [.slice 2 10, .readOnly, .sliceFrom 3]
      { root := 0, base := 5, length := 7, permit := .readOnly, kind := .readOnly } := by
  have first : Derives (.ofRoot 0 16) [.slice 2 10] _ := .step (s := sixteen) .refl rfl
  have second : Derives (.ofRoot 0 16) [.slice 2 10, .readOnly] _ := .step (s := sixteen) first rfl
  exact .step (s := sixteen) second rfl

theorem flattens_three_steps :
    Derives (.ofRoot 0 16) [.slice 2 10, .readOnly, .sliceFrom 3]
        { root := 0, base := 5, length := 7, permit := .readOnly, kind := .readOnly } ∧
      (Tower.ofSteps 0 16 [.slice 2 10, .readOnly, .sliceFrom 3]).run (.readBytes 2) 1 sixteen =
        .ok (.bytes [6, 7]) sixteen :=
  ⟨three_steps, (three_steps.flattens.2 (.readBytes 2) 1 sixteen sixteen (.bytes [6, 7])).mp rfl⟩

end BoundedMemory
