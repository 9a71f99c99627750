import BoundedMemory.Proofs.Changes.Rewriting
import BoundedMemory.Proofs.FlatRanges
import BoundedMemory.Proofs.Refusing

/-!
Transfers that do not get in each other's way. Two transfers that both read, or that have no
byte in common, may change places: each of them ends as if the other did not take place, and
memory is the same in the end.
-/

namespace BoundedMemory

namespace Operation

variable {ε σ α γ : Type}

/-- How an operation ends, apart from the state that it leaves. -/
def outcome (x : EStateM ε σ α) (s : σ) : Except ε α :=
  match x s with
  | .ok a _ => .ok a
  | .error e _ => .error e

theorem outcome_of_ok {x : EStateM ε σ α} {a : α} {s s' : σ} (run : x s = .ok a s') :
    outcome x s = .ok a ∧ after x s = s' := by
  simp only [outcome, after, run, and_self]

theorem outcome_of_error {x : EStateM ε σ α} {e : ε} {s s' : σ} (run : x s = .error e s') :
    outcome x s = .error e ∧ after x s = s' := by
  simp only [outcome, after, run, and_self]

theorem outcome_eq_ok_iff {x : EStateM ε σ α} {a : α} {s : σ} :
    outcome x s = .ok a ↔ ∃ s', x s = .ok a s' := by
  unfold outcome
  cases x s <;> simp

/-- Two operations that may change places. -/
structure Commute (x : EStateM ε σ α) (y : EStateM ε σ γ) (s : σ) : Prop where
  first : outcome x (after y s) = outcome x s
  second : outcome y (after x s) = outcome y s
  state : after x (after y s) = after y (after x s)

theorem Commute.symm {x : EStateM ε σ α} {y : EStateM ε σ γ} {s : σ} (h : Commute x y s) :
    Commute y x s where
  first := h.second
  second := h.first
  state := h.state.symm

/-- An operation that leaves every state of a kind alone, and ends alike in all of them. -/
def Still (kind : σ → Prop) (x : EStateM ε σ α) : Prop :=
  ∃ result, ∀ s, kind s → outcome x s = result ∧ after x s = s

theorem Still.commute {kind : σ → Prop} {x : EStateM ε σ α} {y : EStateM ε σ γ} {s : σ}
    (still : Still kind x) (here : kind s) (there : kind (after y s)) : Commute x y s := by
  obtain ⟨result, same⟩ := still
  have now := same s here
  have later := same (after y s) there
  exact {
    first := later.1.trans now.1.symm
    second := by rw [now.2]
    state := by rw [later.2, now.2] }

end Operation

section Strings

variable {α : Type} {bytes xs ys : List α} {start first : Nat}

/-- Writes that do not meet may change places. -/
theorem splice_comm (fits : start + xs.length ≤ bytes.length)
    (fits' : first + ys.length ≤ bytes.length)
    (apart : start + xs.length ≤ first ∨ first + ys.length ≤ start) :
    splice (splice bytes start xs) first ys = splice (splice bytes first ys) start xs := by
  have later : first + ys.length ≤ (splice bytes start xs).length := by rwa [length_splice fits]
  have later' : start + xs.length ≤ (splice bytes first ys).length := by rwa [length_splice fits']
  apply List.ext_getElem?
  intro i
  rw [getElem?_splice later, getElem?_splice fits, getElem?_splice later', getElem?_splice fits']
  by_cases inside : start ≤ i ∧ i < start + xs.length
  · rw [if_neg (by omega), if_pos inside, if_pos inside]
  · rw [if_neg inside, if_neg inside]

end Strings

section Ranges

variable {s s₁ s₂ : Store} {r q : Region} {offset place n m : Nat} {xs ys : Bytes}

/-- Ranges that are clear of each other lie in different blocks, or apart in one. -/
theorem FlatMemory.Clear.blocks (clear : s.flat.Clear r offset n q place m) (apart : s.Apart)
    (long : 0 < n) (long' : 0 < m) {root root' : Root} {b b' : Block}
    (reach : r.Reaches s offset n root b) (reach' : q.Reaches s place m root' b')
    (same : root'.block = root.block) :
    root.base + (r.base + offset) + n ≤ root'.base + (q.base + place) ∨
      root'.base + (q.base + place) + m ≤ root.base + (r.base + offset) := by
  have inRoot := reach.inRoot
  have inRoot' := reach'.inRoot
  have home := (apart.homed r.root root reach.found).resolve_left (by omega)
  have home' := (apart.homed q.root root' reach'.found).resolve_left (by omega)
  have shared := apart.distinct _ _ _ home (same ▸ home')
  have ordered := clear.ordered (Store.flat_grounds reach.found)
    (Store.flat_grounds reach'.found) shared long long'
  simpa only [Root.ground, Nat.add_assoc] using ordered

/-- Memory that is reached is reached after other contents were put into a block. -/
theorem Region.Reaches.setBytes {root : Root} {b b' : Block} (reach : r.Reaches s offset n root b)
    {block : BlockId} (stored : s.blocks[block]? = some b') {bytes : Bytes}
    (length : bytes.length = b'.bytes.length) :
    (block = root.block ∧ b' = b ∧
        r.Reaches (s.setBytes block b' bytes) offset n root { b with bytes }) ∨
      (block ≠ root.block ∧ r.Reaches (s.setBytes block b' bytes) offset n root b) := by
  by_cases same : block = root.block
  · subst same
    rw [reach.stored, Option.some.injEq] at stored
    subst stored
    exact .inl ⟨rfl, rfl, { reach with
      stored := Store.getElem?_setBytes_same reach.stored
      inBlock := by simpa only [length] using reach.inBlock }⟩
  · exact .inr ⟨same, { reach with
      stored := (Store.getElem?_setBytes_other (Ne.symm same)).trans reach.stored }⟩

namespace Region

/-- A read finds what it would find without a write that is clear of it. -/
theorem peek?_of_clear (apart : s.Apart) (clear : s.flat.Clear r offset n q place ys.length)
    (long : 0 < n) (long' : 0 < ys.length) (written : q.poke? s place ys = some s₁)
    {now : Bytes} (there : r.peek? s offset n = some now) : r.peek? s₁ offset n = some now := by
  obtain ⟨root, b, reach, rfl⟩ := peek?_eq_some_iff.mp there
  obtain ⟨root', b', reach', rfl⟩ := poke?_eq_some_iff.mp written
  rw [peek?_eq_some_iff]
  rcases reach.setBytes reach'.stored (length_splice reach'.inBlock) with
    ⟨same, rfl, again⟩ | ⟨-, again⟩
  · have ordered := clear.blocks apart long long' reach reach' same
    exact ⟨root, _, again, (cut_splice_disjoint reach'.inBlock ordered).symm⟩
  · exact ⟨root, b, again, rfl⟩

/-- Writes that are clear of each other leave the same store, whichever comes first. -/
theorem poke?_comm (apart : s.Apart) (clear : s.flat.Clear r offset xs.length q place ys.length)
    (long : 0 < xs.length) (long' : 0 < ys.length) (first : r.poke? s offset xs = some s₁)
    (second : q.poke? s place ys = some s₂) : q.poke? s₁ place ys = r.poke? s₂ offset xs := by
  obtain ⟨root, b, reach, rfl⟩ := poke?_eq_some_iff.mp first
  obtain ⟨root', b', reach', rfl⟩ := poke?_eq_some_iff.mp second
  have later := reach.setBytes reach'.stored (length_splice reach'.inBlock)
  have later' := reach'.setBytes reach.stored (length_splice reach.inBlock)
  rcases later with ⟨same, rfl, again⟩ | ⟨elsewhere, again⟩
  · obtain ⟨-, -, again'⟩ := later'.resolve_right fun other => other.1 same.symm
    have ordered := clear.blocks apart long long' reach reach' same
    rw [poke?_eq_some_iff.mpr ⟨root, _, again, rfl⟩, poke?_eq_some_iff.mpr ⟨root', _, again', rfl⟩]
    simp only [Store.setBytes, same, List.set_set,
      splice_comm reach.inBlock reach'.inBlock ordered]
  · obtain ⟨-, again'⟩ := later'.resolve_left fun other => elsewhere other.1.symm
    rw [poke?_eq_some_iff.mpr ⟨root, b, again, rfl⟩, poke?_eq_some_iff.mpr ⟨root', b', again', rfl⟩]
    simp only [Store.setBytes, List.set_comm _ _ elsewhere]

end Region

end Ranges

namespace Touch

open Operation (Still Commute outcome after)

variable {s : Store} {τ τ' : Touch}

def run (τ : Touch) : Action Store Reply := τ.transfer.run τ.region τ.offset

/-- What a touch reads of memory, if it reads. -/
def peek? (τ : Touch) (s : Store) : Option Bytes := τ.region.peek? s τ.offset τ.transfer.size

/-- What memory becomes, if the touch writes. -/
def poke? (τ : Touch) (s : Store) : Option Store := τ.region.poke? s τ.offset τ.transfer.payload

/-- Touches that both read, or that have no byte in common. -/
def Clear (s : Store) (τ τ' : Touch) : Prop :=
  (τ.transfer.direction = .read ∧ τ'.transfer.direction = .read) ∨
    s.flat.Clear τ.region τ.offset τ.transfer.size τ'.region τ'.offset τ'.transfer.size

theorem Clear.symm (clear : Clear s τ τ') : Clear s τ' τ :=
  clear.imp And.symm FlatMemory.Clear.symm

/-- A touch that finds bytes to read in every store of a kind. -/
structure Reads (kind : Store → Prop) (τ : Touch) : Prop where
  direction : τ.transfer.direction = .read
  long : 0 < τ.transfer.size
  finds (t : Store) : kind t → ∃ bytes, τ.peek? t = some bytes ∧
    τ.run t = .ok (τ.transfer.answer bytes) t

/-- A touch that finds room to write in every store of a kind. -/
structure Writes (kind : Store → Prop) (τ : Touch) : Prop where
  direction : τ.transfer.direction = .write
  long : 0 < τ.transfer.size
  length : τ.transfer.payload.length = τ.transfer.size
  puts (t : Store) : kind t → ∃ written, τ.poke? t = some written ∧
    τ.run t = .ok (τ.transfer.answer []) written

/-- In all stores that differ in nothing but what is in memory, a touch does nothing, or reads,
or writes. -/
theorem cases (τ : Touch) (s : Store) :
    Still s.Resembles τ.run ∨ Reads s.Resembles τ ∨ Writes s.Resembles τ := by
  obtain ⟨r, offset, x, -⟩ := τ
  have refusal (t : Store) (alike : s.Resembles t) :
      x.refusal? r t offset = x.refusal? r s offset := by
    rw [Transfer.refusal?_congr (congrFun alike.isValid r.root)]
  have run (t : Store) (alike : s.Resembles t) := refusal t alike ▸ x.run_eq r offset t
  cases free : x.refusal? r s offset with
  | some fault =>
      simp only [free] at run
      exact .inl ⟨.error (.fault fault), fun t alike => Operation.outcome_of_error (run t alike)⟩
  | none =>
      simp only [free, Transfer.outcome?] at run
      by_cases nothing : x.size = 0
      · simp only [nothing, if_true] at run
        exact .inl ⟨.ok (x.answer []), fun t alike => Operation.outcome_of_ok (run t alike)⟩
      simp only [nothing, if_false] at run
      have long := Nat.pos_of_ne_zero nothing
      cases direction : x.direction with
      | read =>
          simp only [direction] at run
          cases there : r.peek? s offset x.size with
          | some now =>
              refine .inr (.inl ⟨direction, long, fun t alike => ?_⟩)
              rcases alike.peek? r offset x.size with ⟨-, bytes, -, found⟩ | ⟨missing, -⟩
              · exact ⟨bytes, found, (run t alike).trans (by rw [found]; rfl)⟩
              · rw [there] at missing
                cases missing
          | none =>
              refine .inl ⟨.error .trap, fun t alike => Operation.outcome_of_error ?_⟩
              rcases alike.peek? r offset x.size with ⟨bytes, -, found, -⟩ | ⟨-, missing⟩
              · rw [there] at found
                cases found
              · exact (run t alike).trans (by rw [missing]; rfl)
      | write =>
          simp only [direction] at run
          have length := Transfer.length_payload direction
            (Transfer.refusal?_eq_none_iff.mp free).2.2
          cases there : r.poke? s offset x.payload with
          | some after =>
              refine .inr (.inr ⟨direction, long, length, fun t alike => ?_⟩)
              rcases alike.poke? r offset x.payload with
                ⟨missing, -⟩ | ⟨-, written, -, found, -⟩
              · rw [there] at missing
                cases missing
              · exact ⟨written, found, (run t alike).trans (by rw [found]; rfl)⟩
          | none =>
              refine .inl ⟨.error .trap, fun t alike => Operation.outcome_of_error ?_⟩
              rcases alike.poke? r offset x.payload with ⟨-, missing⟩ | ⟨written, -, found, -⟩
              · exact (run t alike).trans (by rw [missing]; rfl)
              · rw [there] at found
                cases found

/-- However a touch ends, it writes over memory and does nothing else. -/
theorem after_resembles (τ : Touch) (s : Store) : s.Resembles (after τ.run s) := by
  cases run : τ.run s with
  | ok reply written =>
      rw [(Operation.outcome_of_ok run).2]
      exact Transfer.resembles run
  | error e same =>
      rw [(Operation.outcome_of_error run).2, Transfer.run_error run]
      exact .refl s

theorem Reads.passes (reads : Reads s.Resembles τ) : ∃ reply, outcome τ.run s = .ok reply := by
  obtain ⟨_, -, run⟩ := reads.finds s (.refl s)
  exact ⟨_, (Operation.outcome_of_ok run).1⟩

theorem Writes.passes (writes : Writes s.Resembles τ) : ∃ reply, outcome τ.run s = .ok reply := by
  obtain ⟨_, -, run⟩ := writes.puts s (.refl s)
  exact ⟨_, (Operation.outcome_of_ok run).1⟩

private theorem commute_reads (reads : Reads s.Resembles τ) (reads' : Reads s.Resembles τ') :
    Commute τ.run τ'.run s := by
  obtain ⟨_, -, run⟩ := reads.finds s (.refl s)
  obtain ⟨_, -, run'⟩ := reads'.finds s (.refl s)
  have idle := (Operation.outcome_of_ok run).2
  have idle' := (Operation.outcome_of_ok run').2
  exact {
    first := by rw [idle']
    second := by rw [idle]
    state := by rw [idle', idle, idle'] }

/-- What is read before a write that is clear of it is read after it. -/
private theorem commute_read_write (reads : Reads s.Resembles τ) (writes : Writes s.Resembles τ')
    (apart : s.Apart) (clear : Clear s τ τ') : Commute τ.run τ'.run s := by
  obtain ⟨bytes, there, read⟩ := reads.finds s (.refl s)
  obtain ⟨s', put, wrote⟩ := writes.puts s (.refl s)
  obtain ⟨bytes', there', read'⟩ := reads.finds s' (Region.poke?_resembles put)
  have distinct := clear.resolve_left fun both => by
    rw [writes.direction] at both
    cases both.2
  have same : τ.peek? s' = some bytes :=
    Region.peek?_of_clear apart (writes.length.symm ▸ distinct) reads.long
      (writes.length.symm ▸ writes.long) put there
  rw [there', Option.some.injEq] at same
  subst same
  have first := Operation.outcome_of_ok read
  have last := Operation.outcome_of_ok read'
  have written := Operation.outcome_of_ok wrote
  exact {
    first := by rw [written.2, last.1, first.1]
    second := by rw [first.2]
    state := by rw [written.2, last.2, first.2, written.2] }

private theorem commute_writes (writes : Writes s.Resembles τ) (writes' : Writes s.Resembles τ')
    (apart : s.Apart) (clear : Clear s τ τ') : Commute τ.run τ'.run s := by
  obtain ⟨s₁, put₁, wrote₁⟩ := writes.puts s (.refl s)
  obtain ⟨s₂, put₂, wrote₂⟩ := writes'.puts s (.refl s)
  obtain ⟨s₂₁, put₂₁, wrote₂₁⟩ := writes.puts s₂ (Region.poke?_resembles put₂)
  obtain ⟨s₁₂, put₁₂, wrote₁₂⟩ := writes'.puts s₁ (Region.poke?_resembles put₁)
  have distinct := clear.resolve_left fun both => by
    rw [writes.direction] at both
    cases both.1
  have same : τ'.poke? s₁ = τ.poke? s₂ :=
    Region.poke?_comm apart (writes.length.symm ▸ writes'.length.symm ▸ distinct)
      (writes.length.symm ▸ writes.long) (writes'.length.symm ▸ writes'.long) put₁ put₂
  rw [put₁₂, put₂₁, Option.some.injEq] at same
  subst same
  have first := Operation.outcome_of_ok wrote₁
  have second := Operation.outcome_of_ok wrote₂
  have first' := Operation.outcome_of_ok wrote₂₁
  have second' := Operation.outcome_of_ok wrote₁₂
  exact {
    first := by rw [second.2, first'.1, first.1]
    second := by rw [first.2, second'.1, second.1]
    state := by rw [second.2, first'.2, first.2, second'.2] }

/-- Touches that are clear of each other may change places, and so may touches of which one
does not go through. -/
theorem commute (apart : s.Apart) (clear : ∀ reply reply', outcome τ.run s = .ok reply →
    outcome τ'.run s = .ok reply' → Clear s τ τ') : Commute τ.run τ'.run s := by
  rcases τ.cases s with still | course
  · exact still.commute (.refl s) (τ'.after_resembles s)
  rcases τ'.cases s with still | course'
  · exact (still.commute (.refl s) (τ.after_resembles s)).symm
  obtain ⟨_, passed⟩ := course.elim Reads.passes Writes.passes
  obtain ⟨_, passed'⟩ := course'.elim Reads.passes Writes.passes
  have clear := clear _ _ passed passed'
  rcases course with reads | writes <;> rcases course' with reads' | writes'
  · exact commute_reads reads reads'
  · exact commute_read_write reads writes' apart clear
  · exact (commute_read_write reads' writes apart clear.symm).symm
  · exact commute_writes writes writes' apart clear

end Touch

end BoundedMemory
