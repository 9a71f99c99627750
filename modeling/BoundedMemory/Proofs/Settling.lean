import BoundedMemory.Proofs.Narrowing
import BoundedMemory.Proofs.Serving

/-!
Operations that have an outcome. They may be refused, but no step of theirs is left
undefined: no raw access goes outside of live memory, no sum leaves the machine word and
no two lengths of a transfer differ. On a region whose memory is there this is so for
every transfer, every derivation and every release, whatever their arguments are.
-/

namespace BoundedMemory

namespace Operation

variable {ε ε' σ β γ α : Type} {Q : α → σ → Prop} {P : σ → Prop} {s : σ}

/-- An operation that has an outcome: an answer, with `Q` true of it and of the state
then, or a fault, with `P` true of the state then. -/
structure Settles (Q : α → σ → Prop) (P : σ → Prop) (x : Operation ε σ α) (s : σ) : Prop where
  answer {a : α} {t : σ} : x s = .ok a t → Q a t
  fault {e : Stop ε} {t : σ} : x s = .error e t → e ≠ .trap ∧ P t

theorem settles_iff {x : Operation ε σ α} :
    Settles Q P x s ↔
      match x s with
      | .ok a t => Q a t
      | .error e t => e ≠ .trap ∧ P t := by
  constructor
  · intro h
    cases run : x s with
    | ok a t => exact h.answer run
    | error e t => exact h.fault run
  · intro h
    constructor
    · intro a t run
      simpa only [run] using h
    · intro e t run
      simpa only [run] using h

namespace Settles

theorem pure {a : α} (now : Q a s) : Settles Q P (Pure.pure a : Operation ε σ α) s :=
  settles_iff.mpr now

/-- All that matters is what the operation does to the state. -/
theorem congr {x y : Operation ε σ α} (h : Settles Q P x s) (same : y s = x s) :
    Settles Q P y s := by
  rwa [settles_iff, same, ← settles_iff]

theorem mono {Q' : α → σ → Prop} {P' : σ → Prop} {x : Operation ε σ α} (h : Settles Q P x s)
    (answers : ∀ a t, Q a t → Q' a t) (faults : ∀ t, P t → P' t) : Settles Q' P' x s := by
  constructor
  · exact fun run => answers _ _ (h.answer run)
  · exact fun run => ⟨(h.fault run).1, faults _ (h.fault run).2⟩

theorem bind {R : γ → σ → Prop} {x : Operation ε σ α} {f : α → Operation ε σ γ}
    (first : Settles Q P x s) (second : ∀ a t, Q a t → Settles R P (f a) t) :
    Settles R P (x >>= f) s := by
  rw [settles_iff, bind_run]
  cases run : x s with
  | ok a t => exact settles_iff.mp (second a t (first.answer run))
  | error e t => exact first.fault run

theorem get {R : γ → σ → Prop} {f : σ → Operation ε σ γ} (h : Settles R P (f s) s) :
    Settles R P (MonadState.get >>= f) s :=
  h.congr rfl

theorem check {R : γ → σ → Prop} {check : Except ε α} {f : α → Operation ε σ γ} (now : P s)
    (second : ∀ a, check = .ok a → Settles R P (f a) s) :
    Settles R P ((liftM check : Operation ε σ α) >>= f) s := by
  cases check with
  | ok a => exact second a rfl
  | error cause => exact settles_iff.mpr ⟨(by simp), now⟩

theorem defined {R : γ → σ → Prop} {value : Option α} {a : α} {f : α → Operation ε σ γ}
    (there : value = some a) (second : Settles R P (f a) s) :
    Settles R P ((liftM value : Operation ε σ α) >>= f) s := by
  subst there
  exact second

theorem onFirst {Q : α → σ × β → Prop} {P : σ × β → Prop} {x : Operation ε σ α} {b : β}
    (h : Settles (fun a t => Q a (t, b)) (fun t => P (t, b)) x s) :
    Settles Q P (Operation.onFirst x) (s, b) := by
  rw [settles_iff, onFirst_run]
  cases run : x s with
  | ok a t => exact h.answer run
  | error e t => exact h.fault run

theorem mapFault {x : Operation ε σ α} (f : ε → ε') (h : Settles Q P x s) :
    Settles Q P (Operation.mapFault f x) s := by
  rw [settles_iff, mapFault_run]
  cases run : x s with
  | ok a t => exact h.answer run
  | error e t =>
      obtain ⟨plain, now⟩ := h.fault run
      cases e with
      | fault cause => exact ⟨(by simp), now⟩
      | trap => exact absurd rfl plain

/-- A reply then tells of an answer or of a fault. -/
theorem settle {R : σ → Prop} {x : Operation ε σ α} {fault : ε → Reply} {reply : α → Reply}
    (h : Settles Q P x s) (faults : ∀ cause t, P t → fault cause ≠ .trap ∧ R t)
    (answers : ∀ a t, Q a t → reply a ≠ .trap ∧ R t) :
    (x.settle fault reply s).1 ≠ .trap ∧ R (x.settle fault reply s).2 := by
  unfold Operation.settle
  cases run : x s with
  | ok a t => exact answers a t (h.answer run)
  | error e t =>
      obtain ⟨plain, now⟩ := h.fault run
      cases e with
      | fault cause => exact faults cause t now
      | trap => exact absurd rfl plain

/-- The same for what is kept in any case, and replies that are never those of a trap. -/
theorem settle_kept {x : Operation ε σ α} {fault : ε → Reply} {reply : α → Reply}
    (h : Settles (fun _ => P) P x s) (faults : ∀ cause, fault cause ≠ .trap)
    (answers : ∀ a, reply a ≠ .trap) :
    (x.settle fault reply s).1 ≠ .trap ∧ P (x.settle fault reply s).2 :=
  h.settle (fun cause _ now => ⟨faults cause, now⟩) fun a _ now => ⟨answers a, now⟩

end Settles

theorem settle_ne_trap {x : Operation ε σ α} {fault : ε → Reply} {reply : α → Reply}
    (h : ∀ t, x s ≠ .error .trap t) (faults : ∀ cause, fault cause ≠ .trap)
    (answers : ∀ a, reply a ≠ .trap) : (x.settle fault reply s).1 ≠ .trap := by
  unfold Operation.settle
  cases run : x s with
  | ok a t => exact answers a
  | error e t =>
      cases e with
      | fault cause => exact faults cause
      | trap => exact absurd run (h t)

end Operation

open Operation (Settles)

variable {r : Region} {s s' : Store}

/-- Memory does not go away by being written over. -/
theorem Region.Served.resembles (h : r.Served s) (alike : s.Resembles s') : r.Served s' where
  words := h.words
  reach valid fits some := by
    obtain ⟨root, b, reach⟩ := h.reach ((congrFun alike.isValid r.root).trans valid) fits some
    obtain ⟨c, there, -⟩ := alike.reaches reach
    exact ⟨root, c, there⟩

namespace Transfer

/-- A transfer that nothing speaks against finds its memory. -/
theorem outcome?_of_served {x : Transfer} {offset : Nat} (served : r.Served s)
    (free : x.refusal? r s offset = none) :
    ∃ reply after, x.outcome? r s offset = some (reply, after) := by
  obtain ⟨-, allowed, list⟩ := refusal?_eq_none_iff.mp free
  obtain ⟨valid, -, -, fits⟩ := Region.refusal?_eq_none_iff.mp allowed
  unfold outcome?
  by_cases nothing : x.size = 0
  · rw [if_pos nothing]
    exact ⟨_, _, rfl⟩
  · rw [if_neg nothing]
    obtain ⟨root, b, reach⟩ := served.reach valid fits nothing
    cases direction : x.direction with
    | read =>
        have read := Region.peek?_eq_some_iff.mpr ⟨root, b, reach, rfl⟩
        simp only [read, Option.map_some]
        exact ⟨_, _, rfl⟩
    | write =>
        rw [← length_payload direction list] at reach
        have written := Region.poke?_eq_some_iff.mpr ⟨root, b, reach, rfl⟩
        simp only [written, Option.map_some]
        exact ⟨_, _, rfl⟩

theorem outcome?_ne_trap {x : Transfer} {offset : Nat} {reply : Reply} {after : Store}
    (outcome : x.outcome? r s offset = some (reply, after)) : reply ≠ .trap := by
  have plain (bytes : Bytes) : x.answer bytes ≠ .trap := by
    cases x <;> simp [answer]
  obtain ⟨bytes, rfl⟩ := answer_of_outcome? outcome
  exact plain bytes

/-- A transfer is refused and changes nothing, or goes through. -/
theorem settles (served : r.Served s) (x : Transfer) (offset : Nat) :
    Settles (fun reply t => reply ≠ .trap ∧ s.Resembles t) (· = s) (x.run r offset) s := by
  rw [Operation.settles_iff]
  cases free : x.refusal? r s offset with
  | some fault =>
      rw [run_eq, free]
      exact ⟨(by simp), rfl⟩
  | none =>
      obtain ⟨reply, after, outcome⟩ := outcome?_of_served served free
      have run := run_eq_ok_iff.mpr ⟨free, outcome⟩
      rw [run]
      exact ⟨outcome?_ne_trap outcome, resembles run⟩

end Transfer

namespace Region

/-- Bytes are read as in a transfer, but for the form of the answer. -/
theorem readBytes_settles (served : r.Served s) (offset count : Nat) :
    Settles (fun bytes t => s.Resembles t ∧ bytes.length = count) (· = s)
      (r.readBytes offset count) s where
  answer run :=
    ⟨((Transfer.settles served (.readBytes count) offset).answer (readBytes_eq_ok_iff.mp run)).2,
      length_of_readBytes run⟩
  fault {e t} run :=
    (Transfer.settles served (.readBytes count) offset).fault (t := t)
      (by simp only [Transfer.run, Operation.bind_run, run])

theorem writeBytes_settles (served : r.Served s) (offset : Nat) (bytes : Bytes) :
    Settles (fun _ t => s.Resembles t) (· = s) (r.writeBytes offset bytes) s where
  answer run :=
    ((Transfer.settles served (.writeBytes bytes) offset).answer (writeBytes_eq_ok_iff.mp run)).2
  fault {e t} run :=
    (Transfer.settles served (.writeBytes bytes) offset).fault (t := t)
      (by simp only [Transfer.run, Operation.bind_run, run])

theorem Fits.narrowed {n : Narrowing} (fits : r.Fits s)
    (inside : n.offset + n.length r.length ≤ r.length) : (n.narrowed r).Fits s := by
  obtain ⟨root, found, within⟩ := fits
  refine ⟨root, found, ?_⟩
  show r.base + n.offset + n.length r.length ≤ root.length
  omega

end Region

/-- The base of a view is a word where all of its region lies among the words. -/
theorem Narrowing.settles (fits : r.Fits s) (words : r.base + r.length < Word.modulus)
    (n : Narrowing) :
    Settles (fun view t => view.Fits t ∧ view.length = n.length r.length) (fun _ => True)
      (n.apply r) s := by
  rw [Operation.settles_iff, apply_run]
  cases free : n.refusal? r s with
  | some fault => exact ⟨(by simp), trivial⟩
  | none =>
      obtain ⟨-, -, inside⟩ := refusal?_eq_none_iff.mp free
      have word : r.base + n.offset < Word.modulus := by omega
      simp only [word, if_true]
      exact ⟨fits.narrowed inside, rfl⟩

namespace Store

variable {id : RootId} {root : Root} {a : Attachment}

theorem onAttachment_ne_trap {action : Action (Store × Attachment) Unit}
    (found : s.roots[id]? = some root) (behind : root.backing = .segment a)
    (h : ∀ after, action (s, a) ≠ .error .trap after) (after : Store) :
    onAttachment id action s ≠ .error .trap after := by
  obtain ⟨backing, block, base, length, held⟩ := root
  cases behind
  simp only [onAttachment, found]
  cases run : action (s, a) with
  | ok _ t => simp
  | error e t =>
      rintro stopped
      cases stopped
      exact h t run

/-- A root that is there is released, or stays, with an outcome. -/
theorem releaseRoot_ne_trap (found : s.roots[id]? = some root) (after : Store) :
    releaseRoot id s ≠ .error .trap after := by
  intro run
  rw [(releaseRoot_error run).2] at found
  cases found

end Store

theorem Region.release_ne_trap (fits : r.Fits s) (after : Store) :
    r.release s ≠ .error .trap after := by
  obtain ⟨root, found, -⟩ := fits
  unfold release
  split
  · simp
  · exact Store.releaseRoot_ne_trap found after

end BoundedMemory
