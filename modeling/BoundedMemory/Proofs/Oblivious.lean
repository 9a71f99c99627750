import BoundedMemory.Proofs.Lending
import BoundedMemory.Proofs.Release

/-!
Operations that cannot tell certain states apart. Run in two states that are related,
such an operation ends the same way with the same answer, and leaves states that are
related again. Whatever is put together from such operations is one of them.
-/

namespace BoundedMemory.Operation

variable {ε ε' σ β γ α : Type} {R : σ → σ → Prop} {kind : β → Prop}

/-- Two results that differ in nothing but states which are related. -/
def Agree (R : σ → σ → Prop) : EStateM.Result ε σ α → EStateM.Result ε σ α → Prop
  | .ok a s₁, .ok b s₂ => a = b ∧ R s₁ s₂
  | .error e s₁, .error f s₂ => e = f ∧ R s₁ s₂
  | _, _ => False

/-- An operation that cannot tell related states apart. -/
def Oblivious (R : σ → σ → Prop) (x : EStateM ε σ α) : Prop :=
  ∀ s₁ s₂, R s₁ s₂ → Agree R (x s₁) (x s₂)

/-- States that are related, with one and the same thing of a kind beside them. -/
structure Beside (kind : β → Prop) (R : σ → σ → Prop) (s₁ s₂ : σ × β) : Prop where
  related : R s₁.1 s₂.1
  same : s₁.2 = s₂.2
  proper : kind s₁.2

/-- Replies that are the same, with states that are related. -/
def Alike (R : σ → σ → Prop) (x y : Reply × σ) : Prop := x.1 = y.1 ∧ R x.2 y.2

/-- Results that agree are both values or both stops. -/
theorem Agree.cases {x y : EStateM.Result ε σ α} (h : Agree R x y) :
    (∃ a s₁ s₂, x = .ok a s₁ ∧ y = .ok a s₂ ∧ R s₁ s₂) ∨
      ∃ e s₁ s₂, x = .error e s₁ ∧ y = .error e s₂ ∧ R s₁ s₂ := by
  cases x with
  | ok a s₁ =>
      cases y with
      | ok b s₂ =>
          obtain ⟨rfl, related⟩ := h
          exact .inl ⟨a, s₁, s₂, rfl, rfl, related⟩
      | error f s₂ => exact h.elim
  | error e s₁ =>
      cases y with
      | ok b s₂ => exact h.elim
      | error f s₂ =>
          obtain ⟨rfl, related⟩ := h
          exact .inr ⟨e, s₁, s₂, rfl, rfl, related⟩

namespace Oblivious

theorem pure (a : α) : Oblivious R (Pure.pure a : EStateM ε σ α) :=
  fun _ _ related => ⟨rfl, related⟩

theorem refuse (cause : ε) : Oblivious R (Operation.refuse cause : Operation ε σ α) :=
  fun _ _ related => ⟨rfl, related⟩

theorem change {f : σ → σ} (kept : ∀ s₁ s₂, R s₁ s₂ → R (f s₁) (f s₂)) :
    Oblivious R (modify f : EStateM ε σ PUnit) :=
  fun s₁ s₂ related => ⟨rfl, kept s₁ s₂ related⟩

theorem bind {x : EStateM ε σ α} {f : α → EStateM ε σ γ} (first : Oblivious R x)
    (second : ∀ a, Oblivious R (f a)) : Oblivious R (x >>= f) := by
  intro s₁ s₂ related
  rw [bind_run, bind_run]
  obtain ⟨a, t₁, t₂, run₁, run₂, still⟩ | ⟨e, t₁, t₂, run₁, run₂, still⟩ :=
    (first s₁ s₂ related).cases
  · rw [run₁, run₂]
    exact second a t₁ t₂ still
  · rw [run₁, run₂]
    exact ⟨rfl, still⟩

theorem map {x : EStateM ε σ α} (f : α → γ) (h : Oblivious R x) :
    Oblivious R (do return f (← x)) :=
  h.bind fun a => .pure (f a)

theorem check {check : Except ε α} {f : α → Operation ε σ γ} (second : ∀ a, Oblivious R (f a)) :
    Oblivious R ((liftM check : Operation ε σ α) >>= f) := by
  cases check with
  | ok a => exact second a
  | error cause => exact fun _ _ related => ⟨rfl, related⟩

theorem defined {value : Option α} {f : α → Operation ε σ γ} (second : ∀ a, Oblivious R (f a)) :
    Oblivious R ((liftM value : Operation ε σ α) >>= f) := by
  cases value with
  | some a => exact second a
  | none => exact fun _ _ related => ⟨rfl, related⟩

/-- An answer that tells everything is no way around. -/
theorem of_map {x : EStateM ε σ α} {f : α → γ} (injective : ∀ a b, f a = f b → a = b)
    (h : Oblivious R (do return f (← x))) : Oblivious R x := by
  intro s₁ s₂ related
  have agree := h s₁ s₂ related
  rw [bind_run, bind_run] at agree
  cases run₁ : x s₁ with
  | ok a t₁ =>
      cases run₂ : x s₂ with
      | ok b t₂ =>
          simp only [run₁, run₂] at agree
          exact ⟨injective a b agree.1, agree.2⟩
      | error e t₂ =>
          simp only [run₁, run₂] at agree
          exact agree
  | error e t₁ =>
      cases run₂ : x s₂ with
      | ok b t₂ =>
          simp only [run₁, run₂] at agree
          exact agree
      | error e' t₂ =>
          simp only [run₁, run₂] at agree
          exact agree

theorem onFirst {x : Operation ε σ α} (h : Oblivious R x) :
    Oblivious (Beside kind R) (Operation.onFirst x) := by
  rintro ⟨s₁, b⟩ ⟨s₂, b'⟩ ⟨related, same, proper⟩
  cases same
  rw [onFirst_run, onFirst_run]
  obtain ⟨a, t₁, t₂, run₁, run₂, still⟩ | ⟨e, t₁, t₂, run₁, run₂, still⟩ :=
    (h s₁ s₂ related).cases
  · rw [run₁, run₂]
    exact ⟨rfl, still, rfl, proper⟩
  · rw [run₁, run₂]
    exact ⟨rfl, still, rfl, proper⟩

/-- Looking at what is beside the states. -/
theorem second {f : β → EStateM ε (σ × β) α}
    (h : ∀ b, kind b → Oblivious (Beside kind R) (f b)) :
    Oblivious (Beside kind R) (do
      let (_, b) ← get
      f b) := by
  rintro ⟨s₁, b⟩ ⟨s₂, b'⟩ ⟨related, same, proper⟩
  cases same
  exact h b proper (s₁, b) (s₂, b) ⟨related, rfl, proper⟩

/-- Changing what is beside the states. -/
theorem changeSecond {f : β → β} (proper : ∀ b, kind b → kind (f b)) :
    Oblivious (Beside kind R) (modify fun (s, b) => (s, f b) : EStateM ε (σ × β) PUnit) := by
  apply change
  rintro ⟨s₁, b⟩ ⟨s₂, b'⟩ ⟨related, same, here⟩
  cases same
  exact ⟨related, rfl, proper b here⟩

theorem mapFault {x : Operation ε σ α} (f : ε → ε') (h : Oblivious R x) :
    Oblivious R (Operation.mapFault f x) := by
  intro s₁ s₂ related
  rw [mapFault_run, mapFault_run]
  obtain ⟨a, t₁, t₂, run₁, run₂, still⟩ | ⟨e, t₁, t₂, run₁, run₂, still⟩ :=
    (h s₁ s₂ related).cases
  · rw [run₁, run₂]
    exact ⟨rfl, still⟩
  · rw [run₁, run₂]
    cases e <;> exact ⟨rfl, still⟩

/-- Replies tell no more than answers do. -/
theorem settle {x : Operation ε σ α} (h : Oblivious R x) {s₁ s₂ : σ} (related : R s₁ s₂)
    (fault : ε → Reply) (reply : α → Reply) :
    Alike R (x.settle fault reply s₁) (x.settle fault reply s₂) := by
  unfold Operation.settle
  obtain ⟨a, t₁, t₂, run₁, run₂, still⟩ | ⟨e, t₁, t₂, run₁, run₂, still⟩ :=
    (h s₁ s₂ related).cases
  · rw [run₁, run₂]
    exact ⟨rfl, still⟩
  · rw [run₁, run₂]
    cases e <;> exact ⟨rfl, still⟩

end Oblivious

end BoundedMemory.Operation
