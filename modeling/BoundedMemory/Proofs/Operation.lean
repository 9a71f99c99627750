import BoundedMemory.Action
import BoundedMemory.Session.Reply

/-!
How operations run. Each way of building an operation has one equation that
says what it does to a state, so that later proofs take an operation apart
without opening the monad it is written in.
-/

namespace BoundedMemory.Operation

variable {ε ε' σ α β γ : Type}

@[simp] theorem pure_run (a : α) (s : σ) : (pure a : EStateM ε σ α) s = .ok a s := rfl

@[simp] theorem get_run (s : σ) : (get : EStateM ε σ σ) s = .ok s s := rfl

@[simp] theorem set_run (s s' : σ) : (set s' : EStateM ε σ PUnit) s = .ok ⟨⟩ s' := rfl

@[simp] theorem modify_run (f : σ → σ) (s : σ) :
    (modify f : EStateM ε σ PUnit) s = .ok ⟨⟩ (f s) := rfl

@[simp] theorem modifyGet_run (f : σ → α × σ) (s : σ) :
    (modifyGet f : EStateM ε σ α) s = .ok (f s).1 (f s).2 := rfl

@[simp] theorem refuse_run (cause : ε) (s : σ) :
    (refuse cause : Operation ε σ α) s = .error (.fault cause) s := rfl

@[simp] theorem some_run (a : α) (s : σ) : (liftM (some a) : Operation ε σ α) s = .ok a s := rfl

@[simp] theorem none_run (s : σ) :
    (liftM (none : Option α) : Operation ε σ α) s = .error .trap s := rfl

@[simp] theorem accepted_run (a : α) (s : σ) :
    (liftM (.ok a : Except ε α) : Operation ε σ α) s = .ok a s := rfl

@[simp] theorem refused_run (cause : ε) (s : σ) :
    (liftM (.error cause : Except ε α) : Operation ε σ α) s = .error (.fault cause) s := rfl

theorem bind_run (x : EStateM ε σ α) (f : α → EStateM ε σ γ) (s : σ) :
    (x >>= f) s = match x s with
      | .ok a s => f a s
      | .error e s => .error e s := by
  show EStateM.bind x f s = _
  unfold EStateM.bind
  cases x s <;> rfl

theorem onFirst_run (x : Operation ε σ α) (s : σ) (b : β) :
    onFirst x (s, b) = match x s with
      | .ok a s => .ok a (s, b)
      | .error e s => .error e (s, b) := rfl

theorem mapFault_run (f : ε → ε') (x : Operation ε σ α) (s : σ) :
    mapFault f x s = match x s with
      | .ok a s => .ok a s
      | .error (.fault cause) s => .error (.fault (f cause)) s
      | .error .trap s => .error .trap s := rfl

theorem attempt_run (x : Operation ε σ α) (s : σ) :
    (attempt x : Operation ε' σ Unit) s = match x s with
      | .ok _ s => .ok () s
      | .error (.fault _) s => .ok () s
      | .error .trap s => .error .trap s := rfl

/-- A value comes out of two operations in a row exactly through a value of the first. -/
theorem bind_eq_ok_iff {x : Operation ε σ α} {f : α → Operation ε σ γ} {s s' : σ} {c : γ} :
    (x >>= f) s = .ok c s' ↔ ∃ a t, x s = .ok a t ∧ f a t = .ok c s' := by
  rw [bind_run]
  constructor
  · intro h
    cases first : x s with
    | ok a t => exact ⟨a, t, rfl, by simpa only [first] using h⟩
    | error e t => simp [first] at h
  · rintro ⟨a, t, first, second⟩
    simpa only [first] using second

/-- What follows a check takes place exactly where the check accepts. -/
theorem check_bind_eq_ok_iff {check : Except ε α} {f : α → Operation ε σ γ} {s s' : σ} {c : γ} :
    ((liftM check : Operation ε σ α) >>= f) s = .ok c s' ↔
      ∃ a, check = .ok a ∧ f a s = .ok c s' := by
  cases check with
  | error cause => simp [bind_run]
  | ok a => simp [bind_run]

/-- The state that an operation leaves, however it ends. -/
def after {ε σ α : Type} (x : EStateM ε σ α) (s : σ) : σ :=
  match x s with
  | .ok _ s | .error _ s => s

theorem after_map (x : Operation ε σ α) (f : α → γ) (s : σ) :
    after (do return f (← x)) s = after x s := by
  unfold after
  rw [bind_run]
  cases x s <;> rfl

theorem settle_snd (x : Operation ε σ α) (fault : ε → Reply) (reply : α → Reply) (s : σ) :
    (x.settle fault reply s).2 = after x s := by
  unfold settle after
  cases x s with
  | ok a s => rfl
  | error e s => cases e <;> rfl

/-- Replies may as well be formed inside of an operation. -/
theorem settle_eq {x : Operation ε σ α} {y : Operation ε σ Reply} {fault : ε → Reply}
    {reply : α → Reply} {s : σ} (h : (do return reply (← x)) s = y s) :
    x.settle fault reply s = y.settle fault id s := by
  unfold settle
  rw [← h, bind_run]
  cases x s with
  | ok a s => rfl
  | error e s => cases e <;> rfl

end BoundedMemory.Operation
