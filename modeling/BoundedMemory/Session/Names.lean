/-!
Tables from names to values, in which a name means at most one thing.
-/

namespace BoundedMemory

structure Names (α : Type) where
  entries : List (String × α) := []

namespace Names

variable {α : Type}

def find? (names : Names α) (name : String) : Option α := names.entries.lookup name

def erase (names : Names α) (name : String) : Names α :=
  ⟨names.entries.filter fun entry => entry.1 ≠ name⟩

/-- Lets `name` mean `a`, whatever it meant before. -/
def bind (names : Names α) (name : String) (a : α) : Names α :=
  ⟨(name, a) :: (names.erase name).entries⟩

def values (names : Names α) : List α := names.entries.map Prod.snd

/-- The least name of which `p` holds. -/
def least? (names : Names α) (p : α → Bool) : Option String :=
  (names.entries.filter fun entry => p entry.2).foldl
    (fun least entry =>
      match least with
      | none => some entry.1
      | some name => some (if entry.1 < name then entry.1 else name)) none

private theorem lookup_filter_ne (entries : List (String × α)) {name other : String}
    (h : other ≠ name) :
    (entries.filter fun entry => entry.1 ≠ name).lookup other = entries.lookup other := by
  induction entries with
  | nil => rfl
  | cons entry rest ih =>
    obtain ⟨key, a⟩ := entry
    by_cases hk : key = name
    · subst hk
      rw [List.filter_cons_of_neg (by simp), ih, List.lookup_cons]
      simp [beq_eq_false_iff_ne.mpr h]
    · rw [List.filter_cons_of_pos (by simpa using hk), List.lookup_cons, List.lookup_cons, ih]

@[simp] theorem find?_bind_same (names : Names α) (name : String) (a : α) :
    (names.bind name a).find? name = some a := by
  simp [bind, find?]

theorem find?_erase_other (names : Names α) {name other : String} (h : other ≠ name) :
    (names.erase name).find? other = names.find? other :=
  lookup_filter_ne names.entries h

theorem find?_bind_other (names : Names α) {name other : String} (a : α) (h : other ≠ name) :
    (names.bind name a).find? other = names.find? other := by
  rw [← find?_erase_other names h]
  simp [bind, find?, List.lookup_cons, beq_eq_false_iff_ne.mpr h]

end Names

end BoundedMemory
