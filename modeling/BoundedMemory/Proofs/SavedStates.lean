import BoundedMemory.Proofs.CursorMoves
import BoundedMemory.Proofs.Reachable

/-!
Marks that cursors save. A use of a cursor puts its mark on the stack, takes the latest one
back, or leaves the stack alone. So as long as no more is taken back than was saved under way,
all that lies below stays as it was, and what is taken back next brings the cursor back to
where it was saved, whatever happened in between and however it ended.
-/

namespace BoundedMemory

/-- What becomes of the marks that a cursor saved. -/
inductive StackMove where
  | level
  | push
  | pop
  deriving DecidableEq

/-- The number of marks that are left of `n` and of those that are saved under way, if no more
are taken back than there are. -/
def StackMove.depth? (n : Nat) : List StackMove → Option Nat
  | [] => some n
  | .level :: rest => depth? n rest
  | .push :: rest => depth? (n + 1) rest
  | .pop :: rest =>
      match n with
      | 0 => none
      | n + 1 => depth? n rest

def CursorUse.stackMove : CursorUse → StackMove
  | .save => .push
  | .restore => .pop
  | _ => .level

namespace Cursor

/-- What a use makes of a cursor, and what is told if marks are saved or taken back. -/
inductive StackStep (c : Cursor) : StackMove → Reply → Cursor → Prop where
  | level (mark : Mark) (reply : Reply) : c.StackStep .level reply { c with mark }
  | push : c.StackStep .push (.mark (some c.mark)) { c with saved := c.mark :: c.saved }
  | pop : c.StackStep .pop (.mark c.saved.head?)
      { c with mark := c.saved.headD c.mark, saved := c.saved.tail }

/-- What is made of a cursor by one use after another. -/
inductive StackSteps : Cursor → List StackMove → Cursor → Prop where
  | nil (c : Cursor) : StackSteps c [] c
  | cons {c c' c'' : Cursor} {move : StackMove} {moves : List StackMove} {reply : Reply}
      (stepped : c.StackStep move reply c') (rest : StackSteps c' moves c'') :
      StackSteps c (move :: moves) c''

section Stacks

variable {c c' : Cursor} {move : StackMove} {moves : List StackMove} {reply : Reply}

theorem StackStep.region (stepped : c.StackStep move reply c') : c'.region = c.region := by
  cases stepped <;> rfl

theorem StackStep.pushed (stepped : c.StackStep .push reply c') :
    c' = { c with saved := c.mark :: c.saved } := by
  cases stepped
  rfl

theorem StackStep.popped (stepped : c.StackStep .pop reply c') :
    reply = .mark c.saved.head? ∧
      c' = { c with mark := c.saved.headD c.mark, saved := c.saved.tail } := by
  cases stepped
  exact ⟨rfl, rfl⟩

theorem StackSteps.region (steps : StackSteps c moves c') : c'.region = c.region := by
  induction steps with
  | nil c => rfl
  | cons stepped rest ih => exact ih.trans stepped.region

/-- What is below the marks that may be taken back stays as it is. -/
theorem StackSteps.nested (steps : StackSteps c moves c') {top below : List Mark} {n : Nat}
    (saved : c.saved = top ++ below) (depth : StackMove.depth? top.length moves = some n) :
    ∃ top', c'.saved = top' ++ below ∧ top'.length = n := by
  induction steps generalizing top with
  | nil c =>
      cases depth
      exact ⟨top, saved, rfl⟩
  | @cons c _ _ _ _ _ stepped rest ih =>
      cases stepped with
      | level mark => exact ih saved depth
      | push =>
          have pushed : c.mark :: c.saved = (c.mark :: top) ++ below :=
            congrArg (List.cons c.mark) saved
          exact ih pushed depth
      | pop =>
          cases top with
          | nil => cases depth
          | cons mark top => exact ih (congrArg List.tail saved) depth

/-- Where none are added, each that is taken back is one less. -/
theorem StackSteps.unwound (steps : StackSteps c moves c') (pushless : .push ∉ moves) :
    c'.saved = c.saved.drop (moves.count .pop) := by
  induction steps with
  | nil c => rfl
  | cons stepped rest ih =>
      have shorter := ih fun later => pushless (List.mem_cons_of_mem _ later)
      cases stepped with
      | level mark => exact shorter
      | push => exact absurd List.mem_cons_self pushless
      | pop => rw [shorter, List.count_cons_self, List.drop_tail]

end Stacks

/-- An operation that changes nothing of a cursor but its mark, however it ends. -/
def ChangesOnlyMark {α : Type} (x : Act α) : Prop :=
  ∀ t, ∃ mark, (Operation.after x t).2 = { t.2 with mark }

namespace ChangesOnlyMark

variable {α β : Type} {x : Act α}

theorem still (same : ∀ t, (Operation.after x t).2 = t.2) : ChangesOnlyMark x :=
  fun t => ⟨t.2.mark, same t⟩

theorem bind {f : α → Act β} (first : ChangesOnlyMark x) (second : ∀ a, ChangesOnlyMark (f a)) :
    ChangesOnlyMark (x >>= f) := by
  intro t
  obtain ⟨mark, here⟩ := first t
  unfold Operation.after at here ⊢
  rw [Operation.bind_run]
  cases run : x t with
  | error e after =>
      rw [run] at here
      exact ⟨mark, here⟩
  | ok a after =>
      rw [run] at here
      obtain ⟨mark', there⟩ := second a after
      refine ⟨mark', there.trans ?_⟩
      rw [here]

theorem pure (a : α) : ChangesOnlyMark (Pure.pure a) := still fun _ => rfl

theorem current : ChangesOnlyMark current := still fun _ => rfl

theorem place (mark : Mark) : ChangesOnlyMark (place mark) := fun _ => ⟨mark, rfl⟩

theorem check (passed : Except Fault α) : ChangesOnlyMark (liftM passed : Act α) :=
  still fun _ => by cases passed <;> rfl

theorem defined (value : Option α) : ChangesOnlyMark (liftM value : Act α) :=
  still fun _ => by cases value <;> rfl

theorem onFirst (x : Action Store α) : ChangesOnlyMark (Operation.onFirst x) := by
  refine still fun t => ?_
  unfold Operation.after
  rw [Operation.onFirst_run]
  cases x t.1 <;> rfl

theorem moveOn (n : Nat) : ChangesOnlyMark (moveOn n) :=
  current.bind fun _ => (defined _).bind fun _ => place _

theorem setPosition (position : Nat) : ChangesOnlyMark (setPosition position) :=
  current.bind fun _ => (check _).bind fun _ => place _

theorem advance (n : Nat) : ChangesOnlyMark (advance n) :=
  current.bind fun _ => (check _).bind fun _ => (moveOn n).bind fun _ =>
    current.bind fun _ => pure _

theorem setLimit (limit : Nat) : ChangesOnlyMark (setLimit limit) :=
  current.bind fun _ => (check _).bind fun _ => place _

theorem setOrder (order : ByteOrder) : ChangesOnlyMark (setOrder order) :=
  current.bind fun _ => place _

theorem alignTo (width : Nat) : ChangesOnlyMark (alignTo width) :=
  current.bind fun _ => (check _).bind fun _ => (moveOn _).bind fun _ => pure _

theorem padTo (width : Nat) (byte : UInt8) : ChangesOnlyMark (padTo width byte) := by
  refine current.bind fun c => (check _).bind fun skip => ?_
  split
  · exact (onFirst _).bind fun _ => (moveOn skip).bind fun _ => pure skip
  · exact pure skip

theorem transfer (x : Transfer) : ChangesOnlyMark (transfer x) :=
  current.bind fun _ => (onFirst _).bind fun _ => (moveOn _).bind fun _ => pure _

theorem settle (only : ChangesOnlyMark x) (fault : Fault → Reply) (reply : α → Reply)
    (t : Store × Cursor) : ∃ mark, (x.settle fault reply t).2.2 = { t.2 with mark } := by
  rw [Operation.settle_snd]
  exact only t

end ChangesOnlyMark

end Cursor

open Cursor (ChangesOnlyMark)

variable {s : Store} {c : Cursor}

theorem CursorUse.restore_run (s : Store) (c : Cursor) :
    CursorUse.restore.run (s, c) = (.mark c.saved.head?, s,
      { c with mark := c.saved.headD c.mark, saved := c.saved.tail }) := by
  have run := Cursor.restore_run s c
  obtain ⟨region, mark, saved⟩ := c
  unfold CursorUse.run Operation.settle
  rw [run]
  cases saved <;> rfl

/-- A use of a cursor does one of three things to what it saved. -/
theorem CursorUse.stackStep (how : CursorUse) (s : Store) (c : Cursor) :
    c.StackStep how.stackMove (how.run (s, c)).1 (how.run (s, c)).2.2 := by
  have marks {α : Type} {x : Cursor.Act α} (only : ChangesOnlyMark x) (fault : Fault → Reply)
      (reply : α → Reply) :
      c.StackStep .level (x.settle fault reply (s, c)).1 (x.settle fault reply (s, c)).2.2 := by
    obtain ⟨mark, same⟩ := only.settle fault reply (s, c)
    rw [same]
    exact .level mark _
  cases transfer : c.transfer? how with
  | some found =>
      obtain ⟨x, place⟩ := found
      have level : how.stackMove = .level := by
        cases how <;> first | rfl | cases transfer
      rw [Cursor.run_use transfer, level]
      cases place with
      | none => exact marks (.transfer x) .fault id
      | some offset => exact marks (.onFirst _) .fault id
  | none =>
      cases how with
      | save => exact .push
      | restore =>
          rw [restore_run]
          exact .pop
      | mark => exact .level c.mark _
      | setPosition position => exact marks (.setPosition position) .fault _
      | advance n => exact marks (.advance n) .fault .number
      | setLimit limit => exact marks (.setLimit limit) .fault _
      | setOrder order => exact marks (.setOrder order) .fault _
      | pad width byte => exact marks (.padTo width byte) .fault .number
      | padToWord byte => exact marks (.padTo Host.wordSize byte) .fault .number
      | align width => exact marks (.alignTo width) .fault .number
      | alignToWord => exact marks (.alignTo Host.wordSize) .fault .number
      | _ => cases transfer

/-- Commands after which a name that stands for a cursor stands for it still. They may move the
cursor, and do whatever they like to all else. -/
def Command.Leaves (name : String) : Command → Prop
  | .make other _ => other ≠ name
  | .derive source other how => other ≠ name ∧ (how = .intoRegion → source ≠ name)
  | .use target .drop => target ≠ name
  | _ => True

def Command.stackMove (name : String) : Command → StackMove
  | .use target (.cursor how) => if target = name then how.stackMove else .level
  | _ => .level

/-- What some commands do to the marks that the cursor under a name saved. -/
def stackMoves (name : String) (commands : List Command) : List StackMove :=
  commands.map (·.stackMove name)

namespace Session

variable {s : Session} {name target : String} {commands : List Command}

section Elsewhere

variable {h : Handle}

theorem find?_elsewhere {other : String} (apart : other ≠ name) {table table' : Names Handle}
    (bound : table' = table ∨ ∃ handle, table' = table.bind other handle) :
    table'.find? name = table.find? name := by
  obtain rfl | ⟨handle, rfl⟩ := bound
  · rfl
  · exact Names.find?_bind_other table handle (Ne.symm apart)

theorem derive_elsewhere {source other : String} {how : Deriving} (apart : other ≠ name)
    (spares : how = .intoRegion → source ≠ name) :
    (s.derive source other how).2.handles.find? name = s.handles.find? name := by
  obtain ⟨table, spared, bound⟩ := derive_handles source other how s
  rw [find?_elsewhere apart bound]
  rcases spared with rfl | ⟨gives, rfl⟩
  · rfl
  · exact Names.find?_erase_other s.handles (Ne.symm (spares gives))

theorem use_elsewhere (how : Use) (apart : target ≠ name) :
    (s.use target how).2.handles.find? name = s.handles.find? name := by
  rcases use_handles target how s with same | same | bound
  · rw [same]
  · rw [same]
    exact Names.find?_erase_other s.handles (Ne.symm apart)
  · exact find?_elsewhere apart (.inr bound)

/-- What is copied between streams is no matter of cursors. -/
private theorem copy_elsewhere (source target : String)
    (found : s.handles.find? name = some (.cursor c)) :
    (s.copy source target).2.handles.find? name = some (.cursor c) := by
  unfold copy
  split
  case h_1 r w reads writes =>
    have fromOther : name ≠ source := by
      rintro rfl
      rw [found] at reads
      cases reads
    have toOther : name ≠ target := by
      rintro rfl
      rw [found] at writes
      cases writes
    exact (Names.find?_bind_other _ _ toOther).trans
      ((Names.find?_bind_other _ _ fromOther).trans found)
  case h_2 => exact found

end Elsewhere

/-- One command changes a cursor at most as a use of it. -/
theorem step_stackStep (command : Command) (found : s.handles.find? name = some (.cursor c))
    (leaves : command.Leaves name) :
    ∃ c', (s.step command).2.handles.find? name = some (.cursor c') ∧
      c.StackStep (command.stackMove name) (s.step command).1 c' := by
  have kept (same : (s.perform command).2.handles.find? name = s.handles.find? name)
      (level : command.stackMove name = .level) :
      ∃ c', (s.perform command).2.handles.find? name = some (.cursor c') ∧
        c.StackStep (command.stackMove name) (s.perform command).1 c' := by
    rw [level]
    exact ⟨c, same.trans found, .level c.mark _⟩
  have performed : ∃ c', (s.perform command).2.handles.find? name = some (.cursor c') ∧
      c.StackStep (command.stackMove name) (s.perform command).1 c' := by
    cases command with
    | make other what =>
        refine kept (find?_elsewhere leaves ?_) rfl
        rcases make_handles other what s with same | ⟨h, -, same⟩
        · exact .inl same
        · exact .inr ⟨h, same⟩
    | derive source other how => exact kept (derive_elsewhere leaves.1 leaves.2) rfl
    | copy source target => exact kept ((copy_elsewhere source target found).trans found.symm) rfl
    | ask query => exact kept (congrArg (Names.find? · name) (s.ask_handles query)) rfl
    | unusable target kind => exact kept rfl rfl
    | use target how =>
        rcases Decidable.em (target = name) with rfl | apart
        · cases how with
          | drop => exact absurd rfl leaves
          | cursor how =>
              have stepped := how.stackStep s.store c
              simp only [perform, use, found, Command.stackMove, if_true]
              exact ⟨_, Names.find?_bind_same _ _ _, stepped⟩
          | _ => exact kept (by simp only [perform, use, found]) rfl
        · refine kept (use_elsewhere how apart) ?_
          cases how with
          | cursor how => exact if_neg apart
          | _ => rfl
  obtain ⟨c', there, stepped⟩ := performed
  refine ⟨c', ?_, stepped⟩
  show (s.perform command).2.sweep.handles.find? name = _
  rw [sweep_handles, there]

/-- A run changes a cursor as its commands do one after another. -/
theorem run_stackSteps (found : s.handles.find? name = some (.cursor c))
    (leaves : ∀ command ∈ commands, command.Leaves name) :
    ∃ c', (Session.run commands s).2.handles.find? name = some (.cursor c') ∧
      Cursor.StackSteps c (stackMoves name commands) c' := by
  induction commands generalizing s c with
  | nil => exact ⟨c, found, .nil c⟩
  | cons command rest ih =>
      obtain ⟨between, there, stepped⟩ :=
        step_stackStep command found (leaves command List.mem_cons_self)
      obtain ⟨c', last, steps⟩ := ih there fun later member =>
        leaves later (List.mem_cons_of_mem command member)
      exact ⟨c', last, .cons stepped steps⟩

theorem step_save (found : s.handles.find? name = some (.cursor c)) :
    (s.step (.use name (.cursor .save))).2.handles.find? name =
      some (.cursor { c with saved := c.mark :: c.saved }) := by
  obtain ⟨c', there, stepped⟩ := step_stackStep (.use name (.cursor .save)) found trivial
  have move : (Command.use name (.cursor .save)).stackMove name = .push := if_pos rfl
  rw [move] at stepped
  rw [there, stepped.pushed]

theorem step_restore (found : s.handles.find? name = some (.cursor c)) :
    (s.step (.use name (.cursor .restore))).1 = .mark c.saved.head? ∧
      (s.step (.use name (.cursor .restore))).2.handles.find? name =
        some (.cursor { c with mark := c.saved.headD c.mark, saved := c.saved.tail }) := by
  obtain ⟨c', there, stepped⟩ := step_stackStep (.use name (.cursor .restore)) found trivial
  have move : (Command.use name (.cursor .restore)).stackMove name = .pop := if_pos rfl
  rw [move] at stepped
  obtain ⟨told, rfl⟩ := stepped.popped
  exact ⟨told, there⟩

private theorem restore_undoes {inner : List Command}
    (found : s.handles.find? name = some (.cursor c))
    (leaves : ∀ command ∈ inner, command.Leaves name)
    (level : StackMove.depth? 0 (stackMoves name inner) = some 0) :
    let saved := (Session.run (.use name (.cursor .save) :: inner) s).2
    (saved.step (.use name (.cursor .restore))).1 = .mark (some c.mark) ∧
      (saved.step (.use name (.cursor .restore))).2.handles.find? name = some (.cursor c) := by
  obtain ⟨c', there, steps⟩ := run_stackSteps (step_save found) leaves
  obtain ⟨top, stack, length⟩ := steps.nested (List.nil_append _).symm level
  have stack : c'.saved = c.mark :: c.saved := by
    rw [stack, List.length_eq_zero_iff.mp length]
    rfl
  have region : c'.region = c.region := steps.region
  obtain ⟨told, left⟩ := step_restore there
  rw [stack] at told left
  refine ⟨told, left.trans ?_⟩
  rw [region]
  rfl

/-- How many are taken back decides which mark is told next. -/
private theorem restore_tells {next : List Command}
    (found : s.handles.find? name = some (.cursor c))
    (leaves : ∀ command ∈ next, command.Leaves name)
    (pushless : .push ∉ stackMoves name next) :
    ((Session.run next s).2.step (.use name (.cursor .restore))).1 =
      .mark c.saved[(stackMoves name next).count .pop]? := by
  obtain ⟨c', there, steps⟩ := run_stackSteps found leaves
  rw [(step_restore there).1, steps.unwound pushless, List.head?_drop]

/-- How the marks that a cursor saves are taken back. What is known of a command here is
whether it pushes a mark on the stack of the cursor, pops one, or does neither, and the stack
is followed through a run by counting these. -/
structure Nests (s : Session) (name : String) (c : Cursor) : Prop where
  /-- A push, a run whose pops are as many as its pushes and never ahead of them, and a pop.
  The pop gives the mark of the push, and the cursor is back where it was before the push,
  with the same stack. -/
  undone {inner : List Command} : (∀ command ∈ inner, command.Leaves name) →
    StackMove.depth? 0 (stackMoves name inner) = some 0 →
      let saved := (Session.run (.use name (.cursor .save) :: inner) s).2
      (saved.step (.use name (.cursor .restore))).1 = .mark (some c.mark) ∧
        (saved.step (.use name (.cursor .restore))).2.handles.find? name = some (.cursor c)
  /-- A push, then a run `inner` after which `n` marks lie above the one pushed, then a run
  `next` that pushes nothing and pops `n` times, and one pop more. That pop gives the mark of
  the push: it takes `n` pops to get down to it. -/
  nth {inner next : List Command} : (∀ command ∈ inner ++ next, command.Leaves name) →
    .push ∉ stackMoves name next →
      StackMove.depth? 0 (stackMoves name inner) = some ((stackMoves name next).count .pop) →
        let saved := (Session.run (.use name (.cursor .save) :: (inner ++ next)) s).2
        (saved.step (.use name (.cursor .restore))).1 = .mark (some c.mark)
  /-- A run that pushes nothing and pops `n` times, and one pop more. That pop gives entry `n`
  of the stack as it is now, counted from the top, or no mark if the stack is not so deep. -/
  taken {next : List Command} : (∀ command ∈ next, command.Leaves name) →
    .push ∉ stackMoves name next →
      ((Session.run next s).2.step (.use name (.cursor .restore))).1 =
        .mark c.saved[(stackMoves name next).count .pop]?
  /-- A pop of an empty stack gives no mark and changes nothing. -/
  empty : c.saved = [] → CursorUse.restore.run (s.store, c) = (.mark none, s.store, c)

/-- What any cursor saves is nested. -/
theorem cursor_nests (found : s.handles.find? name = some (.cursor c)) : s.Nests name c where
  undone leaves level := restore_undoes found leaves level
  nth {inner next} leaves pushless depth := by
    obtain ⟨before, after⟩ := List.forall_mem_append.mp leaves
    obtain ⟨c', there, steps⟩ := run_stackSteps (step_save found) before
    obtain ⟨top, stack, length⟩ := steps.nested (List.nil_append _).symm depth
    have told := restore_tells there after pushless
    rw [stack, ← length, List.getElem?_append_right (Nat.le_refl _), Nat.sub_self] at told
    simp only [Session.run, run_append]
    exact told
  taken leaves pushless := restore_tells found leaves pushless
  empty nothing := by
    rw [CursorUse.restore_run, nothing]
    obtain ⟨region, mark, saved⟩ := c
    cases nothing
    rfl

/-- A cursor whose limit is to be pulled below what was saved of it. -/
theorem cursor_nests_limited :
    let s := (Session.run [.make "array" (.newArray 32),
      .derive "array" "cursor" (.cursorWithin 4 32 .bigEndian)] (.initial Host.machine .bare)).2
    let c : Cursor := {
      region := .ofRoot 0 32
      mark := { position := 4, limit := 32, order := .bigEndian } }
    let inner : List Command := [.setLimit 2, .setOrder .littleEndian, .save, .setPosition 9,
      .restore].map fun how => .use "cursor" (.cursor how)
    s.handles.find? "cursor" = some (.cursor c) ∧
      StackMove.depth? 0 (stackMoves "cursor" inner) = some 0 ∧ s.Nests "cursor" c := by
  intro s c inner
  have found : s.handles.find? "cursor" = some (.cursor c) := by decide +kernel
  have level : StackMove.depth? 0 (stackMoves "cursor" inner) = some 0 := by decide
  exact ⟨found, level, cursor_nests found⟩

end Session

end BoundedMemory
