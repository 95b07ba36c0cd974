import Mathlib.Order.WellFounded

/-!
Stacks of tasks.  The task on top has less and less to do, may start others above itself as
long as there is room on the stack, and ends.
-/

namespace MultisigNative.Library.Nesting

variable {α : Type} {r : α → α → Prop} {height : Nat}

/-- A step of the task on top: it ends, it does a part of its work, or it leaves that to
another task. -/
inductive Works (r : α → α → Prop) (height : Nat) : List α → List α → Prop
  | ends {x : α} {rest : List α} : Works r height (x :: rest) rest
  | goesOn {x y : α} {rest : List α} (hless : r y x) :
      Works r height (x :: rest) (y :: rest)
  | starts {x y z : α} {rest : List α} (hless : r y x) (hroom : rest.length + 2 ≤ height) :
      Works r height (x :: rest) (z :: y :: rest)

/-- If what is below comes to its end, so does a task on top of it, by induction on the
room that is left and on the work that the task has to do. -/
theorem acc_cons (hr : WellFounded r) {room : Nat} {rest : List α}
    (hheight : height ≤ rest.length + 1 + room)
    (hrest : Acc (fun stack' stack => Works r height stack stack') rest) (x : α) :
    Acc (fun stack' stack => Works r height stack stack') (x :: rest) := by
  induction room generalizing rest x with
  | zero =>
      induction x using hr.induction with
      | h x ih =>
          constructor
          rintro stack' (_ | hless | ⟨hless, hroom⟩)
          · exact hrest
          · exact ih _ hless
          · omega
  | succ room ihroom =>
      induction x using hr.induction with
      | h x ih =>
          constructor
          rintro stack' (_ | hless | ⟨hless, hroom⟩)
          · exact hrest
          · exact ih _ hless
          · exact ihroom (by rw [List.length_cons]; omega) (ih _ hless) _

/-- Every stack of tasks comes to its end, however many tasks the tasks start. -/
theorem wellFounded_works (hr : WellFounded r) (height : Nat) :
    WellFounded fun stack' stack => Works r height stack stack' := by
  refine ⟨fun stack => ?_⟩
  induction stack with
  | nil =>
      constructor
      rintro stack' ⟨⟩
  | cons x rest ih => exact acc_cons hr (Nat.le_add_left height _) ih x

/-- A run in which the stack works from some step on is impossible. -/
theorem exists_not_works (hr : WellFounded r) (height : Nat) (stackAt : Nat → List α) (n : Nat) :
    ∃ k, n ≤ k ∧ ¬ Works r height (stackAt k) (stackAt (k + 1)) := by
  by_contra hnone
  have hworks : ∀ k, n ≤ k → Works r height (stackAt k) (stackAt (k + 1)) := by
    intro k hk
    by_contra hstop
    exact hnone ⟨k, hk, hstop⟩
  have hchain := wellFounded_iff_isEmpty_descending_chain.mp (wellFounded_works hr height)
  exact hchain.false
    ⟨fun i => stackAt (n + i), fun i => hworks (n + i) (Nat.le_add_right n i)⟩

end MultisigNative.Library.Nesting
