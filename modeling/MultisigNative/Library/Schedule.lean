import Mathlib.Data.List.Perm.Basic

/-!
Schedules of steps that each leave a state and report something.  A scheduler may take a step
before others that have been waiting longer if it is independent of them.
-/

namespace MultisigNative.Library.Schedule

variable {σ α β : Type}

/-- Take the steps in their order, and keep what each reports. -/
def runAll (step : α → σ → σ × β) : List α → σ → σ × List (α × β)
  | [], s => (s, [])
  | a :: rest, s =>
      let after := runAll step rest (step a s).1
      (after.1, (a, (step a s).2) :: after.2)

/-- The orders in which a scheduler may take the steps that are waiting: the next one is any
that is independent of all those before it. -/
inductive Schedules (independent : α → α → Prop) : List α → List α → Prop
  | done : Schedules independent [] []
  | next {before after scheduled : List α} {a : α} (hfree : ∀ b ∈ before, independent b a)
      (hrest : Schedules independent (before ++ after) scheduled) :
      Schedules independent (before ++ a :: after) (a :: scheduled)

/-- The order of the two steps does not matter, neither to the state nor to the reports. -/
structure Interchange (step : α → σ → σ × β) (a b : α) : Prop where
  state_eq : ∀ s, (step b (step a s).1).1 = (step a (step b s).1).1
  left_eq : ∀ s, (step a (step b s).1).2 = (step a s).2
  right_eq : ∀ s, (step b (step a s).1).2 = (step b s).2

section Schedules

variable {step : α → σ → σ × β} {independent : α → α → Prop}
  {before after waiting scheduled : List α} {a : α}

/-- The same state is left, and each step reports the same. -/
def Agree (r r' : σ × List (α × β)) : Prop := r.1 = r'.1 ∧ r.2.Perm r'.2

theorem Agree.trans {r r' r'' : σ × List (α × β)} (h : Agree r r') (h' : Agree r' r'') :
    Agree r r'' :=
  ⟨h.1.trans h'.1, h.2.trans h'.2⟩

/-- What agrees still agrees after one more step at the front. -/
theorem agree_cons (s : σ) (h : Agree (runAll step waiting (step a s).1)
      (runAll step scheduled (step a s).1)) :
    Agree (runAll step (a :: waiting) s) (runAll step (a :: scheduled) s) :=
  ⟨h.1, h.2.cons _⟩

theorem agree_swap {b : α} (hswap : Interchange step b a) (rest : List α) (s : σ) :
    Agree (runAll step (b :: a :: rest) s) (runAll step (a :: b :: rest) s) := by
  simp only [runAll, hswap.state_eq, hswap.left_eq, hswap.right_eq]
  exact ⟨rfl, .swap _ _ _⟩

/-- A step may be taken before those it is independent of. -/
theorem agree_front (hswap : ∀ b ∈ before, Interchange step b a) (after : List α) (s : σ) :
    Agree (runAll step (before ++ a :: after) s) (runAll step (a :: (before ++ after)) s) := by
  induction before generalizing s with
  | nil => exact ⟨rfl, .refl _⟩
  | cons b before ih =>
      rw [List.forall_mem_cons] at hswap
      exact (agree_cons s (ih hswap.2 _)).trans (agree_swap hswap.1 _ s)

/-- All schedules come to the same. -/
theorem agree_schedules (hswap : ∀ a b, independent a b → Interchange step a b)
    (h : Schedules independent waiting scheduled) (s : σ) :
    Agree (runAll step waiting s) (runAll step scheduled s) := by
  induction h generalizing s with
  | done => exact ⟨rfl, .refl _⟩
  | @next before after scheduled a hfree _ ih =>
      have hfront := agree_front (fun b hb => hswap b a (hfree b hb)) after s
      exact hfront.trans (agree_cons s (ih _))

end Schedules

end MultisigNative.Library.Schedule
