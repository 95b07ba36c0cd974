import Mathlib.Init

/-!
Runs of partial transition functions whose steps are restricted by a
predicate, and the invariant rules for them.
-/

namespace MultisigNative.Library.Transition

variable {σ α : Type}

/-- The states reached from an initial state by steps that all satisfy
`allowed`, a predicate on the state before the step and its action. -/
inductive Reachable (initial : σ → Prop) (step : σ → α → Option σ)
    (allowed : σ → α → Prop) : σ → Prop
  | init {s : σ} : initial s → Reachable initial step allowed s
  | next {s s' : σ} {a : α} : Reachable initial step allowed s →
      allowed s a → step s a = some s' → Reachable initial step allowed s'

variable {initial : σ → Prop} {step : σ → α → Option σ} {allowed : σ → α → Prop}

namespace Reachable

/-- What holds initially and is kept by every allowed step from a reachable
state holds in every reachable state. -/
theorem invariant {I : σ → Prop} (hinit : ∀ s, initial s → I s)
    (hstep : ∀ s a s', Reachable initial step allowed s → I s → allowed s a →
      step s a = some s' → I s')
    {s : σ} (h : Reachable initial step allowed s) : I s := by
  induction h with
  | init h => exact hinit _ h
  | next h hallowed hs ih => exact hstep _ _ _ h ih hallowed hs

theorem mono {allowed' : σ → α → Prop} (hsub : ∀ s a, allowed s a → allowed' s a)
    {s : σ} (h : Reachable initial step allowed s) :
    Reachable initial step allowed' s := by
  induction h with
  | init h => exact .init h
  | next _ hallowed hs ih => exact .next ih (hsub _ _ hallowed) hs

theorem trans {s s' : σ} (h : Reachable initial step allowed s)
    (h' : Reachable (fun t => t = s) step allowed s') :
    Reachable initial step allowed s' := by
  induction h' with
  | init heq => exact heq ▸ h
  | next _ hallowed hs ih => exact ih.next hallowed hs

/-- Two step functions that agree on every allowed step reach the same states. -/
theorem congr {step' : σ → α → Option σ}
    (hsame : ∀ s a, allowed s a → step s a = step' s a) {s : σ}
    (h : Reachable initial step allowed s) : Reachable initial step' allowed s := by
  induction h with
  | init h => exact .init h
  | next _ hallowed hs ih =>
      rw [hsame _ _ hallowed] at hs
      exact ih.next hallowed hs

end Reachable

/-- Perform a list of actions in order, each tested by `ok` first. -/
def perform (step : σ → α → Option σ) (ok : σ → α → Bool) : σ → List α → Option σ
  | s, [] => some s
  | s, a :: as =>
      if ok s a then (step s a).bind fun s' => perform step ok s' as else none

theorem reachable_of_perform {ok : σ → α → Bool}
    (hok : ∀ s a, ok s a = true → allowed s a) {s s' : σ} {as : List α}
    (hs : Reachable initial step allowed s) (h : perform step ok s as = some s') :
    Reachable initial step allowed s' := by
  induction as generalizing s with
  | nil =>
      obtain rfl : s = s' := Option.some.inj h
      exact hs
  | cons a as ih =>
      simp only [perform] at h
      split at h
      · rename_i hallowed
        obtain ⟨mid, hmid, hrest⟩ := Option.bind_eq_some_iff.mp h
        exact ih (hs.next (hok s a hallowed) hmid) hrest
      · cases h

end MultisigNative.Library.Transition
