import MultisigNative.Properties.Quorum
import MultisigNative.System.Stack

/-!
Executions come to their end, also where proposals execute proposals.
-/

namespace MultisigNative.Properties

open Library.Nesting
open Library.Transition
open Solana
open Instructions
open MultisigNative.System
open LocalRuntime

/-- What the program on top of the stack does next by itself. -/
def nextAction {rt : Runtime} : List (Frame rt) → Option Action
  | [] => none
  | .foreign _ _ _ :: _ => some .leave
  | .execution e :: _ => some (if e.remaining = [] then .finish else .invoke)

section Ending

variable {rt : Runtime} {c : Config rt} {action : Action}

theorem internal_of_nextAction {stack : List (Frame rt)}
    (h : nextAction stack = some action) : action.internal = true := by
  cases stack with
  | nil => cases h
  | cons frame rest =>
      cases frame with
      | «foreign» programId accounts ne =>
          cases h
          rfl
      | execution e =>
          simp only [nextAction, Option.some.injEq] at h
          subst h
          split <;> rfl

/-- Left to themselves, the programs on the stack return one after the other, or one of
their steps fails. -/
theorem exists_end (c : Config rt) :
    ∃ c', Reachable (fun s => s = c) step (fun s a => nextAction s.stack = some a) c' ∧
      (c'.stack = [] ∨ ∃ a, nextAction c'.stack = some a ∧ step c' a = none) := by
  have hwf : WellFounded fun c' c : Config rt => Progresses rt c.stack c'.stack :=
    InvImage.wf Config.stack
      (wellFounded_works (measure Frame.outstanding).wf rt.maxStackHeight)
  induction c using hwf.induction with
  | h c ih =>
      cases hnext : nextAction c.stack with
      | none =>
          refine ⟨c, .init rfl, .inl ?_⟩
          cases hstack : c.stack with
          | nil => rfl
          | cons frame rest => cases frame <;> simp [hstack, nextAction] at hnext
      | some action =>
          cases hstep : step c action with
          | none => exact ⟨c, .init rfl, .inr ⟨action, hnext, hstep⟩⟩
          | some mid =>
              obtain ⟨c', hreach, hend⟩ :=
                ih mid (progresses_of_step hstep (internal_of_nextAction hnext))
              have hmid : Reachable (fun s => s = c) step
                  (fun s a => nextAction s.stack = some a) mid :=
                .next (.init rfl) hnext hstep
              exact ⟨c', hmid.trans hreach, hend⟩

end Ending

/-- No execution runs on for ever, however its calls execute other proposals or itself and
whatever they do to the proposals: in every infinite run something is asked from outside
again and again, and from every state the programs on the stack come to their end, or to a
step that fails. -/
theorem executions_end {rt : Runtime} :
    (∀ (configs : Nat → Config rt) (actions : Nat → Action),
      (∀ n, step (configs n) (actions n) = some (configs (n + 1))) →
      ∀ n, ∃ k, n ≤ k ∧ (actions k).internal = false) ∧
    ∀ c : Config rt, ∃ c',
      Reachable (fun s => s = c) step (fun s a => nextAction s.stack = some a) c' ∧
      (c'.stack = [] ∨ ∃ a, nextAction c'.stack = some a ∧ step c' a = none) := by
  refine ⟨?_, exists_end⟩
  intro configs actions hrun n
  obtain ⟨k, hk, hstop⟩ := exists_not_works (measure (@Frame.outstanding rt)).wf
    rt.maxStackHeight (fun i => (configs i).stack) n
  refine ⟨k, hk, ?_⟩
  by_contra hinternal
  exact hstop (progresses_of_step (hrun k) (by simpa using hinternal))

section LocalRuns

/-- Between two transactions, with the sample proposal ready. -/
def readySample : Config localRuntime := ⟨sampleConfig.world, [], sampleConfig.world⟩

def executingSample : Config localRuntime :=
  (step readySample (localCall sampleExecuteAccounts .executeTransaction)).get
    (by decide +kernel)

/-- The sample proposal is executed and rolled back for ever. -/
def retriedConfig (n : Nat) : Config localRuntime :=
  if n % 2 = 0 then readySample else executingSample

def retriedAction (n : Nat) : Action :=
  if n % 2 = 0 then localCall sampleExecuteAccounts .executeTransaction else .rollback

theorem retried_runs (n : Nat) :
    step (retriedConfig n) (retriedAction n) = some (retriedConfig (n + 1)) := by
  have hstart : step readySample (localCall sampleExecuteAccounts .executeTransaction) =
      some executingSample := (Option.some_get _).symm
  rcases Nat.mod_two_eq_zero_or_one n with heven | hodd
  · rw [retriedConfig, retriedAction, retriedConfig, if_pos heven, if_pos heven,
      if_neg (by omega), hstart]
  · have hcommitted : executingSample.committed = sampleConfig.world := by
      rcases step_cases hstart with ⟨_, -, -, hkept⟩ | ⟨hcall, -⟩ | ⟨hcall, -⟩
      · rw [hkept, readySample]
      · cases hcall
      · cases hcall
    rw [retriedConfig, retriedAction, retriedConfig, if_neg (by omega), if_neg (by omega),
      if_pos (by omega), step, hcommitted, readySample]

theorem executions_end_sample :
    (∃ k, 1 ≤ k ∧ (retriedAction k).internal = false) ∧
    ∃ c', Reachable (fun s => s = executingSample) step
        (fun s a => nextAction s.stack = some a) c' ∧
      (c'.stack = [] ∨ ∃ a, nextAction c'.stack = some a ∧ step c' a = none) := by
  obtain ⟨hcalls, hends⟩ := @executions_end localRuntime
  exact ⟨hcalls retriedConfig retriedAction retried_runs 1, hends executingSample⟩

end LocalRuns

end MultisigNative.Properties
