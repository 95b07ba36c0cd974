import Mathlib.Data.List.Chain
import MultisigNative.Library.Nesting
import MultisigNative.System.Lifetimes
import MultisigNative.System.Refinement

/-!
How the stack of running programs moves: each program was called by the one below it,
with the privileges that one could pass on, and an execution calls what it has stored.
-/

namespace MultisigNative.System

open Library.Borsh
open Library.Authority
open Library.Nesting
open Library.Transition
open Solana
open State
open Instructions

variable {rt : Runtime}

/-- An execution starts with all the instructions of its proposal. -/
def Frame.Fresh (frame : Frame rt) : Prop :=
  ∀ e, frame = .execution e → e.remaining = e.validated.transaction.instructions

/-- The accounts that an execution passes with an instruction of its proposal. -/
def passedFor (e : Execution rt) (ix : TransactionInstructionData) : List AccountInfo :=
  calleeInfos (ExecuteTransaction.toInvocation e.validated e.accounts ix).instruction.accounts

section Moving

variable {c : Config rt} {action : Action} {label : Label rt} {stack : List (Frame rt)}

/-- Entering a program pushes it, unless it is a handler that returns at once. -/
theorem pushed_of_enter {w : World} {under : List (Frame rt)} {programId : Pubkey}
    {accounts : List AccountInfo} {data : Bytes}
    (h : enter w under programId accounts data = some (label, stack)) :
    stack = under ∨ ∃ frame, stack = frame :: under ∧ frame.programId = programId ∧
      frame.accounts = accounts ∧ frame.Fresh := by
  simp only [enter] at h
  split at h
  · cases h
  · split at h
    · rename_i hprogram
      split at h
      · cases h
      · split at h
        · simp only [Option.some.injEq, Prod.mk.injEq] at h
          rcases h with ⟨-, rfl⟩
          exact .inr ⟨_, rfl, hprogram.symm, rfl, fun e he => by cases he; rfl⟩
        · cases h
      · split at h
        · cases h
        · simp only [Option.some.injEq, Prod.mk.injEq] at h
          exact .inl h.2.symm
    · simp only [Option.some.injEq, Prod.mk.injEq] at h
      rcases h with ⟨-, rfl⟩
      exact .inr ⟨_, rfl, rfl, rfl, fun e he => by cases he⟩

end Moving

section Working

variable {c c' : Config rt} {action : Action} {label : Label rt} {stack : List (Frame rt)}

/-- How many calls the program still makes by itself. -/
def Frame.outstanding : Frame rt → Nat
  | .foreign _ _ _ => 0
  | .execution e => e.remaining.length

/-- What the programs on the stack do by themselves: executions make their calls and end,
and other programs return. -/
def Action.internal : Action → Bool
  | .invoke | .finish | .leave => true
  | _ => false

/-- One program does less than it did, perhaps after it has called another. -/
abbrev Progresses (rt : Runtime) : List (Frame rt) → List (Frame rt) → Prop :=
  Works (fun y x => Frame.outstanding y < Frame.outstanding x) rt.maxStackHeight

theorem room_of_enter {w : World} {under : List (Frame rt)} {programId : Pubkey}
    {accounts : List AccountInfo} {data : Bytes} {planned : Label rt × List (Frame rt)}
    (h : enter w under programId accounts data = some planned) :
    under.length + 1 ≤ rt.maxStackHeight := by
  simp only [enter] at h
  split at h
  · cases h
  · rename_i hmay
    simp only [Bool.not_eq_true, Bool.not_eq_false', mayEnter, Bool.and_eq_true,
      decide_eq_true_eq] at hmay
    exact hmay.1

theorem progresses_of_plan (h : plan c action = some (label, stack))
    (hinternal : action.internal = true) : Progresses rt c.stack stack := by
  cases action with
  | invoke =>
      simp only [plan] at h
      split at h
      · rename_i e rest hstack
        split at h
        · cases h
        · rename_i ix remaining hremaining
          have hless : Frame.outstanding (.execution { e with remaining := remaining }) <
              Frame.outstanding (.execution e) := by
            simp [Frame.outstanding, hremaining]
          split at h
          · have hroom := room_of_enter h
            rw [hstack]
            rcases pushed_of_enter h with rfl | ⟨frame, rfl, -⟩
            · exact .goesOn hless
            · exact .starts hless hroom
          · cases h
      · cases h
  | finish =>
      cases plans_of_plan h with
      | finish hstack hdone =>
          rw [hstack]
          exact .ends
  | leave =>
      cases plans_of_plan h with
      | leave hstack =>
          rw [hstack]
          exact .ends
  | _ => cases hinternal

theorem progresses_of_step (h : step c action = some c') (hinternal : action.internal = true) :
    Progresses rt c.stack c'.stack := by
  rcases step_cases h with ⟨label, hplan, -⟩ | ⟨rfl, -⟩ | ⟨rfl, -⟩
  · exact progresses_of_plan hplan hinternal
  · cases hinternal
  · cases hinternal

end Working

section Tracing

variable {c : Config rt} {frame : Frame rt} {stack stack' : List (Frame rt)}

/-- An execution called the program above it for the instruction that it took last. -/
def CalledFor (upper lower : Frame rt) : Prop :=
  ∀ e, lower = .execution e → ∃ done ix,
    e.validated.transaction.instructions = done ++ ix :: e.remaining ∧
      upper.programId = ix.programId ∧ upper.accounts = passedFor e ix

/-- Every signature on the stack was handed up from an execution that signs, and every
execution has called what it has stored. -/
structure Traced (stack : List (Frame rt)) : Prop where
  handed : HandedDown Frame.HoldsSignature Frame.GrantsSignature stack
  calls : stack.IsChain CalledFor
  begun : ∀ e, .execution e ∈ stack → e.remaining <:+ e.validated.transaction.instructions

namespace Traced

theorem push (h : Traced stack)
    (hpass : ∀ key, frame.HoldsSignature key →
      Passes Frame.HoldsSignature Frame.GrantsSignature stack.head? key)
    (hcalled : ∀ lower ∈ stack.head?, CalledFor frame lower) (hfresh : frame.Fresh) :
    Traced (frame :: stack) where
  handed := ⟨hpass, h.handed⟩
  calls := h.calls.cons hcalled
  begun := by
    intro e he
    rcases List.mem_cons.mp he with rfl | he
    · exact ⟨[], hfresh e rfl⟩
    · exact h.begun e he

end Traced

end Tracing

end MultisigNative.System
