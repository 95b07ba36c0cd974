import MultisigNative.Library.CallLog
import MultisigNative.System.Machine

/-!
The machine runs the program: what a call does to the world is what
`process_instruction` does, and an execution that the machine brings to its end is a
run of `execute_transaction` in which each invocation leaves the ledger that the
machine had when it came back to the execution.
-/

namespace MultisigNative.System

open Library.Borsh
open Library.CallLog
open Library.StateError
open Library.Transition
open Solana
open Instructions
open Processor

instance : MonadLift Handler (Logged Fault Ledger Invocation) := ⟨quietly⟩

variable {rt : Runtime}

section Handlers

variable {w w' : World} {stack stack' : List (Frame rt)} {accounts accounts' : List AccountInfo}
  {data : Bytes}

end Handlers

section Executions

variable {environment : List Invocation → Invocation → Handler Unit}
  {accounts : List AccountInfo} {validated : ValidatedAccounts}

/-- The calls that an accepted execution makes. -/
def invocations (accounts : List AccountInfo) (validated : ValidatedAccounts) :
    List Invocation :=
  validated.transaction.instructions.map (ExecuteTransaction.toInvocation validated accounts)

/-- After its checks `execute_transaction` makes these calls and closes. -/
theorem executeTransaction_of_validate {L L' : Ledger}
    (hvalidate : ExecuteTransaction.validate rt rt.programId accounts L = .ok validated L') :
    executeTransaction rt (call environment) rt.programId accounts (L, []) =
      ((invocations accounts validated).forM (call environment) >>= fun _ =>
        quietly (closeAccount validated.transactionAccount validated.refundee)) (L, []) := by
  obtain ⟨_, _, _, _, rfl⟩ := ExecuteTransaction.validate_eq_ok_iff.mp hvalidate
  have hstart : (quietly (ExecuteTransaction.validate rt rt.programId accounts) :
      Logged Fault Ledger Invocation ValidatedAccounts) (L, []) =
        .ok validated (L, []) := quietly_of_ok [] hvalidate
  rw [executeTransaction]
  refine (bind_of_ok hstart).trans ?_
  simp only [invocations, List.forM_eq_forM, List.forM_map]
  rfl

/-- How far the execution that was started as `e₀` on this ledger, above `rest`, has
come: the invocations it has made left these states, the last of them so far. -/
structure Progress (L₀ : Ledger) (e₀ : Execution rt) (rest : List (Frame rt)) (c : Config rt)
    (above : List (Frame rt)) (e : Execution rt) (states : List Ledger) : Prop where
  stack : c.stack = above ++ .execution e :: rest
  accounts : e.accounts = e₀.accounts
  validated : e.validated = e₀.validated
  remaining : e.remaining = e₀.validated.transaction.instructions.drop states.length
  length_le : states.length ≤ e₀.validated.transaction.instructions.length
  last : states.getLastD L₀ = c.world.ledger
  begun : above ≠ [] → states ≠ []

theorem stack_of_enters {w : World} {stack stack' : List (Frame rt)} {label : Label rt}
    (h : Enters w stack accounts label stack') :
    ∃ pushed, stack' = pushed ++ stack := by
  cases h with
  | «foreign» ne => exact ⟨[_], rfl⟩
  | execution haccounts hvalidate hremaining hbirth => exact ⟨[_], rfl⟩
  | handler => exact ⟨[], rfl⟩

/-- A program that others run above stays where it is. -/
theorem stack_of_plans {c : Config rt} {action : Action} {label : Label rt}
    {top : Frame rt} {above under stack : List (Frame rt)} (h : Plans c action label stack)
    (hstack : c.stack = top :: above ++ under) : ∃ above', stack = above' ++ under := by
  rw [List.cons_append] at hstack
  cases h with
  | call hpass hcaller henters =>
      obtain ⟨pushed, hpushed⟩ := stack_of_enters henters
      refine ⟨pushed ++ top :: above, ?_⟩
      rw [hpushed, hstack, List.append_assoc, List.cons_append]
  | @invoke e ix remaining rest stack accounts label htop hremaining hpass henters =>
      obtain ⟨pushed, hpushed⟩ := stack_of_enters henters
      obtain ⟨-, rfl⟩ := List.cons.inj (hstack.symm.trans htop)
      refine ⟨pushed ++ .execution { e with remaining := remaining } :: above, ?_⟩
      rw [hpushed, List.append_assoc, List.cons_append]
  | finish htop hdone => exact ⟨above, (List.cons.inj (htop.symm.trans hstack)).2⟩
  | leave htop => exact ⟨above, (List.cons.inj (htop.symm.trans hstack)).2⟩
  | «foreign» hcaller => exact ⟨top :: above, hstack⟩

namespace Progress

variable {L₀ : Ledger} {e₀ e : Execution rt} {rest above : List (Frame rt)}
  {c c' : Config rt} {states : List Ledger} {action : Action}

/-- The programs that run above the execution belong to its latest invocation; on top
of the stack the execution makes the next one. -/
theorem step (h : Progress L₀ e₀ rest c above e states) (hstep : System.step c action = some c')
    (hforward : action ≠ .rollback) (hinside : action = .finish → above ≠ []) :
    ∃ above' e' states', Progress L₀ e₀ rest c' above' e' states' := by
  rcases step_cases hstep with ⟨label, hplan, hperform, -⟩ | ⟨-, hempty, -⟩ | ⟨rfl, -⟩
  · have hplans := plans_of_plan hplan
    cases habove : above with
    | cons top above =>
        have hstack := h.stack
        rw [habove] at hstack
        obtain ⟨above', habove'⟩ := stack_of_plans hplans hstack
        have hne : states ≠ [] := h.begun (by simp [habove])
        have hlength : (states.dropLast ++ [c'.world.ledger]).length = states.length := by
          rw [List.length_append, List.length_dropLast, List.length_singleton]
          exact Nat.sub_add_cancel (List.length_pos_iff.mpr hne)
        refine ⟨above', e, states.dropLast ++ [c'.world.ledger], habove', h.accounts,
          h.validated, ?_, ?_, ?_, ?_⟩
        · rw [hlength]
          exact h.remaining
        · rw [hlength]
          exact h.length_le
        · simp
        · simp
    | nil =>
        have hstack := h.stack
        rw [habove, List.nil_append] at hstack
        have hcaller : ¬ ∀ e, c.stack.head? ≠ some (.execution e) := by
          intro hnone
          apply hnone e
          rw [hstack]
          rfl
        generalize hc : c'.stack = stack at hplans
        cases hplans with
        | call hpass hnone henters => exact absurd hnone hcaller
        | «foreign» hnone => exact absurd hnone hcaller
        | leave htop =>
            rw [hstack] at htop
            cases htop
        | finish htop hdone => exact absurd habove (hinside rfl)
        | @invoke e' ix remaining rest' stack accounts label htop hremaining hpass henters =>
            obtain ⟨hframe, rfl⟩ := List.cons.inj (hstack.symm.trans htop)
            obtain rfl := Frame.execution.inj hframe
            obtain ⟨pushed, rfl⟩ := stack_of_enters henters
            have hdrop := h.remaining
            rw [hremaining] at hdrop
            have hlt : states.length < e₀.validated.transaction.instructions.length := by
              by_contra hge
              rw [List.drop_of_length_le (Nat.le_of_not_lt hge)] at hdrop
              cases hdrop
            refine ⟨pushed, { e with remaining := remaining }, states ++ [c'.world.ledger], hc,
              h.accounts, h.validated, ?_, ?_, ?_, ?_⟩
            · rw [List.length_append, List.length_singleton, ← List.drop_drop, ← hdrop]
              rfl
            · rw [List.length_append, List.length_singleton]
              exact hlt
            · simp
            · simp
  · rw [h.stack] at hempty
    simp at hempty
  · exact absurd rfl hforward

end Progress

end Executions

end MultisigNative.System
