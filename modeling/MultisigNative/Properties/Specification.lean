import MultisigNative.Properties.Reconfiguration
import MultisigNative.Specification.Simulation

/-!
The program implements committees: whatever is called in whatever order, each account
stores exactly what has become of its committee or motion.
-/

namespace MultisigNative.Properties

open Library.Simulation
open Library.Voting
open Solana
open State
open Processor
open MultisigNative.System
open MultisigNative.Specification
open LocalRuntime

/-- The runs that keep accounts in their roles, up to the close at the end of an
execution, wrap no counter and pass `set_owners` fewer than 256 owners, with their
deeds. -/
abbrev IntendedRun (rt : Runtime) : Config rt → List Deed → List Deed → Prop :=
  Journal Config.Initial step (fun c action => intended c action = true) meaning

/-- Such a run is a run of committees on the deeds that have not been rolled back.  Every
account stores exactly its committee or motion, nothing that a failure would bring back is
lost, and the motions being carried out are those of the executions on the stack. -/
theorem specification_followed {rt : Runtime} {c : Config rt} {deeds kept : List Deed}
    (h : IntendedRun rt c deeds kept) :
    ∃ s back : Board, Runs Step .empty deeds s ∧ Runs Step .empty kept back ∧
      (∀ k, Stores rt (c.world.ledger k) (s.item k)) ∧
      (∀ k, Stores rt (c.committed.ledger k) (back.item k)) ∧
      s.running = docket c.stack ∧ back.running = [] := by
  obtain ⟨s, back, hrun, hback, hstands⟩ := (simulates Stands.of_initial).runs h
  exact ⟨s, back, hrun, hback, hstands.world.stores, hstands.committed.stores,
    hstands.running, hstands.idle⟩

section LocalRuns

/-- Perform actions on a local cluster, and keep the journal. -/
def intendedRun (funded : List Pubkey) (actions : List Action) :
    Option (Config localRuntime × List Deed × List Deed) :=
  record step intended meaning (localStart funded) [] [] actions

theorem intended_of_intendedRun {funded : List Pubkey} {actions : List Action}
    {c : Config localRuntime} {deeds kept : List Deed}
    (h : intendedRun funded actions = some (c, deeds, kept)) :
    IntendedRun localRuntime c deeds kept :=
  journal_of_record (fun _ _ hok => hok) (.init (localStart_initial funded)) h

/-- The sample multisig lowers its threshold; the approval by 13 was rolled back. -/
def loweringActions : List Action :=
  sampleActions [sampleChange] ++
    [localCall [readonly (keyOf 20), writable (keyOf 30), signer (keyOf 13)]
        .approveTransaction,
      .rollback, localCall sampleExecuteAccounts .executeTransaction, .invoke, .finish]

/-- What became known of this to the committee, the newest first. -/
def loweringDeeds : List Deed :=
  [.finish (keyOf 20) (keyOf 30), .adjust (keyOf 20) 1,
    .start (keyOf 20) (keyOf 30) (keyOf 13), .support (keyOf 20) (keyOf 30) (keyOf 12),
    .move (keyOf 20) (keyOf 30) (keyOf 11) [sampleChange],
    .found (keyOf 20) [keyOf 11, keyOf 12, keyOf 13] 2 5]

theorem intendedRun_lowering : ∃ c,
    intendedRun [keyOf 11] loweringActions = some (c, loweringDeeds, loweringDeeds.drop 3) := by
  have hrun : (intendedRun [keyOf 11] loweringActions).map Prod.snd =
      some (loweringDeeds, loweringDeeds.drop 3) := by
    decide +kernel
  obtain ⟨⟨c, journal⟩, hrun, hjournal⟩ := Option.map_eq_some_iff.mp hrun
  subst hjournal
  exact ⟨c, hrun⟩

theorem specification_followed_sample : ∃ (c : Config localRuntime) (s back : Board),
    Runs Step .empty loweringDeeds s ∧ Runs Step .empty (loweringDeeds.drop 3) back ∧
    (∀ k, Stores localRuntime (c.world.ledger k) (s.item k)) ∧
    (∀ k, Stores localRuntime (c.committed.ledger k) (back.item k)) ∧
    s.running = docket c.stack ∧ back.running = [] := by
  obtain ⟨c, hrun⟩ := intendedRun_lowering
  exact ⟨c, specification_followed (intended_of_intendedRun hrun)⟩

end LocalRuns

end MultisigNative.Properties
