import MultisigNative.Properties.Submission
import MultisigNative.System.Rent

/-!
A quorum that acts in one transaction cannot be stopped: nothing comes between its
proposal, its approvals and the execution.
-/

namespace MultisigNative.Properties

open Library.Borsh
open Library.StateError
open Solana
open State
open Instructions
open Processor
open Client
open MultisigNative.System
open LocalRuntime

section Changes

variable {m : Pubkey} {multisig written amended : Multisig} {event : Event}
  {instruction : MultisigInstruction} {changes : List MultisigInstruction}

end Changes

section Runs

variable {rt : Runtime} {reserved : Pubkey → Bool} {multisig written amended : Multisig}
  {pda : Pubkey} {r : Request} {message : Message} {propose execute ix : TransactionInstruction}
  {approvals ixs : List TransactionInstruction} {c : Config rt} {e : Execution rt}
  {instruction : MultisigInstruction} {changes : List MultisigInstruction} {event : Event}
  {remaining : List TransactionInstructionData} {L : Ledger} {multisig' : Multisig}

/-- The call that the execution makes for a change. -/
theorem changeInfos (hunderway : Underway rt reserved r pda message execute multisig
      (toStored ix :: remaining) c e)
    (hencodes : Encodes rt.programId
      [⟨r.multisigAddress, false, true⟩, ⟨pda, true, false⟩] instruction ix)
    {invocation : Invocation}
    (hinvocation : ExecuteTransaction.toInvocation e.validated e.accounts (toStored ix) =
      invocation) :
    invocation.instruction.programId = rt.programId ∧ invocation.instruction.data = ix.data ∧
      ∃ m s, calleeInfos invocation.instruction.accounts = [m, s] ∧
        m.key = r.multisigAddress ∧ m.isWritable = true ∧ s.key = pda ∧ s.isSigner = true := by
  subst hinvocation
  rw [toInvocation_eq, hunderway.multisigSigner]
  refine ⟨hencodes.programId_eq, rfl, ?_⟩
  simp [proposedCall, toStored, hencodes.keys_eq, calleeInfos]

/-- A change of the owners or the threshold is made by the execution. -/
theorem Underway.change (hunderway : Underway rt reserved r pda message execute multisig
      (toStored ix :: remaining) c e)
    (h : Submits rt r message propose approvals execute)
    (hsound : r.Sound rt reserved multisig' pda L) (hheight : 2 ≤ rt.maxStackHeight)
    (hix : ix ∈ r.instructions)
    (hencodes : Encodes rt.programId
      [⟨r.multisigAddress, false, true⟩, ⟨pda, true, false⟩] instruction ix)
    (hchange : Reconfigures r.multisigAddress multisig instruction written event)
    (hfits : Multisig.format.fits written = true)
    (hpda : rt.createProgramAddress [r.multisigAddress.bytes, [multisig.nonce]]
      rt.programId = some pda) (actions : List Action) :
    ∃ c' e', run c (.invoke :: actions) = run c' actions ∧
      Underway rt reserved r pda message execute written remaining c' e' ∧
      c'.committed = c.committed := by
  obtain ⟨invocation, hinvocation⟩ : ∃ invocation,
    ExecuteTransaction.toInvocation e.validated e.accounts (toStored ix) = invocation := ⟨_, rfl⟩
  obtain ⟨hprogram, hdata, m, s, hinfos, hkey, hwritable, hsigner, hsigns⟩ :=
    changeInfos hunderway hencodes hinvocation
  have hsigned : SignedMultisig rt rt.programId c.world.ledger m s multisig := by
    refine ⟨?_, hunderway.multisig_fits, ?_, ?_, hsigns⟩
    · rw [hkey, hunderway.multisig_data]
    · rw [hkey, hunderway.multisig_owner]
    · rw [hkey, hpda, hsigner]
  rw [← hkey] at hchange
  have hperform := perform_change hsigned hwritable hchange hfits []
  have hnotExecute : instruction ≠ .executeTransaction := by cases hchange <;> simp
  have hcreates : createsAccount instruction = false := by cases hchange <;> rfl
  let next : Frame rt := .execution { e with remaining := remaining }
  have henter : enter c.world [next] rt.programId [m, s] ix.data =
      some (.call instruction [m, s], [next]) :=
    enter_handler (mayEnter_self (by simp only [List.length_nil]; omega)) hencodes.decodes
      hnotExecute fun htrue => by rw [hcreates] at htrue; cases htrue
  have hplan : plan c .invoke = some (.call instruction [m, s], [next]) := by
    refine plan_invoke hunderway.stack hunderway.remaining_eq hinvocation
      (hunderway.privileged h hsound hix hinvocation) ?_
    rw [hprogram, hinfos, hdata]
    exact henter
  obtain ⟨g, hg⟩ := Occupant.isMultisig_iff.mp hunderway.group
  have hrole : (Label.call instruction [m, s] : Label rt).keepsRoles c.world.registry = true := by
    cases hchange <;>
      simp [argsInRole, multisigArg, transactionArg, hkey, hg,
        Occupant.isProposal]
  have hm : ∀ {data : Bytes}, writeData c.world.ledger m.key data r.txAccount.publicKey =
      c.world.ledger r.txAccount.publicKey :=
    fun {data} => writeData_of_ne data (hkey ▸ hunderway.ne.symm)
  refine ⟨_, _, run_cons hplan hrole hperform actions,
    ⟨rfl, rfl, hunderway.accounts_eq, hunderway.multisigAccount, hunderway.multisigSigner,
      hunderway.transactionAccount, hunderway.refundee, hunderway.signsFor, hunderway.ne, ?_,
      ?_, hfits, ?_, ?_, ?_, ?_⟩, rfl⟩
  · change (writeData c.world.ledger m.key _ r.multisigAddress).owner = rt.programId
    rw [← hkey, writeData_self]
    exact hsigned.owner
  · change (writeData c.world.ledger m.key _ r.multisigAddress).data = _
    rw [← hkey, writeData_self]
  · change (writeData c.world.ledger m.key _ r.txAccount.publicKey).owner = rt.programId
    rw [hm]
    exact hunderway.owner
  · change (World.registry ⟨_, event :: c.world.history⟩ r.multisigAddress).isMultisig = true
    rw [World.registry_cons, ← hkey]
    cases hchange <;> simp [Event.apply, hkey, hg, Occupant.changeOwners, Occupant.isMultisig]
  · change (World.registry ⟨_, event :: c.world.history⟩ _).isMultisig = false
    rw [World.registry_of_ne _ (by rw [hchange.subject, hkey]; exact hunderway.ne.symm)]
    exact hunderway.proposal
  · simp only [writeData_lamports]
    exact hunderway.refundable

/-- With all its calls made, the execution closes the proposal. -/
theorem Underway.finish (hunderway : Underway rt reserved r pda message execute multisig [] c e)
    (actions : List Action) :
    ∃ c', run c (.finish :: actions) = run c' actions ∧ c'.stack = [] ∧
      c'.committed = c.committed ∧
      (c'.world.ledger r.multisigAddress).data = Multisig.format.encode multisig ∧
      c'.world.ledger r.txAccount.publicKey = Account.unused := by
  have hkeys : e.validated.transactionAccount.key = r.txAccount.publicKey := by
    rw [hunderway.transactionAccount]
  have hne := e.refundee_ne
  have hsum : (c.world.ledger e.validated.refundee.key).lamports.toNat +
      (c.world.ledger e.validated.transactionAccount.key).lamports.toNat < 2 ^ 64 := by
    rw [hunderway.refundee, hkeys]
    exact hunderway.refundable
  have howner : (c.world.ledger e.validated.transactionAccount.key).owner = rt.programId := by
    rw [hkeys]
    exact hunderway.owner
  obtain ⟨L', hclosed, hperform⟩ := perform_close (.inl howner) hsum
  have hrole : (Label.close e).keepsRoles c.world.registry = true := by
    simp [hkeys, hunderway.proposal]
  refine ⟨_, run_cons (plan_finish hunderway.stack hunderway.remaining_eq) hrole hperform actions,
    rfl, rfl, ?_, ?_⟩
  · exact (hclosed.data_eq _ (by rw [hkeys]; exact hunderway.ne)).trans hunderway.multisig_data
  · exact hkeys ▸ hclosed.account_eq

end Runs

section LocalRuns

end LocalRuns

section LocalRuns

end LocalRuns

end MultisigNative.Properties
