import MultisigNative.Properties.Quorum
import MultisigNative.System.Authority

/-!
Only an execution that was accepted for a multisig changes this multisig.
-/

namespace MultisigNative.Properties

open Solana
open State
open Instructions
open Processor
open MultisigNative.System
open LocalRuntime

/-- Earlier in the run the execution was accepted for the multisig at `m`, with a
proposal of its owners that had as many flags set as its threshold asks for. -/
structure AcceptedFor {rt : Runtime} (c : Config rt) (m : Pubkey) (e : Execution rt) :
    Prop where
  multisigAccount : e.validated.multisigAccount.key = m
  accepted : ∃ w, RolesKeptWorld rt w ∧ w.history <:+ c.world.history ∧
    ExecuteTransaction.validate rt rt.programId e.accounts w.ledger =
      .ok e.validated w.ledger ∧
    Multisig.checkedDeserialize (w.ledger m).data = .ok e.validated.multisig ∧
    Transaction.checkedDeserialize
      (w.ledger e.validated.transactionAccount.key).data = .ok e.validated.transaction
  multisig : e.validated.transaction.multisig = m
  seqno : e.validated.transaction.ownerSetSeqno = e.validated.multisig.ownerSetSeqno
  threshold : e.validated.multisig.threshold.toNat ≤
    (e.validated.transaction.signers.filter fun didSign => didSign).length

theorem acceptedFor_of_running {rt : Runtime} {c : Config rt} (h : RolesKeptConfig rt c)
    {e : Execution rt} (he : e ∈ executions c.stack) :
    AcceptedFor c e.validated.multisigAccount.key e := by
  obtain ⟨w, hw, hsuffix, -, hvalidate⟩ := started_of_config h e he
  obtain ⟨executor, rest, -, hvalid, -⟩ :=
    ExecuteTransaction.validate_eq_ok_iff.mp hvalidate
  refine ⟨rfl, ⟨w, hw, hsuffix, hvalidate, ?_, ?_⟩, hvalid.multisig_eq, hvalid.seqno.symm,
    ExecuteTransaction.threshold_le_of_approved hvalid.approved⟩
  · exact hvalid.multisig_decodes
  · exact Transaction.checkedDeserialize_eq_ok_iff.mpr ⟨hvalid.fits, hvalid.data⟩

/-- The address of a multisig signs only for an execution accepted for it. -/
theorem acceptedFor_of_signed {rt : Runtime} {c : Config rt} (h : RolesKeptConfig rt c)
    {action : Action} {instruction : MultisigInstruction} {m s : AccountInfo}
    {rest : List AccountInfo} {stack : List (Frame rt)} {multisig : Multisig}
    (hplans : Plans c action (.call instruction (m :: s :: rest)) stack)
    (hsigned : SignedMultisig rt rt.programId c.world.ledger m s multisig) :
    ∃ e ∈ executions c.stack, AcceptedFor c m.key e := by
  have hpda := rt.pdaProgram_of_createProgramAddress _ _ _ hsigned.pda
  obtain ⟨e, he, hsigns⟩ := signer_granted hplans (confined_of_reachable h)
    (List.mem_cons_of_mem _ (List.mem_cons_self ..)) hsigned.isSigner hpda
  have hkey := hsigns.key_eq hsigned.pda
  exact ⟨e, he, hkey ▸ acceptedFor_of_running h he⟩

/-- As long as no execution closes a multisig at its end, a multisig stays decodable with
the nonce that it was created with, and a step that changes any of it is made while an
execution accepted for it is running. -/
theorem reconfigured_by_execution {rt : Runtime} {c c' : Config rt} {action : Action}
    (h : RolesKeptConfig rt c) (hrole : keepsRoles c action = true)
    (hstep : step c action = some c') (hforward : action ≠ .rollback)
    {later earlier : List Event} {m : Pubkey} {owners : List Pubkey} {nonce : UInt8}
    (hcreated : c.world.history =
      later ++ .multisigCreated m owners nonce :: earlier) :
    ∃ multisig multisig',
      Multisig.checkedDeserialize (c.world.ledger m).data = .ok multisig ∧
      Multisig.checkedDeserialize (c'.world.ledger m).data = .ok multisig' ∧
      multisig.nonce = nonce ∧ multisig'.nonce = nonce ∧
      (multisig' ≠ multisig → ∃ e ∈ executions c.stack, AcceptedFor c m e) := by
  have hrepresents := represents_of_config h
  have hlawful := hrepresents.lawful
  rw [hcreated] at hlawful
  obtain ⟨g, hg, hnonce, -⟩ := multisig_of_created hlawful
  rw [← hcreated] at hg
  change c.world.registry m = .multisig g at hg
  obtain ⟨multisig, hholds⟩ := hrepresents.held.exists_multisig hg
  have hdecode : Multisig.checkedDeserialize (c.world.ledger m).data = .ok multisig :=
    hholds.decodes
  have hkeep : c'.world.ledger m = c.world.ledger m ∨
      Kept rt (c.world.ledger m) (c'.world.ledger m) →
      ∃ multisig multisig',
        Multisig.checkedDeserialize (c.world.ledger m).data = .ok multisig ∧
        Multisig.checkedDeserialize (c'.world.ledger m).data = .ok multisig' ∧
        multisig.nonce = nonce ∧ multisig'.nonce = nonce ∧
        (multisig' ≠ multisig → ∃ e ∈ executions c.stack, AcceptedFor c m e) := by
    intro hsame
    have hdata : (c'.world.ledger m).data = (c.world.ledger m).data := by
      rcases hsame with heq | hkept
      · rw [heq]
      · exact (hkept.owned hholds.owner hholds.funded).2.1
    refine ⟨multisig, multisig, hdecode, ?_, hholds.nonce.trans hnonce,
      hholds.nonce.trans hnonce, fun hne => absurd rfl hne⟩
    rw [hdata]
    exact hdecode
  rcases step_cases hstep with ⟨label, hplan, hperform, -⟩ | ⟨-, -, rfl⟩ | ⟨rfl, -⟩
  · rcases hrepresents.held.multisig_step (perform_effect hperform)
      (keepsRoles_of_planned hrole hplan) hg hholds with
      ⟨-, hkept, -⟩ | ⟨info, s, rest, instruction, written, event, rfl, rfl, hsigned,
        hchange, hfits, hworld⟩
    · exact hkeep (.inr hkept)
    · have hexecution := acceptedFor_of_signed h (plans_of_plan hplan) hsigned
      refine ⟨multisig, written, hdecode, ?_, hholds.nonce.trans hnonce, ?_,
        fun _ => hexecution⟩
      · rw [hworld]
        simp only [writeData_self]
        exact Multisig.checkedDeserialize_encode hfits
      · rw [hchange.nonce_eq]
        exact hholds.nonce.trans hnonce
  · exact hkeep (.inl rfl)
  · exact absurd rfl hforward

/-- Where the account that an execution closes has become a multisig, this is lost. -/
theorem destroyed_of_closed {rt : Runtime} {c c' : Config rt} (h : InRoleConfig rt c)
    {action : Action} {e : Execution rt} {stack : List (Frame rt)}
    (hplan : plan c action = some (.close e, stack))
    (hspares : (Label.close e).sparesMultisigs c.world.registry = false)
    (hstep : step c action = some c') :
    (∃ multisig, Multisig.checkedDeserialize
        (c.world.ledger e.validated.transactionAccount.key).data = .ok multisig) ∧
      c'.world.ledger e.validated.transactionAccount.key = Account.unused := by
  refine ⟨?_, unused_of_closed hplan hstep⟩
  rw [Label.sparesMultisigs, Bool.not_eq_false', Occupant.isMultisig_iff] at hspares
  obtain ⟨g, hg⟩ := hspares
  obtain ⟨multisig, hholds⟩ := (held_of_config h).exists_multisig hg
  exact ⟨multisig, hholds.decodes⟩

/-- The call by which the sample multisig sets its threshold to one. -/
def sampleChange : TransactionInstructionData where
  programId := localRuntime.programId
  accounts := [⟨keyOf 20, false, true⟩, ⟨samplePda, true, false⟩]
  data := MultisigInstruction.format.encode (.changeThreshold ⟨1⟩)

/-- The execution of this call has started. -/
def sampleExecuting : Config localRuntime :=
  (localRun [keyOf 11] (sampleActions [sampleChange] ++
    [localCall sampleExecuteAccounts .executeTransaction])).get (by decide +kernel)

theorem sampleExecuting_rolesKept : RolesKeptConfig localRuntime sampleExecuting :=
  rolesKept_of_localRun (Option.some_get _).symm

theorem sampleExecuting_created : sampleExecuting.world.history =
    sampleExecuting.world.history.dropLast ++
      [.multisigCreated (keyOf 20) [keyOf 11, keyOf 12, keyOf 13] 5] := by
  decide +kernel

theorem reconfigured_by_execution_sample :
    ∃ c', step sampleExecuting .invoke = some c' ∧
    ∃ multisig multisig',
      Multisig.checkedDeserialize (sampleExecuting.world.ledger (keyOf 20)).data =
        .ok multisig ∧
      Multisig.checkedDeserialize (c'.world.ledger (keyOf 20)).data = .ok multisig' ∧
      multisig.nonce = 5 ∧ multisig'.nonce = 5 ∧
      (multisig' ≠ multisig → ∃ e ∈ executions sampleExecuting.stack,
        AcceptedFor sampleExecuting (keyOf 20) e) := by
  obtain ⟨c', hstep⟩ := Option.isSome_iff_exists.mp
    (show (step sampleExecuting .invoke).isSome = true by decide +kernel)
  exact ⟨c', hstep, reconfigured_by_execution sampleExecuting_rolesKept
    (by decide +kernel) hstep (by simp) sampleExecuting_created⟩

/-- The multisig at key 30 is lost while no execution is running but one for key 20. -/
theorem multisig_destroyed : InRoleConfig localRuntime interimSample ∧
    takenInRole interimSample .finish = true ∧
    (∃ later earlier, interimSample.world.history =
      later ++ .multisigCreated (keyOf 30) [keyOf 11, keyOf 14] 5 :: earlier) ∧
    Multisig.checkedDeserialize (interimSample.world.ledger (keyOf 30)).data =
      .ok ⟨[keyOf 11], 1, 5, 1, List.replicate 32 0⟩ ∧
    (∀ e ∈ executions interimSample.stack, ¬ AcceptedFor interimSample (keyOf 30) e) ∧
    ∃ c', step interimSample .finish = some c' ∧
      c'.world.ledger (keyOf 30) = Account.unused := by
  obtain ⟨hrole, hcreated, hdecode, hothers, hstep⟩ :
      takenInRole interimSample .finish = true ∧
      interimSample.world.history = interimSample.world.history.take 6 ++
        .multisigCreated (keyOf 30) [keyOf 11, keyOf 14] 5 ::
          interimSample.world.history.drop 7 ∧
      Multisig.checkedDeserialize (interimSample.world.ledger (keyOf 30)).data =
        .ok ⟨[keyOf 11], 1, 5, 1, List.replicate 32 0⟩ ∧
      ((executions interimSample.stack).all fun e =>
        e.validated.multisigAccount.key == keyOf 20) = true ∧
      ((step interimSample .finish).any fun c' =>
        c'.world.ledger (keyOf 30) == Account.unused) = true := by
    decide +kernel
  refine ⟨interimSample_inRole, hrole, ⟨_, _, hcreated⟩, hdecode, ?_, ?_⟩
  · intro e he haccepted
    have hkey := eq_of_beq (List.all_eq_true.mp hothers e he)
    rw [haccepted.multisigAccount] at hkey
    exact absurd hkey (by decide)
  · obtain ⟨c', hc', hunused⟩ := (Option.any_eq_true _ _).mp hstep
    exact ⟨c', hc', eq_of_beq hunused⟩

end MultisigNative.Properties
