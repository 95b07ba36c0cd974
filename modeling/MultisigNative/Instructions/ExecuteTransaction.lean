import MultisigNative.Instructions.Common
import MultisigNative.State.Transaction

namespace MultisigNative.Instructions

open Library.Borsh
open Library.StateError
open Solana
open Errors
open State

structure ValidatedAccounts where
  multisigAccount : AccountInfo
  multisigSigner : AccountInfo
  transactionAccount : AccountInfo
  refundee : AccountInfo
  multisig : Multisig
  transaction : Transaction
deriving DecidableEq

/-- The arguments of one `invoke_signed`. -/
structure Invocation where
  instruction : Instruction
  accounts : List AccountInfo
  signersSeeds : List (List Bytes)
deriving DecidableEq

/-- `transaction.signers.iter().filter(|&did_sign| *did_sign).count() as u8`. -/
def approvalCount (transaction : Transaction) : UInt8 :=
  UInt8.ofNat (transaction.signers.filter fun didSign => didSign).length

namespace ExecuteTransaction

def validate (rt : Runtime) (programId : Pubkey) (accounts : List AccountInfo) :
    Handler ValidatedAccounts := do
  let (multisigAccount, accounts) ← nextAccountInfo accounts
  let (multisigSigner, accounts) ← nextAccountInfo accounts
  let (transactionAccount, accounts) ← nextAccountInfo accounts
  let (refundee, accounts) ← nextAccountInfo accounts
  let (executor, _) ← nextAccountInfo accounts
  assertThat (programId == (← multisigAccount.owner))
    MultisigError.accountOwnedByWrongProgram
  assertThat (programId == (← transactionAccount.owner))
    MultisigError.accountOwnedByWrongProgram
  let multisig ← Multisig.checkedDeserialize (← multisigAccount.data)
  let transaction ← Transaction.checkedDeserialize (← transactionAccount.data)
  assertThat (executor.isSigner && multisig.owners.contains executor.key)
    MultisigError.invalidExecutor
  assertThat (multisig.ownerSetSeqno == transaction.ownerSetSeqno)
    MultisigError.invalidOwnerSetSequenceNumber
  validatePda rt multisigSigner multisigAccount multisig.nonce
    (← multisigAccount.owner)
  assertThat transactionAccount.isWritable MultisigError.immutableTransactionAccount
  assertThat (transaction.multisig == multisigAccount.key)
    MultisigError.invalidTransactionAccount
  assertThat (refundee.key != transactionAccount.key)
    MultisigError.invalidRefundeeAccount
  assertThat refundee.isWritable MultisigError.immutableRefundeeAccount
  assertThat (approvalCount transaction ≥ multisig.threshold)
    MultisigError.notEnoughSigners
  return { multisigAccount, multisigSigner, transactionAccount, refundee, multisig,
           transaction }

def signerSeeds (validated : ValidatedAccounts) : List Bytes :=
  [validated.multisigAccount.key.bytes, [validated.multisig.nonce]]

/-- The multisig's PDA signs wherever it occurs among the metas. -/
def signPda (validated : ValidatedAccounts) (acc : AccountMeta) : AccountMeta :=
  if acc.pubkey == validated.multisigSigner.key then { acc with isSigner := true }
  else acc

/-- The closure that `execute_transaction` maps over the stored instructions,
up to its call of `invoke_signed`. -/
def toInvocation (validated : ValidatedAccounts) (accounts : List AccountInfo)
    (ix : TransactionInstructionData) : Invocation :=
  let ix := ix.toInstruction
  { instruction := { ix with accounts := ix.accounts.map (signPda validated) }
    accounts := accounts
    signersSeeds := [signerSeeds validated] }

end ExecuteTransaction

/-- `invokeSigned` is the runtime's cross-program invocation, in any monad that
the accesses of this program lift to.  The first call that fails ends the
handler, as collecting into a `Result` does. -/
def executeTransaction {m : Type → Type} [Monad m] [MonadLiftT Handler m]
    (rt : Runtime) (invokeSigned : Invocation → m Unit) (programId : Pubkey)
    (accounts : List AccountInfo) : m Unit := do
  let validated ← ExecuteTransaction.validate rt programId accounts
  validated.transaction.instructions.forM fun ix =>
    invokeSigned (ExecuteTransaction.toInvocation validated accounts ix)
  closeAccount validated.transactionAccount validated.refundee

namespace ExecuteTransaction

/-- The checks of `execute_transaction` on the ledger it is called on. -/
structure Valid (rt : Runtime) (programId : Pubkey) (L : Ledger)
    (validated : ValidatedAccounts) (executor : AccountInfo) : Prop where
  multisig_owner : (L validated.multisigAccount.key).owner = programId
  owner : (L validated.transactionAccount.key).owner = programId
  multisig_fits : Multisig.format.fits validated.multisig = true
  multisig_data : (L validated.multisigAccount.key).data =
    Multisig.format.encode validated.multisig
  fits : Transaction.format.fits validated.transaction = true
  data : (L validated.transactionAccount.key).data =
    Transaction.format.encode validated.transaction
  isSigner : executor.isSigner = true
  executor_mem : executor.key ∈ validated.multisig.owners
  seqno : validated.multisig.ownerSetSeqno = validated.transaction.ownerSetSeqno
  pda : rt.createProgramAddress
    [validated.multisigAccount.key.bytes, [validated.multisig.nonce]] programId =
    some validated.multisigSigner.key
  isWritable : validated.transactionAccount.isWritable = true
  multisig_eq : validated.transaction.multisig = validated.multisigAccount.key
  refundee_ne : validated.refundee.key ≠ validated.transactionAccount.key
  refundee_isWritable : validated.refundee.isWritable = true
  approved : validated.multisig.threshold ≤ approvalCount validated.transaction

theorem validate_eq_ok_iff {rt : Runtime} {programId : Pubkey}
    {accounts : List AccountInfo} {validated : ValidatedAccounts} {L L' : Ledger} :
    validate rt programId accounts L = .ok validated L' ↔
      ∃ executor rest,
        accounts = validated.multisigAccount :: validated.multisigSigner ::
          validated.transactionAccount :: validated.refundee :: executor :: rest ∧
        Valid rt programId L validated executor ∧ L = L' := by
  simp only [validate, nextAccountInfo_bind_eq_ok_iff, AccountInfo.owner_bind,
    AccountInfo.data_bind, Multisig.checkedDeserialize_bind_eq_ok_iff,
    Transaction.checkedDeserialize_bind_eq_ok_iff, liftM_unit_bind_eq_ok_iff,
    assertThat_eq_ok_iff, validatePda_eq_ok_iff, pure_eq_ok_iff, beq_iff_eq,
    bne_iff_ne, Bool.and_eq_true, List.contains_iff_mem, decide_eq_true_eq]
  constructor
  · rintro ⟨m, _, rfl, s, _, rfl, t, _, rfl, refundee, _, rfl, executor, rest, rfl,
      hmowner, howner, multisig, ⟨hmfits, hmdata⟩, transaction, ⟨hfits, hdata⟩,
      ⟨hsigner, hmem⟩, hseqno, hpda, hwritable, heq, hne, hrefundee, happroved, rfl,
      hledger⟩
    rw [← hmowner] at hpda
    exact ⟨executor, rest, rfl, ⟨hmowner.symm, howner.symm, hmfits, hmdata, hfits,
      hdata, hsigner, hmem, hseqno, hpda, hwritable, heq, hne, hrefundee, happroved⟩,
      hledger⟩
  · rintro ⟨executor, rest, rfl, h, hledger⟩
    have hpda := h.pda
    rw [← h.multisig_owner] at hpda
    exact ⟨_, _, rfl, _, _, rfl, _, _, rfl, _, _, rfl, executor, rest, rfl,
      h.multisig_owner.symm, h.owner.symm, _, ⟨h.multisig_fits, h.multisig_data⟩, _,
      ⟨h.fits, h.data⟩, ⟨h.isSigner, h.executor_mem⟩, h.seqno, hpda, h.isWritable,
      h.multisig_eq, h.refundee_ne, h.refundee_isWritable, h.approved, rfl, hledger⟩

/-- The checks that `execute_transaction` makes before it counts the approvals. -/
structure Ready (rt : Runtime) (programId : Pubkey) (L : Ledger)
    (validated : ValidatedAccounts) (executor : AccountInfo) : Prop where
  multisig_owner : (L validated.multisigAccount.key).owner = programId
  owner : (L validated.transactionAccount.key).owner = programId
  multisig_fits : Multisig.format.fits validated.multisig = true
  multisig_data : (L validated.multisigAccount.key).data =
    Multisig.format.encode validated.multisig
  fits : Transaction.format.fits validated.transaction = true
  data : (L validated.transactionAccount.key).data =
    Transaction.format.encode validated.transaction
  isSigner : executor.isSigner = true
  executor_mem : executor.key ∈ validated.multisig.owners
  seqno : validated.multisig.ownerSetSeqno = validated.transaction.ownerSetSeqno
  pda : rt.createProgramAddress
    [validated.multisigAccount.key.bytes, [validated.multisig.nonce]] programId =
    some validated.multisigSigner.key
  isWritable : validated.transactionAccount.isWritable = true
  multisig_eq : validated.transaction.multisig = validated.multisigAccount.key
  refundee_ne : validated.refundee.key ≠ validated.transactionAccount.key
  refundee_isWritable : validated.refundee.isWritable = true

section Ready

variable {rt : Runtime} {programId : Pubkey} {L : Ledger} {validated : ValidatedAccounts}
  {executor : AccountInfo}

theorem Valid.ready (h : Valid rt programId L validated executor) :
    Ready rt programId L validated executor :=
  { h with }

theorem Ready.valid_iff (h : Ready rt programId L validated executor) :
    Valid rt programId L validated executor ↔
      validated.multisig.threshold ≤ approvalCount validated.transaction :=
  ⟨fun hvalid => hvalid.approved, fun happroved => { h with approved := happroved }⟩

end Ready

theorem Valid.multisig_decodes {rt : Runtime} {programId : Pubkey} {L : Ledger}
    {validated : ValidatedAccounts} {executor : AccountInfo}
    (h : Valid rt programId L validated executor) :
    Multisig.checkedDeserialize (L validated.multisigAccount.key).data =
      .ok validated.multisig :=
  Multisig.checkedDeserialize_eq_ok_iff.mpr ⟨h.multisig_fits, h.multisig_data⟩

/-- The truncated count never exceeds the number of flags set. -/
theorem threshold_le_of_approved {multisig : Multisig} {transaction : Transaction}
    (h : multisig.threshold ≤ approvalCount transaction) :
    multisig.threshold.toNat ≤
      (transaction.signers.filter fun didSign => didSign).length := by
  have hle := UInt8.le_iff_toNat_le.mp h
  rw [approvalCount, UInt8.toNat_ofNat'] at hle
  exact Nat.le_trans hle (Nat.mod_le _ _)

end ExecuteTransaction

end MultisigNative.Instructions
