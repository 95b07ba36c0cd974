import MultisigNative.Instructions.Common
import MultisigNative.State.Transaction

namespace MultisigNative.Instructions

open Library.StateError
open Solana
open Errors
open State

namespace CancelTransaction

def validate (programId : Pubkey)
    (multisigAccount transactionAccount refundee executor : AccountInfo) :
    Handler Unit := do
  assertThat (programId == (← multisigAccount.owner))
    MultisigError.accountOwnedByWrongProgram
  assertThat (programId == (← transactionAccount.owner))
    MultisigError.accountOwnedByWrongProgram
  let multisig ← Multisig.checkedDeserialize (← multisigAccount.data)
  let transaction ← Transaction.checkedDeserialize (← transactionAccount.data)
  assertThat (executor.isSigner && multisig.owners.contains executor.key)
    MultisigError.invalidExecutor
  assertThat (multisig.ownerSetSeqno ≥ transaction.ownerSetSeqno)
    MultisigError.invalidOwnerSetSequenceNumber
  assertThat (transaction.multisig == multisigAccount.key)
    MultisigError.invalidTransactionAccount
  assertThat transactionAccount.isWritable MultisigError.immutableTransactionAccount
  assertThat (refundee.key != transactionAccount.key)
    MultisigError.invalidRefundeeAccount
  assertThat refundee.isWritable MultisigError.immutableRefundeeAccount

end CancelTransaction

def cancelTransaction (programId : Pubkey) (accounts : List AccountInfo) :
    Handler Unit := do
  let (multisigAccount, accounts) ← nextAccountInfo accounts
  let (transactionAccount, accounts) ← nextAccountInfo accounts
  let (refundee, accounts) ← nextAccountInfo accounts
  let (executor, _) ← nextAccountInfo accounts
  CancelTransaction.validate programId multisigAccount transactionAccount refundee
    executor
  closeAccount transactionAccount refundee

namespace CancelTransaction

/-- The checks of `cancel_transaction` on the ledger it is called on. -/
structure Valid (programId : Pubkey) (L : Ledger)
    (multisigAccount transactionAccount refundee executor : AccountInfo)
    (multisig : Multisig) (transaction : Transaction) : Prop where
  multisig_owner : (L multisigAccount.key).owner = programId
  owner : (L transactionAccount.key).owner = programId
  multisig_fits : Multisig.format.fits multisig = true
  multisig_data : (L multisigAccount.key).data = Multisig.format.encode multisig
  fits : Transaction.format.fits transaction = true
  data : (L transactionAccount.key).data = Transaction.format.encode transaction
  isSigner : executor.isSigner = true
  executor_mem : executor.key ∈ multisig.owners
  seqno : transaction.ownerSetSeqno ≤ multisig.ownerSetSeqno
  multisig_eq : transaction.multisig = multisigAccount.key
  isWritable : transactionAccount.isWritable = true
  refundee_ne : refundee.key ≠ transactionAccount.key
  refundee_isWritable : refundee.isWritable = true

theorem validate_bind_eq_ok_iff {β : Type} {programId : Pubkey}
    {multisigAccount transactionAccount refundee executor : AccountInfo}
    {f : Unit → Handler β} {b : β} {L L' : Ledger} :
    (validate programId multisigAccount transactionAccount refundee executor >>= f) L =
        .ok b L' ↔
      (∃ multisig transaction, Valid programId L multisigAccount transactionAccount
        refundee executor multisig transaction) ∧ f () L = .ok b L' := by
  rw [bind_eq_ok_iff]
  simp only [validate, AccountInfo.owner_bind, AccountInfo.data_bind,
    Multisig.checkedDeserialize_bind_eq_ok_iff,
    Transaction.checkedDeserialize_bind_eq_ok_iff, liftM_unit_bind_eq_ok_iff,
    liftM_eq_ok_iff, assertThat_eq_ok_iff, beq_iff_eq, bne_iff_ne, Bool.and_eq_true,
    List.contains_iff_mem, decide_eq_true_eq]
  constructor
  · rintro ⟨_, _, ⟨hmowner, howner, multisig, ⟨hmfits, hmdata⟩, transaction,
      ⟨hfits, hdata⟩, ⟨hsigner, hmem⟩, hseqno, heq, hwritable, hne, hrefundee, rfl⟩, hf⟩
    exact ⟨⟨multisig, transaction, ⟨hmowner.symm, howner.symm, hmfits, hmdata, hfits,
      hdata, hsigner, hmem, hseqno, heq, hwritable, hne, hrefundee⟩⟩, hf⟩
  · rintro ⟨⟨multisig, transaction, h⟩, hf⟩
    exact ⟨(), L, ⟨h.multisig_owner.symm, h.owner.symm, multisig,
      ⟨h.multisig_fits, h.multisig_data⟩, transaction, ⟨h.fits, h.data⟩,
      ⟨h.isSigner, h.executor_mem⟩, h.seqno, h.multisig_eq, h.isWritable,
      h.refundee_ne, h.refundee_isWritable, rfl⟩, hf⟩

end CancelTransaction

theorem cancelTransaction_eq_ok_iff {programId : Pubkey} {accounts : List AccountInfo}
    {L L' : Ledger} {u : Unit} :
    cancelTransaction programId accounts L = .ok u L' ↔
      ∃ multisigAccount transactionAccount refundee executor rest multisig transaction,
        accounts = multisigAccount :: transactionAccount :: refundee :: executor ::
          rest ∧
        CancelTransaction.Valid programId L multisigAccount transactionAccount refundee
          executor multisig transaction ∧
        closeAccount transactionAccount refundee L = .ok u L' := by
  simp only [cancelTransaction, nextAccountInfo_bind_eq_ok_iff,
    CancelTransaction.validate_bind_eq_ok_iff]
  constructor
  · rintro ⟨m, _, rfl, t, _, rfl, refundee, _, rfl, executor, rest, rfl,
      ⟨multisig, transaction, hvalid⟩, hclose⟩
    exact ⟨m, t, refundee, executor, rest, multisig, transaction, rfl, hvalid, hclose⟩
  · rintro ⟨m, t, refundee, executor, rest, multisig, transaction, rfl, hvalid, hclose⟩
    exact ⟨m, _, rfl, t, _, rfl, refundee, _, rfl, executor, rest, rfl,
      ⟨multisig, transaction, hvalid⟩, hclose⟩

end MultisigNative.Instructions
