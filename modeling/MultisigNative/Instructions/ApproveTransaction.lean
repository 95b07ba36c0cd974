import MultisigNative.Instructions.ProposeTransaction

namespace MultisigNative.Instructions

open Library.StateError
open Solana
open Errors
open State

namespace ApproveTransaction

def validate (programId : Pubkey) (multisig : Multisig) (transaction : Transaction)
    (approver transactionAccount multisigAccount : AccountInfo) : Handler Unit := do
  assertThat (programId == (← multisigAccount.owner))
    MultisigError.accountOwnedByWrongProgram
  assertThat (programId == (← transactionAccount.owner))
    MultisigError.accountOwnedByWrongProgram
  assertThat (multisig.ownerSetSeqno == transaction.ownerSetSeqno)
    MultisigError.invalidOwnerSetSequenceNumber
  assertThat approver.isSigner MultisigError.approverNotSigner
  assertThat transactionAccount.isWritable MultisigError.immutableTransactionAccount
  assertThat (transaction.multisig == multisigAccount.key)
    MultisigError.invalidTransactionAccount

theorem validate_eq_ok_iff {programId : Pubkey} {multisig : Multisig}
    {transaction : Transaction} {approver transactionAccount multisigAccount : AccountInfo}
    {u : Unit} {L L' : Ledger} :
    validate programId multisig transaction approver transactionAccount
        multisigAccount L = .ok u L' ↔
      (L multisigAccount.key).owner = programId ∧
        (L transactionAccount.key).owner = programId ∧
        multisig.ownerSetSeqno = transaction.ownerSetSeqno ∧
        approver.isSigner = true ∧ transactionAccount.isWritable = true ∧
        transaction.multisig = multisigAccount.key ∧ L = L' := by
  simp only [validate, AccountInfo.owner_bind, assertThat_bind_eq_ok_iff,
    liftM_eq_ok_iff, assertThat_eq_ok_iff, beq_iff_eq]
  constructor
  · rintro ⟨hmowner, howner, hrest⟩
    exact ⟨hmowner.symm, howner.symm, hrest⟩
  · rintro ⟨hmowner, howner, hrest⟩
    exact ⟨hmowner.symm, howner.symm, hrest⟩

theorem validate_bind_eq_ok_iff {β : Type} {programId : Pubkey} {multisig : Multisig}
    {transaction : Transaction} {approver transactionAccount multisigAccount : AccountInfo}
    {f : Unit → Handler β} {b : β} {L L' : Ledger} :
    (validate programId multisig transaction approver transactionAccount
        multisigAccount >>= f) L = .ok b L' ↔
      ((L multisigAccount.key).owner = programId ∧
        (L transactionAccount.key).owner = programId ∧
        multisig.ownerSetSeqno = transaction.ownerSetSeqno ∧
        approver.isSigner = true ∧ transactionAccount.isWritable = true ∧
        transaction.multisig = multisigAccount.key) ∧ f () L = .ok b L' := by
  simp only [bind_eq_ok_iff, validate_eq_ok_iff]
  constructor
  · rintro ⟨_, _, ⟨hmowner, howner, hseqno, hsigner, hwritable, heq, rfl⟩, hf⟩
    exact ⟨⟨hmowner, howner, hseqno, hsigner, hwritable, heq⟩, hf⟩
  · rintro ⟨⟨hmowner, howner, hseqno, hsigner, hwritable, heq⟩, hf⟩
    exact ⟨(), L, ⟨hmowner, howner, hseqno, hsigner, hwritable, heq, rfl⟩, hf⟩

theorem readsOnly_validate (programId : Pubkey) (multisig : Multisig)
    (transaction : Transaction) (approver transactionAccount multisigAccount : AccountInfo)
    (L : Ledger) :
    ReadsOnly (validate programId multisig transaction approver transactionAccount
      multisigAccount) L := by
  refine .bind (AccountInfo.readsOnly_owner _ _) fun _ _ => ?_
  refine .bind (readsOnly_liftM _ _) fun _ _ => ?_
  refine .bind (AccountInfo.readsOnly_owner _ _) fun _ _ => ?_
  refine .bind (readsOnly_liftM _ _) fun _ _ => ?_
  refine .bind (readsOnly_liftM _ _) fun _ _ => ?_
  refine .bind (readsOnly_liftM _ _) fun _ _ => ?_
  exact .bind (readsOnly_liftM _ _) fun _ _ => readsOnly_liftM _ _

theorem validate_ne_panicked (programId : Pubkey) (multisig : Multisig)
    (transaction : Transaction) (approver transactionAccount multisigAccount : AccountInfo)
    (L L' : Ledger) :
    validate programId multisig transaction approver transactionAccount multisigAccount L ≠
      .error .panicked L' := by
  intro h
  simp only [validate, AccountInfo.owner_bind, liftM_bind_eq_panicked_iff] at h
  rcases h with ⟨_, _, _, _, _, _, _, _, _, _, h⟩
  exact liftM_ne_panicked _ _ _ h

end ApproveTransaction

def approveTransaction (programId : Pubkey) (accounts : List AccountInfo) :
    Handler Unit := do
  let (multisigAccount, accounts) ← nextAccountInfo accounts
  let (transactionAccount, accounts) ← nextAccountInfo accounts
  let (approver, _) ← nextAccountInfo accounts
  let multisig ← Multisig.checkedDeserialize (← multisigAccount.data)
  let transaction ← Transaction.checkedDeserialize (← transactionAccount.data)
  ApproveTransaction.validate programId multisig transaction approver
    transactionAccount multisigAccount
  let ownerIndex ← assertPresent (ownerPosition multisig.owners approver.key)
    MultisigError.invalidOwner
  let signers ← markSigner transaction.signers ownerIndex
  serializeInto Transaction.format { transaction with signers := signers }
    transactionAccount

namespace ApproveTransaction

/-- The checks of `approve_transaction` on the ledger it is called on. -/
structure Valid (programId : Pubkey) (L : Ledger)
    (multisigAccount transactionAccount approver : AccountInfo) (multisig : Multisig)
    (transaction : Transaction) (ownerIndex : Nat) : Prop where
  multisig_fits : Multisig.format.fits multisig = true
  multisig_data : (L multisigAccount.key).data = Multisig.format.encode multisig
  fits : Transaction.format.fits transaction = true
  data : (L transactionAccount.key).data = Transaction.format.encode transaction
  multisig_owner : (L multisigAccount.key).owner = programId
  owner : (L transactionAccount.key).owner = programId
  seqno : multisig.ownerSetSeqno = transaction.ownerSetSeqno
  isSigner : approver.isSigner = true
  isWritable : transactionAccount.isWritable = true
  multisig_eq : transaction.multisig = multisigAccount.key
  position : ownerPosition multisig.owners approver.key = some ownerIndex
  ownerIndex_lt : ownerIndex < transaction.signers.length

end ApproveTransaction

/-- A transaction with the flag of one owner position set. -/
def withSigner (transaction : Transaction) (ownerIndex : Nat) : Transaction :=
  { transaction with signers := transaction.signers.set ownerIndex true }

@[simp] theorem withSigner_len (transaction : Transaction) (ownerIndex : Nat) :
    (withSigner transaction ownerIndex).len = transaction.len := by
  simp [withSigner, Transaction.len]

@[simp] theorem withSigner_fits (transaction : Transaction) (ownerIndex : Nat) :
    Transaction.format.fits (withSigner transaction ownerIndex) =
      Transaction.format.fits transaction := by
  rw [Bool.eq_iff_iff, Transaction.format_fits_iff, Transaction.format_fits_iff]
  simp [withSigner]

/-- The one way to panic: all checks pass, and the approver's position among the owners is
no position among the flags. -/
theorem position_of_panicked {programId : Pubkey} {accounts : List AccountInfo}
    {L L' : Ledger} (h : approveTransaction programId accounts L = .error .panicked L') :
    ∃ multisigAccount transactionAccount approver rest multisig transaction ownerIndex,
      accounts = multisigAccount :: transactionAccount :: approver :: rest ∧
      Multisig.checkedDeserialize (L multisigAccount.key).data = .ok multisig ∧
      Transaction.checkedDeserialize (L transactionAccount.key).data = .ok transaction ∧
      ApproveTransaction.validate programId multisig transaction approver
        transactionAccount multisigAccount L = .ok () L ∧
      ownerPosition multisig.owners approver.key = some ownerIndex ∧
      transaction.signers.length ≤ ownerIndex := by
  simp only [approveTransaction, nextAccountInfo_bind_eq_panicked_iff,
    AccountInfo.data_bind] at h
  rcases h with ⟨m, _, rfl, t, _, rfl, approver, rest, rfl, h⟩
  obtain ⟨multisig, hmultisig, h⟩ := liftM_bind_eq_panicked_iff.mp h
  obtain ⟨transaction, htransaction, h⟩ := liftM_bind_eq_panicked_iff.mp h
  refine ⟨m, t, approver, rest, multisig, transaction, ?_⟩
  rcases bind_eq_error_iff.mp h with hvalidate | ⟨_, L₁, hvalidate, hrest⟩
  · exact absurd hvalidate (ApproveTransaction.validate_ne_panicked _ _ _ _ _ _ _ _)
  obtain rfl := (ApproveTransaction.readsOnly_validate _ _ _ _ _ _ _).eq_of_ok _ _ hvalidate
  obtain ⟨i, hposition, hwrite⟩ := liftM_bind_eq_panicked_iff.mp hrest
  rcases bind_eq_error_iff.mp hwrite with hmark | ⟨_, L₂, -, hserialize⟩
  · refine ⟨i, rfl, hmultisig, htransaction, hvalidate,
      assertPresent_eq_ok_iff.mp hposition, ?_⟩
    exact le_of_markSigner_eq_error hmark
  · exact absurd hserialize (serializeInto_ne_panicked _ _ _ _ _)

/-- An approval rewrites the transaction account with one flag set and leaves
every other account alone. -/
theorem approveTransaction_eq_ok_iff {programId : Pubkey}
    {accounts : List AccountInfo} {L L' : Ledger} {u : Unit} :
    approveTransaction programId accounts L = .ok u L' ↔
      ∃ multisigAccount transactionAccount approver rest multisig transaction
          ownerIndex,
        accounts = multisigAccount :: transactionAccount :: approver :: rest ∧
        ApproveTransaction.Valid programId L multisigAccount transactionAccount
          approver multisig transaction ownerIndex ∧
        L' = Function.update L transactionAccount.key
          { L transactionAccount.key with
            data := Transaction.format.encode (withSigner transaction ownerIndex) } := by
  have hwrite : ∀ (info : AccountInfo) (transaction : Transaction) (i : Nat),
      Transaction.format.fits transaction = true →
      (L info.key).data = Transaction.format.encode transaction →
      serializeInto Transaction.format (withSigner transaction i) info L =
        .ok () (Function.update L info.key { L info.key with
          data := Transaction.format.encode (withSigner transaction i) }) := by
    intro info transaction i hfits hdata
    exact serializeInto_eq_ok_of_length (by simpa using hfits) (by simp [hdata])
  simp only [approveTransaction, nextAccountInfo_bind_eq_ok_iff,
    ApproveTransaction.validate_bind_eq_ok_iff, AccountInfo.data_bind,
    Multisig.checkedDeserialize_bind_eq_ok_iff,
    Transaction.checkedDeserialize_bind_eq_ok_iff, assertPresent_bind_eq_ok_iff,
    markSigner_bind_eq_ok_iff]
  constructor
  · rintro ⟨m, _, rfl, t, _, rfl, approver, rest, rfl, multisig, ⟨hmfits, hmdata⟩,
      transaction, ⟨hfits, hdata⟩, ⟨hmowner, howner, hseqno, hsigner, hwritable, heq⟩,
      i, hposition, hlt, hserialize⟩
    refine ⟨m, t, approver, rest, multisig, transaction, i, rfl,
      ⟨hmfits, hmdata, hfits, hdata, hmowner, howner, hseqno, hsigner, hwritable, heq,
        hposition, hlt⟩, ?_⟩
    have heffect := (hwrite t transaction i hfits hdata).symm.trans hserialize
    exact (EStateM.Result.ok.inj heffect).2.symm
  · rintro ⟨m, t, approver, rest, multisig, transaction, i, rfl, h, rfl⟩
    exact ⟨m, _, rfl, t, _, rfl, approver, rest, rfl, multisig,
      ⟨h.multisig_fits, h.multisig_data⟩, transaction, ⟨h.fits, h.data⟩,
      ⟨h.multisig_owner, h.owner, h.seqno, h.isSigner, h.isWritable, h.multisig_eq⟩,
      i, h.position, h.ownerIndex_lt, hwrite t transaction i h.fits h.data⟩

end MultisigNative.Instructions
