import MultisigNative.Instructions.Common
import MultisigNative.State.Transaction

namespace MultisigNative.Instructions

open Library.Borsh
open Library.StateError
open Solana
open Errors
open State

structure ProposeTransactionInstruction where
  instructions : List TransactionInstructionData
deriving DecidableEq

def ProposeTransactionInstruction.format : Format ProposeTransactionInstruction :=
  (vec TransactionInstructionData.format).equiv
    { toFun := fun ix => ix.instructions
      invFun := fun instructions => ⟨instructions⟩
      left_inv := fun _ => rfl
      right_inv := fun _ => rfl }

/-- `signers[index] = true`: an index out of range panics. -/
def markSigner (signers : List Bool) (index : Nat) : Handler (List Bool) :=
  if index < signers.length then pure (signers.set index true) else throw .panicked

theorem markSigner_eq_ok_iff {signers marked : List Bool} {index : Nat} {L L' : Ledger} :
    markSigner signers index L = .ok marked L' ↔
      index < signers.length ∧ signers.set index true = marked ∧ L = L' := by
  unfold markSigner
  split
  · rename_i hlt
    simp [hlt]
  · rename_i hge
    simp [hge]

theorem markSigner_bind_eq_ok_iff {β : Type} {signers : List Bool} {index : Nat}
    {f : List Bool → Handler β} {b : β} {L L' : Ledger} :
    (markSigner signers index >>= f) L = .ok b L' ↔
      index < signers.length ∧ f (signers.set index true) L = .ok b L' := by
  simp only [bind_eq_ok_iff, markSigner_eq_ok_iff]
  constructor
  · rintro ⟨_, _, ⟨hlt, rfl, rfl⟩, hf⟩
    exact ⟨hlt, hf⟩
  · rintro ⟨hlt, hf⟩
    exact ⟨_, L, ⟨hlt, rfl, rfl⟩, hf⟩

theorem le_of_markSigner_eq_error {signers : List Bool} {index : Nat} {e : Fault}
    {L L' : Ledger} (h : markSigner signers index L = .error e L') :
    signers.length ≤ index := by
  unfold markSigner at h
  split at h
  · cases h
  · rename_i hge
    exact Nat.le_of_not_lt hge

theorem readsOnly_markSigner (signers : List Bool) (index : Nat) (L : Ledger) :
    ReadsOnly (markSigner signers index) L where
  atomic := by
    intro e L' herror
    unfold markSigner at herror
    split at herror
    · cases herror
    · cases herror
      rfl
  eq_of_ok := fun _ _ hok => (markSigner_eq_ok_iff.mp hok).2.2.symm

/-- `owners.iter().position(|a| a == key)`. -/
def ownerPosition (owners : List Pubkey) (key : Pubkey) : Option Nat :=
  owners.findIdx? (· == key)

/-- The position found holds the key, and no earlier one does. -/
theorem ownerPosition_eq_some_iff {owners : List Pubkey} {key : Pubkey} {i : Nat} :
    ownerPosition owners key = some i ↔
      owners[i]? = some key ∧ ∀ j < i, owners[j]? ≠ some key := by
  simp only [ownerPosition, List.findIdx?_eq_some_iff_getElem, beq_iff_eq]
  constructor
  · rintro ⟨hi, hkey, hfirst⟩
    refine ⟨by simp [hi, hkey], ?_⟩
    intro j hj hj'
    obtain ⟨hlt, hget⟩ := List.getElem?_eq_some_iff.mp hj'
    exact hfirst j hj hget
  · rintro ⟨hget, hfirst⟩
    obtain ⟨hi, hkey⟩ := List.getElem?_eq_some_iff.mp hget
    refine ⟨hi, hkey, ?_⟩
    intro j hj heq
    exact hfirst j hj (List.getElem?_eq_some_iff.mpr ⟨by omega, heq⟩)

theorem exists_ownerPosition {owners : List Pubkey} {key : Pubkey}
    (h : key ∈ owners) : ∃ i, ownerPosition owners key = some i := by
  rw [← Option.isSome_iff_exists, ownerPosition, List.findIdx?_isSome]
  exact List.any_eq_true.mpr ⟨key, h, beq_self_eq_true key⟩

namespace ProposeTransaction

def validate (programId : Pubkey) (multisigAccount proposer systemProgramInfo : AccountInfo)
    (instruction : ProposeTransactionInstruction) : Handler Unit := do
  assertThat (programId == (← multisigAccount.owner))
    MultisigError.accountOwnedByWrongProgram
  assertThat (systemProgramInfo.key == systemProgram) .incorrectProgramId
  assertThat proposer.isSigner MultisigError.proposerNotSigner
  assertThat (!instruction.instructions.isEmpty) MultisigError.missingInstructions

theorem validate_bind_eq_ok_iff {β : Type} {programId : Pubkey}
    {multisigAccount proposer systemProgramInfo : AccountInfo}
    {instruction : ProposeTransactionInstruction} {f : Unit → Handler β} {b : β}
    {L L' : Ledger} :
    (validate programId multisigAccount proposer systemProgramInfo instruction >>= f) L =
        .ok b L' ↔
      ((L multisigAccount.key).owner = programId ∧
        systemProgramInfo.key = systemProgram ∧ proposer.isSigner = true ∧
        instruction.instructions ≠ []) ∧ f () L = .ok b L' := by
  rw [bind_eq_ok_iff]
  simp only [validate, AccountInfo.owner_bind, assertThat_bind_eq_ok_iff,
    liftM_eq_ok_iff, assertThat_eq_ok_iff, beq_iff_eq, Bool.not_eq_true',
    List.isEmpty_eq_false_iff]
  constructor
  · rintro ⟨_, _, ⟨howner, hsystem, hsigner, hne, rfl⟩, hf⟩
    exact ⟨⟨howner.symm, hsystem, hsigner, hne⟩, hf⟩
  · rintro ⟨⟨howner, hsystem, hsigner, hne⟩, hf⟩
    exact ⟨(), L, ⟨howner.symm, hsystem, hsigner, hne, rfl⟩, hf⟩

end ProposeTransaction

def proposeTransaction (rt : Runtime) (programId : Pubkey) (accounts : List AccountInfo)
    (instruction : ProposeTransactionInstruction) : Handler Unit := do
  let (multisigAccount, accounts) ← nextAccountInfo accounts
  let (transactionAccount, accounts) ← nextAccountInfo accounts
  let (proposer, accounts) ← nextAccountInfo accounts
  let (payer, accounts) ← nextAccountInfo accounts
  let (systemProgramInfo, _) ← nextAccountInfo accounts
  ProposeTransaction.validate programId multisigAccount proposer systemProgramInfo
    instruction
  let multisig ← Multisig.checkedDeserialize (← multisigAccount.data)
  let ownerIndex ← assertPresent (ownerPosition multisig.owners proposer.key)
    MultisigError.invalidOwner
  let signers ← markSigner (List.replicate multisig.owners.length false) ownerIndex
  let transactionData : Transaction :=
    { multisig := multisigAccount.key
      instructions := instruction.instructions
      signers := signers
      ownerSetSeqno := multisig.ownerSetSeqno }
  createAndSerialize rt Transaction.format transactionData transactionData.len payer
    transactionAccount programId

namespace ProposeTransaction

/-- The transaction that a proposal stores. -/
def newTransaction (multisigKey : Pubkey) (multisig : Multisig) (ownerIndex : Nat)
    (instruction : ProposeTransactionInstruction) : Transaction where
  multisig := multisigKey
  instructions := instruction.instructions
  signers := (List.replicate multisig.owners.length false).set ownerIndex true
  ownerSetSeqno := multisig.ownerSetSeqno

/-- The checks of `propose_transaction` on the ledger it is called on. -/
structure Valid (programId : Pubkey) (L : Ledger)
    (multisigAccount proposer systemProgramInfo : AccountInfo)
    (instruction : ProposeTransactionInstruction) (multisig : Multisig)
    (ownerIndex : Nat) : Prop where
  owner : (L multisigAccount.key).owner = programId
  systemProgram : systemProgramInfo.key = Solana.systemProgram
  isSigner : proposer.isSigner = true
  instructions_ne : instruction.instructions ≠ []
  fits : Multisig.format.fits multisig = true
  data : (L multisigAccount.key).data = Multisig.format.encode multisig
  position : ownerPosition multisig.owners proposer.key = some ownerIndex

theorem Valid.ownerIndex_lt {programId : Pubkey} {L : Ledger}
    {multisigAccount proposer systemProgramInfo : AccountInfo}
    {instruction : ProposeTransactionInstruction} {multisig : Multisig}
    {ownerIndex : Nat}
    (h : Valid programId L multisigAccount proposer systemProgramInfo instruction
      multisig ownerIndex) : ownerIndex < multisig.owners.length :=
  (List.getElem?_eq_some_iff.mp (ownerPosition_eq_some_iff.mp h.position).1).1

end ProposeTransaction

theorem proposeTransaction_eq_ok_iff {rt : Runtime} {programId : Pubkey}
    {accounts : List AccountInfo} {instruction : ProposeTransactionInstruction}
    {L L' : Ledger} {u : Unit} :
    proposeTransaction rt programId accounts instruction L = .ok u L' ↔
      ∃ multisigAccount transactionAccount proposer payer systemProgramInfo rest
          multisig ownerIndex,
        accounts = multisigAccount :: transactionAccount :: proposer :: payer ::
          systemProgramInfo :: rest ∧
        ProposeTransaction.Valid programId L multisigAccount proposer
          systemProgramInfo instruction multisig ownerIndex ∧
        createAndSerialize rt Transaction.format
          (ProposeTransaction.newTransaction multisigAccount.key multisig ownerIndex
            instruction)
          (ProposeTransaction.newTransaction multisigAccount.key multisig ownerIndex
            instruction).len payer transactionAccount programId L = .ok u L' := by
  simp only [proposeTransaction, nextAccountInfo_bind_eq_ok_iff,
    ProposeTransaction.validate_bind_eq_ok_iff, AccountInfo.data_bind,
    Multisig.checkedDeserialize_bind_eq_ok_iff, assertPresent_bind_eq_ok_iff,
    markSigner_bind_eq_ok_iff, List.length_replicate]
  constructor
  · rintro ⟨m, _, rfl, t, _, rfl, proposer, _, rfl, payer, _, rfl, system, rest, rfl,
      ⟨howner, hsystem, hsigner, hne⟩, multisig, ⟨hfits, hdata⟩, i, hposition, -,
      hcreate⟩
    exact ⟨m, t, proposer, payer, system, rest, multisig, i, rfl,
      ⟨howner, hsystem, hsigner, hne, hfits, hdata, hposition⟩, hcreate⟩
  · rintro ⟨m, t, proposer, payer, system, rest, multisig, i, rfl, h, hcreate⟩
    exact ⟨m, _, rfl, t, _, rfl, proposer, _, rfl, payer, _, rfl, system, rest, rfl,
      ⟨h.owner, h.systemProgram, h.isSigner, h.instructions_ne⟩, multisig,
      ⟨h.fits, h.data⟩, i, h.position, h.ownerIndex_lt, hcreate⟩

end MultisigNative.Instructions
