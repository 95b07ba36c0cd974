import MultisigNative.Client.Instructions

/-!
The parts of the TypeScript client's DSL that put instructions for a multisig into one
signed transaction.
-/

namespace MultisigNative.Client

open Library.Borsh
open Solana
open State

/-- A signed transaction: its instructions, who pays for it and whose signatures it
carries. -/
structure Message where
  instructions : List TransactionInstruction
  feePayer : Pubkey
  signers : List Pubkey

/-- `createAndProcessTx`, up to the submission. -/
def createAndProcessTx (instructions : List TransactionInstruction) (payer : Keypair)
    (additionalSigners : List Keypair) : Message where
  instructions := instructions
  feePayer := payer.publicKey
  signers := (payer :: additionalSigners).map Keypair.publicKey

/-- A meta as the text that `JSON.stringify` makes of it, which also shows the order in
which the properties were listed. -/
structure MetaText where
  acc : AccountMeta
  signerFirst : Bool
deriving DecidableEq

section Accounts

variable (multisigSigner : Pubkey)

/-- The multisig's address cannot sign the transaction; it signs for the calls. -/
def withoutSigner (acc : AccountMeta) : AccountMeta :=
  if acc.pubkey == multisigSigner then { acc with isSigner := false } else acc

/-- The metas of an instruction, and its program. -/
def metasOf (ix : TransactionInstruction) : List MetaText :=
  ix.keys.map (fun acc => ⟨withoutSigner multisigSigner acc, true⟩) ++
    [⟨⟨ix.programId, false, false⟩, false⟩]

/-- Of equal texts only the first is kept. -/
def firstOccurrences (accounts : List MetaText) : List MetaText :=
  (accounts.zipIdx.filter fun value => value.2 == accounts.idxOf value.1).map Prod.fst

def dedupedAccounts (ixs : List TransactionInstruction) : List AccountMeta :=
  (firstOccurrences (ixs.flatMap (metasOf multisigSigner))).map MetaText.acc

end Accounts

section Transactions

variable (js : BorshJs) (programId : Pubkey) (payer : Keypair)

def executeTransactionWithMultipleInstructions (txAccount : Pubkey)
    (ixs : List TransactionInstruction) (multisigSigner multisigAddress : Pubkey)
    (executor : Keypair) (refundee : Pubkey) : Option Message := do
  let execute ← createExecuteTransactionInstruction js multisigAddress multisigSigner
    txAccount refundee executor.publicKey (dedupedAccounts multisigSigner ixs) programId
  return createAndProcessTx [execute] payer [executor]

def executeTransaction (txAccount : Pubkey) (ix : TransactionInstruction)
    (multisigSigner multisigAddress : Pubkey) (executor : Keypair) (refundee : Pubkey) :
    Option Message :=
  executeTransactionWithMultipleInstructions js programId payer txAccount [ix]
    multisigSigner multisigAddress executor refundee

/-- `txAccount` is the key pair that is generated for the proposal. -/
def proposeSignAndExecuteTransaction (txAccount proposer : Keypair) (signers : List Keypair)
    (instructions : List TransactionInstruction) (multisigSigner multisigAddress : Pubkey)
    (executor : Keypair) (refundee : Pubkey) : Option Message := do
  let propose ← createProposeTransactionInstruction js multisigAddress txAccount.publicKey
    proposer.publicKey payer.publicKey programId instructions true systemProgram
  let approvals ← signers.mapM fun signer =>
    createApproveTransactionInstruction js multisigAddress txAccount.publicKey
      signer.publicKey programId true true
  let execute ← createExecuteTransactionInstruction js multisigAddress multisigSigner
    txAccount.publicKey refundee executor.publicKey
    (dedupedAccounts multisigSigner instructions) programId
  return createAndProcessTx (propose :: approvals ++ [execute]) payer
    (txAccount :: proposer :: signers)

end Transactions

theorem mem_firstOccurrences {accounts : List MetaText} {value : MetaText} :
    value ∈ firstOccurrences accounts ↔ value ∈ accounts := by
  simp only [firstOccurrences, List.mem_map, List.mem_filter, beq_iff_eq, Prod.exists,
    List.mk_mem_zipIdx_iff_getElem?]
  constructor
  · rintro ⟨_, i, ⟨hget, -⟩, rfl⟩
    exact List.mem_of_getElem? hget
  · intro hmem
    have hlt := List.idxOf_lt_length_iff.mpr hmem
    exact ⟨value, accounts.idxOf value,
      ⟨List.getElem?_eq_some_iff.mpr ⟨hlt, List.getElem_idxOf hlt⟩, rfl⟩, rfl⟩

/-- No meta is lost when the texts are compared. -/
theorem mem_dedupedAccounts {multisigSigner : Pubkey} {ixs : List TransactionInstruction}
    {acc : AccountMeta} :
    acc ∈ dedupedAccounts multisigSigner ixs ↔ ∃ ix ∈ ixs,
      (∃ key ∈ ix.keys, withoutSigner multisigSigner key = acc) ∨
        acc = ⟨ix.programId, false, false⟩ := by
  simp only [dedupedAccounts, List.mem_map, mem_firstOccurrences, List.mem_flatMap, metasOf,
    List.mem_append, List.mem_singleton]
  constructor
  · rintro ⟨_, ⟨ix, hix, ⟨key, hkey, rfl⟩ | rfl⟩, rfl⟩
    · exact ⟨ix, hix, .inl ⟨key, hkey, rfl⟩⟩
    · exact ⟨ix, hix, .inr rfl⟩
  · rintro ⟨ix, hix, ⟨key, hkey, rfl⟩ | rfl⟩
    · exact ⟨_, ⟨ix, hix, .inl ⟨key, hkey, rfl⟩⟩, rfl⟩
    · exact ⟨_, ⟨ix, hix, .inr rfl⟩, rfl⟩

end MultisigNative.Client
