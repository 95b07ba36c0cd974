import MultisigNative.Client.State

/-!
The TypeScript client's builders of instructions.  Each serializes an object by a
hand-written schema, which has to agree with the program's enum of instructions.
-/

namespace MultisigNative.Client

open Library.Borsh
open Solana
open State

/-- The numbers of the client's enum `MultisigInstruction`. -/
inductive Discriminator
  | createMultisig
  | setOwners
  | changeThreshold
  | setOwnersAndChangeThreshold
  | proposeTransaction
  | approveTransaction
  | executeTransaction
  | cancelTransaction

def Discriminator.toNat : Discriminator → Nat
  | .createMultisig => 0
  | .setOwners => 1
  | .changeThreshold => 2
  | .setOwnersAndChangeThreshold => 3
  | .proposeTransaction => 4
  | .approveTransaction => 5
  | .executeTransaction => 6
  | .cancelTransaction => 7

/-- The public half of a key pair. -/
structure Keypair where
  publicKey : Pubkey

structure TransactionInstruction where
  keys : List AccountMeta
  programId : Pubkey
  data : Bytes

def createMultisigSchema : Schema := .struct [
  ("instructionDiscriminator", .u8),
  ("owners", .array (.fixedArray .u8 32)),
  ("threshold", .u8),
  ("nonce", .u8)]

def setOwnersSchema : Schema := .struct [
  ("instructionDiscriminator", .u8),
  ("owners", .array (.fixedArray .u8 32))]

def changeThresholdSchema : Schema := .struct [
  ("instructionDiscriminator", .u8),
  ("threshold", .u8)]

def setOwnersAndChangeThresholdSchema : Schema := .struct [
  ("instructionDiscriminator", .u8),
  ("owners", .array (.fixedArray .u8 32)),
  ("threshold", .u8)]

def proposeTransactionSchema : Schema := .struct [
  ("instructionDiscriminator", .u8),
  ("instructions", .array (.struct [
    ("program_id", .fixedArray .u8 32),
    ("accounts", .array (.struct [
      ("pubkey", .fixedArray .u8 32),
      ("is_signer", .bool),
      ("is_writable", .bool)])),
    ("data", .array .u8)]))]

def approveTransactionSchema : Schema := .struct [("instructionDiscriminator", .u8)]

def executeTransactionSchema : Schema := .struct [("instructionDiscriminator", .u8)]

def cancelTransactionSchema : Schema := .struct [("instructionDiscriminator", .u8)]

section Builders

variable (js : BorshJs)

/-- `new TransactionInstruction({keys, programId, data: Buffer.from(serialize(..))})`. -/
def toTransactionInstruction (schema : Schema) (object : Value) (keys : List AccountMeta)
    (programId : Pubkey) : Option TransactionInstruction :=
  (js.serialize schema object).map fun data => ⟨keys, programId, data⟩

def createCreateMultisigInstruction (programId : Pubkey) (threshold : Nat)
    (owners : List Keypair) (nonce : Nat)
    (multisigAccount multisigSigner payer systemProgramId : Pubkey) :
    Option TransactionInstruction :=
  toTransactionInstruction js createMultisigSchema
    (.object [
      ("instructionDiscriminator", .number Discriminator.createMultisig.toNat),
      ("owners", .array (owners.map fun owner => toBuffer owner.publicKey)),
      ("threshold", .number threshold),
      ("nonce", .number nonce)])
    [⟨multisigAccount, true, true⟩,
      ⟨multisigSigner, false, false⟩,
      ⟨payer, true, true⟩,
      ⟨systemProgramId, false, false⟩]
    programId

def createSetOwnersInstruction (multisigSigner multisigAccount : Pubkey)
    (owners : List Pubkey) (programId : Pubkey) : Option TransactionInstruction :=
  toTransactionInstruction js setOwnersSchema
    (.object [
      ("instructionDiscriminator", .number Discriminator.setOwners.toNat),
      ("owners", .array (owners.map toBuffer))])
    [⟨multisigAccount, false, true⟩, ⟨multisigSigner, true, false⟩]
    programId

def createChangeThresholdInstruction (multisigSigner multisigAccount : Pubkey)
    (threshold : Nat) (programId : Pubkey) : Option TransactionInstruction :=
  toTransactionInstruction js changeThresholdSchema
    (.object [
      ("instructionDiscriminator", .number Discriminator.changeThreshold.toNat),
      ("threshold", .number threshold)])
    [⟨multisigAccount, false, true⟩, ⟨multisigSigner, true, false⟩]
    programId

def createSetOwnersAndChangeThresholdInstruction (multisigSigner multisigAccount : Pubkey)
    (owners : List Pubkey) (threshold : Nat) (programId : Pubkey) :
    Option TransactionInstruction :=
  toTransactionInstruction js setOwnersAndChangeThresholdSchema
    (.object [
      ("instructionDiscriminator", .number Discriminator.setOwnersAndChangeThreshold.toNat),
      ("owners", .array (owners.map toBuffer)),
      ("threshold", .number threshold)])
    [⟨multisigAccount, false, true⟩, ⟨multisigSigner, true, false⟩]
    programId

/-- The closure that the builder maps over the instructions to propose. -/
def proposedValue (ix : TransactionInstruction) : Value := .object [
  ("program_id", toBuffer ix.programId),
  ("accounts", .array (ix.keys.map fun key => .object [
    ("pubkey", toBuffer key.pubkey),
    ("is_signer", .boolean key.isSigner),
    ("is_writable", .boolean key.isWritable)])),
  ("data", bufferValue ix.data)]

def createProposeTransactionInstruction
    (multisigAccount transactionAccount proposer payer programId : Pubkey)
    (instructions : List TransactionInstruction) (proposerIsSigner : Bool)
    (systemProgramId : Pubkey) : Option TransactionInstruction :=
  toTransactionInstruction js proposeTransactionSchema
    (.object [
      ("instructionDiscriminator", .number Discriminator.proposeTransaction.toNat),
      ("instructions", .array (instructions.map proposedValue))])
    [⟨multisigAccount, false, false⟩,
      ⟨transactionAccount, true, true⟩,
      ⟨proposer, proposerIsSigner, false⟩,
      ⟨payer, true, false⟩,
      ⟨systemProgramId, false, false⟩]
    programId

def createApproveTransactionInstruction
    (multisigAccount transactionAccount approver programId : Pubkey)
    (approverIsSigner transactionIsWritable : Bool) : Option TransactionInstruction :=
  toTransactionInstruction js approveTransactionSchema
    (.object [("instructionDiscriminator", .number Discriminator.approveTransaction.toNat)])
    [⟨multisigAccount, false, false⟩,
      ⟨transactionAccount, false, transactionIsWritable⟩,
      ⟨approver, approverIsSigner, false⟩]
    programId

def createExecuteTransactionInstruction
    (multisigAccount multisigSigner transactionAccount refundee executor : Pubkey)
    (remainingAccounts : List AccountMeta) (programId : Pubkey) :
    Option TransactionInstruction :=
  toTransactionInstruction js executeTransactionSchema
    (.object [("instructionDiscriminator", .number Discriminator.executeTransaction.toNat)])
    ([⟨multisigAccount, false, false⟩,
      ⟨multisigSigner, false, false⟩,
      ⟨transactionAccount, false, true⟩,
      ⟨refundee, false, true⟩,
      ⟨executor, true, false⟩] ++ remainingAccounts)
    programId

def createCancelTransactionInstruction
    (multisigAccount transactionAccount refundee executor programId : Pubkey) :
    Option TransactionInstruction :=
  toTransactionInstruction js cancelTransactionSchema
    (.object [("instructionDiscriminator", .number Discriminator.cancelTransaction.toNat)])
    [⟨multisigAccount, false, false⟩,
      ⟨transactionAccount, false, true⟩,
      ⟨refundee, false, true⟩,
      ⟨executor, true, false⟩]
    programId

end Builders

end MultisigNative.Client
