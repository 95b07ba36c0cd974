import MultisigNative.Client.Instructions
import MultisigNative.Processor
import MultisigNative.Solana.LocalRuntime

/-!
Client and program agree on the wire format: what the builders serialize is decoded
as the instruction of the same name, and the client reads the accounts that the
program writes.
-/

namespace MultisigNative.Properties

open Library.Borsh
open Solana
open State
open Instructions
open Processor
open Client
open LocalRuntime

/-- The instruction that was built is decoded as `instruction`, provided that Borsh
can encode it: no vector has more elements than a `u32` counts. -/
def Builds (built : Option TransactionInstruction) (instruction : MultisigInstruction) :
    Prop :=
  MultisigInstruction.format.fits instruction = true →
    ∃ ix, built = some ix ∧
      MultisigInstruction.format.tryFromSlice ix.data = some instruction

/-- What `propose_transaction` receives for an instruction to propose. -/
def toStored (ix : TransactionInstruction) : TransactionInstructionData where
  programId := ix.programId
  accounts := ix.keys.map fun key => ⟨key.pubkey, key.isSigner, key.isWritable⟩
  data := ix.data

theorem proposedValue_eq (ix : TransactionInstruction) :
    proposedValue ix = instructionValue (toStored ix) := by
  simp only [proposedValue, instructionValue, toStored, List.map_map]
  rfl

section Builders

variable {js : BorshJs} {α : Type} {fields : List (String × Schema)} {f : Format α}
  {values : α → List (String × Value)} {keys : List AccountMeta} {programId : Pubkey}

/-- A schema that starts with the discriminator and goes on as the fields of the variant
builds the variant. -/
theorem builds_variant (tag : UInt8) (make : α → MultisigInstruction)
    (hfields : DescribesFields fields f values)
    (hfits : ∀ a, MultisigInstruction.format.fits (make a) = f.fits a)
    (hencode : ∀ a, MultisigInstruction.format.encode (make a) = tag :: f.encode a) (a : α) :
    Builds (toTransactionInstruction js
        (.struct (("instructionDiscriminator", .u8) :: fields))
        (.object (("instructionDiscriminator", .number tag.toNat) :: values a))
        keys programId) (make a) := by
  intro hmake
  have hdescribes := (describes_u8.cons "instructionDiscriminator" hfields).struct
  have hvalue : (Schema.struct (("instructionDiscriminator", .u8) :: fields)).format.fits
      (.object (("instructionDiscriminator", .number tag.toNat) :: values a)) = true := by
    refine (hdescribes.fits (tag, a)).trans ?_
    change (u8.fits tag && f.fits a) = true
    rw [← hfits, hmake]
    rfl
  have hbytes : (Schema.struct (("instructionDiscriminator", .u8) :: fields)).format.encode
      (.object (("instructionDiscriminator", .number tag.toNat) :: values a)) =
        MultisigInstruction.format.encode (make a) := by
    rw [hencode]
    exact hdescribes.encode (tag, a)
  refine ⟨⟨keys, programId, MultisigInstruction.format.encode (make a)⟩, ?_, ?_⟩
  · rw [toTransactionInstruction, js.serialize_of_fits _ _ hvalue, hbytes]
    rfl
  · exact MultisigInstruction.format.tryFromSlice_encode hmake

end Builders

section Layouts

/-- The fields that the schemas list after the discriminator are those of the program's
structs. -/
theorem describes_createMultisig :
    DescribesFields
      [("owners", .array (.fixedArray .u8 32)), ("threshold", .u8), ("nonce", .u8)]
      CreateMultisigInstruction.format
      fun ix => [("owners", .array (ix.owners.map toBuffer)),
        ("threshold", byteValue ix.threshold), ("nonce", byteValue ix.nonce)] :=
  (describes_keys.cons "owners" (describes_u8.cons "threshold"
    (describes_u8.last "nonce"))).equiv _

theorem describes_setOwners :
    DescribesFields [("owners", .array (.fixedArray .u8 32))] SetOwnersInstruction.format
      fun ix => [("owners", .array (ix.owners.map toBuffer))] :=
  (describes_keys.last "owners").equiv _

theorem describes_changeThreshold :
    DescribesFields [("threshold", .u8)] ChangeThresholdInstruction.format
      fun ix => [("threshold", byteValue ix.threshold)] :=
  (describes_u8.last "threshold").equiv _

theorem describes_setOwnersAndChangeThreshold :
    DescribesFields [("owners", .array (.fixedArray .u8 32)), ("threshold", .u8)]
      SetOwnersAndChangeThresholdInstruction.format
      fun ix => [("owners", .array (ix.owners.map toBuffer)),
        ("threshold", byteValue ix.threshold)] :=
  (describes_keys.cons "owners" (describes_u8.last "threshold")).equiv _

theorem describes_proposeTransaction :
    DescribesFields
      [("instructions", .array (.struct [
        ("program_id", .fixedArray .u8 32),
        ("accounts", .array (.struct [
          ("pubkey", .fixedArray .u8 32), ("is_signer", .bool), ("is_writable", .bool)])),
        ("data", .array .u8)]))]
      ProposeTransactionInstruction.format
      fun ix => [("instructions", .array (ix.instructions.map instructionValue))] :=
  (describes_instruction.array.last "instructions").equiv _

end Layouts

section Variants

variable (js : BorshJs)

theorem exists_byte {n : Nat} (h : n ≤ 255) : ∃ b : UInt8, b.toNat = n := by
  refine ⟨UInt8.ofNat n, ?_⟩
  rw [UInt8.toNat_ofNat']
  omega

theorem builds_createMultisig (programId : Pubkey) (threshold : Nat) (owners : List Keypair)
    (nonce : Nat) (multisigAccount multisigSigner payer systemProgramId : Pubkey)
    (hthreshold : threshold ≤ 255) (hnonce : nonce ≤ 255) :
    Builds (createCreateMultisigInstruction js programId threshold owners nonce
        multisigAccount multisigSigner payer systemProgramId)
      (.createMultisig ⟨owners.map Keypair.publicKey, UInt8.ofNat threshold,
        UInt8.ofNat nonce⟩) := by
  obtain ⟨threshold, rfl⟩ := exists_byte hthreshold
  obtain ⟨nonce, rfl⟩ := exists_byte hnonce
  have hvalues : owners.map (fun owner => toBuffer owner.publicKey) =
      (owners.map Keypair.publicKey).map toBuffer := by
    rw [List.map_map]
    rfl
  rw [createCreateMultisigInstruction, hvalues, UInt8.ofNat_toNat, UInt8.ofNat_toNat]
  exact builds_variant 0 .createMultisig describes_createMultisig (fun _ => rfl)
    (fun _ => rfl) ⟨owners.map Keypair.publicKey, threshold, nonce⟩

theorem builds_changeThreshold (multisigSigner multisigAccount : Pubkey) (threshold : Nat)
    (programId : Pubkey) (hthreshold : threshold ≤ 255) :
    Builds (createChangeThresholdInstruction js multisigSigner multisigAccount threshold
        programId)
      (.changeThreshold ⟨UInt8.ofNat threshold⟩) := by
  obtain ⟨threshold, rfl⟩ := exists_byte hthreshold
  rw [UInt8.ofNat_toNat]
  exact builds_variant 2 .changeThreshold describes_changeThreshold (fun _ => rfl)
    (fun _ => rfl) ⟨threshold⟩

theorem builds_setOwnersAndChangeThreshold (multisigSigner multisigAccount : Pubkey)
    (owners : List Pubkey) (threshold : Nat) (programId : Pubkey)
    (hthreshold : threshold ≤ 255) :
    Builds (createSetOwnersAndChangeThresholdInstruction js multisigSigner multisigAccount
        owners threshold programId)
      (.setOwnersAndChangeThreshold ⟨owners, UInt8.ofNat threshold⟩) := by
  obtain ⟨threshold, rfl⟩ := exists_byte hthreshold
  rw [UInt8.ofNat_toNat]
  exact builds_variant 3 .setOwnersAndChangeThreshold describes_setOwnersAndChangeThreshold
    (fun _ => rfl) (fun _ => rfl) ⟨owners, threshold⟩

theorem builds_proposeTransaction
    (multisigAccount transactionAccount proposer payer programId : Pubkey)
    (instructions : List TransactionInstruction) (proposerIsSigner : Bool)
    (systemProgramId : Pubkey) :
    Builds (createProposeTransactionInstruction js multisigAccount transactionAccount proposer
        payer programId instructions proposerIsSigner systemProgramId)
      (.proposeTransaction ⟨instructions.map toStored⟩) := by
  have hvalues : instructions.map proposedValue =
      (instructions.map toStored).map instructionValue := by
    rw [List.map_map]
    exact List.map_congr_left fun ix _ => proposedValue_eq ix
  rw [createProposeTransactionInstruction, hvalues]
  exact builds_variant 4 .proposeTransaction describes_proposeTransaction (fun _ => rfl)
    (fun _ => rfl) ⟨instructions.map toStored⟩

end Variants

/-- What each builder serializes is decoded as the instruction of its name with the
arguments given, no byte being left over; and the client reads every multisig and every
transaction that the program can serialize. -/
theorem wire_format_agrees (js : BorshJs) :
    (∀ programId threshold owners nonce multisigAccount multisigSigner payer systemProgramId,
      threshold ≤ 255 → nonce ≤ 255 →
      Builds (createCreateMultisigInstruction js programId threshold owners nonce
          multisigAccount multisigSigner payer systemProgramId)
        (.createMultisig ⟨owners.map Keypair.publicKey, UInt8.ofNat threshold,
          UInt8.ofNat nonce⟩)) ∧
    (∀ multisigSigner multisigAccount owners programId,
      Builds (createSetOwnersInstruction js multisigSigner multisigAccount owners programId)
        (.setOwners ⟨owners⟩)) ∧
    (∀ multisigSigner multisigAccount threshold programId, threshold ≤ 255 →
      Builds (createChangeThresholdInstruction js multisigSigner multisigAccount threshold
          programId)
        (.changeThreshold ⟨UInt8.ofNat threshold⟩)) ∧
    (∀ multisigSigner multisigAccount owners threshold programId, threshold ≤ 255 →
      Builds (createSetOwnersAndChangeThresholdInstruction js multisigSigner multisigAccount
          owners threshold programId)
        (.setOwnersAndChangeThreshold ⟨owners, UInt8.ofNat threshold⟩)) ∧
    (∀ multisigAccount transactionAccount proposer payer programId instructions
      proposerIsSigner systemProgramId,
      Builds (createProposeTransactionInstruction js multisigAccount transactionAccount
          proposer payer programId instructions proposerIsSigner systemProgramId)
        (.proposeTransaction ⟨instructions.map toStored⟩)) ∧
    (∀ multisigAccount transactionAccount approver programId approverIsSigner
      transactionIsWritable,
      Builds (createApproveTransactionInstruction js multisigAccount transactionAccount
          approver programId approverIsSigner transactionIsWritable)
        .approveTransaction) ∧
    (∀ multisigAccount multisigSigner transactionAccount refundee executor remainingAccounts
      programId,
      Builds (createExecuteTransactionInstruction js multisigAccount multisigSigner
          transactionAccount refundee executor remainingAccounts programId)
        .executeTransaction) ∧
    (∀ multisigAccount transactionAccount refundee executor programId,
      Builds (createCancelTransactionInstruction js multisigAccount transactionAccount
          refundee executor programId)
        .cancelTransaction) ∧
    (∀ multisig, Multisig.format.fits multisig = true →
      deserializeMultisig js (Multisig.format.encode multisig) =
        some (multisigValue multisig)) ∧
    ∀ transaction, Transaction.format.fits transaction = true →
      deserializeTransaction js (Transaction.format.encode transaction) =
        some (transactionValue transaction) := by
  refine ⟨builds_createMultisig js, ?_, builds_changeThreshold js,
    builds_setOwnersAndChangeThreshold js, builds_proposeTransaction js, ?_, ?_, ?_, ?_, ?_⟩
  · intro _ _ owners _
    exact builds_variant 1 .setOwners describes_setOwners (fun _ => rfl) (fun _ => rfl)
      ⟨owners⟩
  · intro _ _ _ _ _ _
    exact builds_variant 5 (fun _ => .approveTransaction) describesFields_nil (fun _ => rfl)
      (fun _ => rfl) ()
  · intro _ _ _ _ _ _ _
    exact builds_variant 6 (fun _ => .executeTransaction) describesFields_nil (fun _ => rfl)
      (fun _ => rfl) ()
  · intro _ _ _ _ _
    exact builds_variant 7 (fun _ => .cancelTransaction) describesFields_nil (fun _ => rfl)
      (fun _ => rfl) ()
  · intro multisig hfits
    exact js.deserialize_of_decodes _ _ _ (describes_multisig.tryFromSlice_encode hfits)
  · intro transaction hfits
    exact js.deserialize_of_decodes _ _ _ (describes_transaction.tryFromSlice_encode hfits)

/-- A package that does what the specification says and nothing else. -/
def localBorshJs : BorshJs where
  serialize schema value :=
    if schema.format.fits value then some (schema.format.encode value) else none
  deserialize schema bytes := schema.format.tryFromSlice bytes
  serialize_of_fits _ _ hfits := if_pos hfits
  deserialize_of_decodes _ _ _ hdecodes := hdecodes

theorem wire_format_agrees_sample : ∃ ix,
    createCreateMultisigInstruction localBorshJs programId 2 [⟨keyOf 11⟩, ⟨keyOf 12⟩] 5
      (keyOf 20) (keyOf 21) (keyOf 11) systemProgram = some ix ∧
    MultisigInstruction.format.tryFromSlice ix.data =
      some (.createMultisig ⟨[keyOf 11, keyOf 12], 2, 5⟩) :=
  (wire_format_agrees localBorshJs).1 programId 2 [⟨keyOf 11⟩, ⟨keyOf 12⟩] 5 (keyOf 20)
    (keyOf 21) (keyOf 11) systemProgram (by decide) (by decide) (by decide)

end MultisigNative.Properties
