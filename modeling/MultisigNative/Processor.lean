import MultisigNative.Instructions.ApproveTransaction
import MultisigNative.Instructions.CancelTransaction
import MultisigNative.Instructions.Configuration
import MultisigNative.Instructions.CreateMultisig
import MultisigNative.Instructions.ExecuteTransaction

namespace MultisigNative.Processor

open Library.Borsh
open Solana
open Instructions

inductive MultisigInstruction
  | createMultisig (data : CreateMultisigInstruction)
  | setOwners (data : SetOwnersInstruction)
  | changeThreshold (data : ChangeThresholdInstruction)
  | setOwnersAndChangeThreshold (data : SetOwnersAndChangeThresholdInstruction)
  | proposeTransaction (data : ProposeTransactionInstruction)
  | approveTransaction
  | executeTransaction
  | cancelTransaction
deriving DecidableEq

namespace MultisigInstruction

def fits : MultisigInstruction → Bool
  | .createMultisig data => CreateMultisigInstruction.format.fits data
  | .setOwners data => SetOwnersInstruction.format.fits data
  | .changeThreshold data => ChangeThresholdInstruction.format.fits data
  | .setOwnersAndChangeThreshold data =>
      SetOwnersAndChangeThresholdInstruction.format.fits data
  | .proposeTransaction data => ProposeTransactionInstruction.format.fits data
  | .approveTransaction | .executeTransaction | .cancelTransaction => true

/-- A variant is the byte of its position in the enum, then its fields. -/
def encode : MultisigInstruction → Bytes
  | .createMultisig data => 0 :: CreateMultisigInstruction.format.encode data
  | .setOwners data => 1 :: SetOwnersInstruction.format.encode data
  | .changeThreshold data => 2 :: ChangeThresholdInstruction.format.encode data
  | .setOwnersAndChangeThreshold data =>
      3 :: SetOwnersAndChangeThresholdInstruction.format.encode data
  | .proposeTransaction data => 4 :: ProposeTransactionInstruction.format.encode data
  | .approveTransaction => [5]
  | .executeTransaction => [6]
  | .cancelTransaction => [7]

/-- Decode the fields of one variant. -/
def variant {α : Type} (f : Format α) (make : α → MultisigInstruction) (bytes : Bytes) :
    Option (MultisigInstruction × Bytes) :=
  (f.deserialize bytes).map fun p => (make p.1, p.2)

def deserialize : Bytes → Option (MultisigInstruction × Bytes)
  | [] => none
  | tag :: bytes =>
      if tag = 0 then variant CreateMultisigInstruction.format .createMultisig bytes
      else if tag = 1 then variant SetOwnersInstruction.format .setOwners bytes
      else if tag = 2 then
        variant ChangeThresholdInstruction.format .changeThreshold bytes
      else if tag = 3 then
        variant SetOwnersAndChangeThresholdInstruction.format
          .setOwnersAndChangeThreshold bytes
      else if tag = 4 then
        variant ProposeTransactionInstruction.format .proposeTransaction bytes
      else if tag = 5 then some (.approveTransaction, bytes)
      else if tag = 6 then some (.executeTransaction, bytes)
      else if tag = 7 then some (.cancelTransaction, bytes)
      else none

theorem variant_encode {α : Type} (f : Format α) (make : α → MultisigInstruction)
    (a : α) (rest : Bytes) (h : f.fits a = true) :
    variant f make (f.encode a ++ rest) = some (make a, rest) := by
  simp [variant, f.deserialize_encode a rest h]

theorem eq_of_variant {α : Type} {f : Format α} {make : α → MultisigInstruction}
    {bytes rest : Bytes} {ix : MultisigInstruction}
    (h : variant f make bytes = some (ix, rest)) :
    ∃ a, ix = make a ∧ f.fits a = true ∧ bytes = f.encode a ++ rest := by
  obtain ⟨⟨a, rest'⟩, ha, hix⟩ := Option.map_eq_some_iff.mp h
  simp only [Prod.mk.injEq] at hix
  obtain ⟨rfl, rfl⟩ := hix
  obtain ⟨hfits, hbytes⟩ := f.eq_encode_of_deserialize _ _ _ ha
  exact ⟨a, rfl, hfits, hbytes⟩

def format : Format MultisigInstruction where
  fits := fits
  encode := encode
  deserialize := deserialize
  deserialize_encode ix rest h := by
    cases ix with
    | createMultisig data => exact variant_encode _ _ data rest h
    | setOwners data => exact variant_encode _ _ data rest h
    | changeThreshold data => exact variant_encode _ _ data rest h
    | setOwnersAndChangeThreshold data => exact variant_encode _ _ data rest h
    | proposeTransaction data => exact variant_encode _ _ data rest h
    | approveTransaction => rfl
    | executeTransaction => rfl
    | cancelTransaction => rfl
  eq_encode_of_deserialize bytes ix rest h := by
    cases bytes with
    | nil => cases h
    | cons tag bytes =>
        simp only [deserialize] at h
        split_ifs at h with h0 h1 h2 h3 h4 h5 h6 h7
        · obtain ⟨a, rfl, hfits, rfl⟩ := eq_of_variant h
          exact ⟨hfits, by rw [h0]; rfl⟩
        · obtain ⟨a, rfl, hfits, rfl⟩ := eq_of_variant h
          exact ⟨hfits, by rw [h1]; rfl⟩
        · obtain ⟨a, rfl, hfits, rfl⟩ := eq_of_variant h
          exact ⟨hfits, by rw [h2]; rfl⟩
        · obtain ⟨a, rfl, hfits, rfl⟩ := eq_of_variant h
          exact ⟨hfits, by rw [h3]; rfl⟩
        · obtain ⟨a, rfl, hfits, rfl⟩ := eq_of_variant h
          exact ⟨hfits, by rw [h4]; rfl⟩
        all_goals
          simp only [Option.some.injEq, Prod.mk.injEq] at h
          obtain ⟨rfl, rfl⟩ := h
        · exact ⟨rfl, by rw [h5]; rfl⟩
        · exact ⟨rfl, by rw [h6]; rfl⟩
        · exact ⟨rfl, by rw [h7]; rfl⟩

end MultisigInstruction

/-- What an `#[account(...)]` annotation asks of the account at its position. -/
structure AnnotatedAccount where
  name : String
  writable : Bool
  signer : Bool

def MultisigInstruction.annotations : MultisigInstruction → List AnnotatedAccount
  | .createMultisig _ =>
      [⟨"multisig", true, true⟩, ⟨"multisig_signer", false, false⟩, ⟨"payer", true, true⟩,
        ⟨"system_program", false, false⟩]
  | .setOwners _ | .changeThreshold _ | .setOwnersAndChangeThreshold _ =>
      [⟨"multisig", true, false⟩, ⟨"multisig_signer", false, true⟩]
  | .proposeTransaction _ =>
      [⟨"multisig", false, false⟩, ⟨"transaction", true, true⟩, ⟨"proposer", false, true⟩,
        ⟨"payer", true, true⟩, ⟨"system_program", false, false⟩]
  | .approveTransaction =>
      [⟨"multisig", false, false⟩, ⟨"transaction", true, false⟩, ⟨"approver", false, true⟩]
  | .executeTransaction =>
      [⟨"multisig", false, false⟩, ⟨"multisig_signer", false, false⟩,
        ⟨"transaction", true, false⟩, ⟨"refundee", true, false⟩, ⟨"executor", false, true⟩]
  | .cancelTransaction =>
      [⟨"multisig", false, false⟩, ⟨"transaction", true, false⟩, ⟨"refundee", true, false⟩,
        ⟨"executor", false, true⟩]

/-- The accounts have the privileges that are asked for, position by position. -/
def annotated : List AnnotatedAccount → List AccountInfo → Bool
  | [], _ => true
  | _ :: _, [] => false
  | role :: roles, info :: accounts =>
      (!role.writable || info.isWritable) && (!role.signer || info.isSigner) &&
        annotated roles accounts

section Process

variable {m : Type → Type} [Monad m] [MonadLiftT Handler m]

/-- The handler of each instruction. -/
def callHandler (rt : Runtime) (invokeSigned : Invocation → m Unit)
    (programId : Pubkey) (accounts : List AccountInfo) : MultisigInstruction → m Unit
  | .createMultisig data => liftM (createMultisig rt programId accounts data)
  | .setOwners data => liftM (setOwners rt programId accounts data)
  | .changeThreshold data => liftM (changeThreshold rt programId accounts data)
  | .setOwnersAndChangeThreshold data =>
      liftM (setOwnersAndChangeThreshold rt programId accounts data)
  | .proposeTransaction data => liftM (proposeTransaction rt programId accounts data)
  | .approveTransaction => liftM (approveTransaction programId accounts)
  | .executeTransaction => executeTransaction rt invokeSigned programId accounts
  | .cancelTransaction => liftM (cancelTransaction programId accounts)

def processInstruction (rt : Runtime) (invokeSigned : Invocation → m Unit)
    (programId : Pubkey) (accounts : List AccountInfo) (data : Bytes) : m Unit :=
  match MultisigInstruction.format.tryFromSlice data with
  | some instruction => callHandler rt invokeSigned programId accounts instruction
  | none => liftM (throw (.error .invalidInstructionData) : Handler Unit)

end Process

end MultisigNative.Processor
