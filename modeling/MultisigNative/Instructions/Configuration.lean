import MultisigNative.Instructions.Common

/-!
The three instructions a multisig calls on itself: `set_owners`,
`change_threshold` and `set_owners_and_change_threshold`.
-/

namespace MultisigNative.Instructions

open Library.Borsh
open Library.StateError
open Solana
open State

structure SetOwnersInstruction where
  owners : List Pubkey
deriving DecidableEq

structure ChangeThresholdInstruction where
  threshold : UInt8
deriving DecidableEq

structure SetOwnersAndChangeThresholdInstruction where
  owners : List Pubkey
  threshold : UInt8
deriving DecidableEq

def SetOwnersInstruction.format : Format SetOwnersInstruction :=
  (vec Pubkey.format).equiv
    { toFun := fun ix => ix.owners
      invFun := fun owners => ⟨owners⟩
      left_inv := fun _ => rfl
      right_inv := fun _ => rfl }

def ChangeThresholdInstruction.format : Format ChangeThresholdInstruction :=
  u8.equiv
    { toFun := fun ix => ix.threshold
      invFun := fun threshold => ⟨threshold⟩
      left_inv := fun _ => rfl
      right_inv := fun _ => rfl }

def SetOwnersAndChangeThresholdInstruction.format :
    Format SetOwnersAndChangeThresholdInstruction :=
  ((vec Pubkey.format).prod u8).equiv
    { toFun := fun ix => (ix.owners, ix.threshold)
      invFun := fun p => ⟨p.1, p.2⟩
      left_inv := fun _ => rfl
      right_inv := fun _ => rfl }

section Handlers

variable (rt : Runtime) (programId : Pubkey) (accounts : List AccountInfo)

def setOwners (instruction : SetOwnersInstruction) : Handler Unit :=
  withSignedMultisig rt programId accounts fun multisigAccount multisigData => do
    validateOwners multisigData instruction.owners
    let _ ← executeSetOwners multisigAccount multisigData instruction.owners

def changeThreshold (instruction : ChangeThresholdInstruction) : Handler Unit :=
  withSignedMultisig rt programId accounts fun multisigAccount multisigData => do
    validateThreshold instruction.threshold multisigData.owners
    let _ ← executeChangeThreshold multisigAccount multisigData instruction.threshold

def setOwnersAndChangeThreshold (instruction : SetOwnersAndChangeThresholdInstruction) :
    Handler Unit :=
  withSignedMultisig rt programId accounts fun multisigAccount multisigData => do
    validateOwners multisigData instruction.owners
    validateThreshold instruction.threshold instruction.owners
    let multisigData ← executeSetOwners multisigAccount multisigData instruction.owners
    let _ ← executeChangeThreshold multisigAccount multisigData instruction.threshold

end Handlers

section Rules

variable {rt : Runtime} {programId : Pubkey} {accounts : List AccountInfo}
  {L L' : Ledger} {u : Unit}

theorem setOwners_eq_ok_iff {instruction : SetOwnersInstruction} :
    setOwners rt programId accounts instruction L = .ok u L' ↔
      ∃ multisigAccount multisigSigner rest multisig,
        accounts = multisigAccount :: multisigSigner :: rest ∧
        SignedMultisig rt programId L multisigAccount multisigSigner multisig ∧
        validateOwners multisig instruction.owners = .ok () ∧
        serializeInto Multisig.format (withOwners multisig instruction.owners)
          multisigAccount L = .ok () L' := by
  rw [setOwners, withSignedMultisig_eq_ok_iff]
  simp only [liftM_unit_bind_eq_ok_iff, executeSetOwners_bind_eq_ok_iff, pure_eq_ok_iff,
    true_and, exists_eq_right]

theorem changeThreshold_eq_ok_iff {instruction : ChangeThresholdInstruction} :
    changeThreshold rt programId accounts instruction L = .ok u L' ↔
      ∃ multisigAccount multisigSigner rest multisig,
        accounts = multisigAccount :: multisigSigner :: rest ∧
        SignedMultisig rt programId L multisigAccount multisigSigner multisig ∧
        validateThreshold instruction.threshold multisig.owners = .ok () ∧
        serializeInto Multisig.format
          { multisig with threshold := instruction.threshold }
          multisigAccount L = .ok () L' := by
  rw [changeThreshold, withSignedMultisig_eq_ok_iff]
  simp only [liftM_unit_bind_eq_ok_iff, executeChangeThreshold_bind_eq_ok_iff,
    pure_eq_ok_iff, true_and, exists_eq_right]

/-- The value that the combined operation leaves behind. -/
def withOwnersAndThreshold (multisig : Multisig) (owners : List Pubkey)
    (threshold : UInt8) : Multisig :=
  { withOwners multisig owners with threshold := threshold }

theorem setOwnersAndChangeThreshold_eq_ok_iff
    {instruction : SetOwnersAndChangeThresholdInstruction} :
    setOwnersAndChangeThreshold rt programId accounts instruction L = .ok u L' ↔
      ∃ multisigAccount multisigSigner rest multisig mid,
        accounts = multisigAccount :: multisigSigner :: rest ∧
        SignedMultisig rt programId L multisigAccount multisigSigner multisig ∧
        validateOwners multisig instruction.owners = .ok () ∧
        validateThreshold instruction.threshold instruction.owners = .ok () ∧
        serializeInto Multisig.format (withOwners multisig instruction.owners)
          multisigAccount L = .ok () mid ∧
        serializeInto Multisig.format
          (withOwnersAndThreshold multisig instruction.owners instruction.threshold)
          multisigAccount mid = .ok () L' := by
  rw [setOwnersAndChangeThreshold, withSignedMultisig_eq_ok_iff]
  simp only [liftM_unit_bind_eq_ok_iff, executeSetOwners_bind_eq_ok_iff,
    executeChangeThreshold_bind_eq_ok_iff, pure_eq_ok_iff, true_and, exists_eq_right,
    exists_and_left, withOwnersAndThreshold]

section Signed

variable {multisigAccount multisigSigner : AccountInfo} {rest : List AccountInfo}
  {multisig : Multisig}
  (hsigned : SignedMultisig rt programId L multisigAccount multisigSigner multisig)
include hsigned

/-- What is left of each handler once the multisig is signed for. -/
theorem setOwners_of_signed (instruction : SetOwnersInstruction) :
    setOwners rt programId (multisigAccount :: multisigSigner :: rest) instruction L =
      ((liftM (validateOwners multisig instruction.owners) : Handler Unit) >>= fun _ =>
        executeSetOwners multisigAccount multisig instruction.owners >>=
          fun _ => pure ()) L :=
  withSignedMultisig_of_signed hsigned _

theorem changeThreshold_of_signed (instruction : ChangeThresholdInstruction) :
    changeThreshold rt programId (multisigAccount :: multisigSigner :: rest) instruction L =
      ((liftM (validateThreshold instruction.threshold multisig.owners) : Handler Unit) >>=
        fun _ => executeChangeThreshold multisigAccount multisig instruction.threshold >>=
          fun _ => pure ()) L :=
  withSignedMultisig_of_signed hsigned _

theorem setOwnersAndChangeThreshold_of_signed
    (instruction : SetOwnersAndChangeThresholdInstruction) :
    setOwnersAndChangeThreshold rt programId (multisigAccount :: multisigSigner :: rest)
        instruction L =
      ((liftM (validateOwners multisig instruction.owners) : Handler Unit) >>= fun _ =>
        (liftM (validateThreshold instruction.threshold instruction.owners) :
          Handler Unit) >>= fun _ =>
            executeSetOwners multisigAccount multisig instruction.owners >>= fun written =>
              executeChangeThreshold multisigAccount written instruction.threshold >>=
                fun _ => pure ()) L :=
  withSignedMultisig_of_signed hsigned _

end Signed

end Rules

end MultisigNative.Instructions
