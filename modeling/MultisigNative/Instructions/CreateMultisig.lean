import MultisigNative.Instructions.Common

namespace MultisigNative.Instructions

open Library.Borsh
open Library.StateError
open Solana
open Errors
open State

structure CreateMultisigInstruction where
  owners : List Pubkey
  threshold : UInt8
  nonce : UInt8
deriving DecidableEq

def CreateMultisigInstruction.format : Format CreateMultisigInstruction :=
  ((vec Pubkey.format).prod (u8.prod u8)).equiv
    { toFun := fun ix => (ix.owners, ix.threshold, ix.nonce)
      invFun := fun p => ⟨p.1, p.2.1, p.2.2⟩
      left_inv := fun _ => rfl
      right_inv := fun _ => rfl }

namespace CreateMultisig

variable (rt : Runtime)

/-- The threshold check is a copy of `validate_threshold`, inlined. -/
def validate (programId : Pubkey) (multisig multisigSigner systemProgramInfo : AccountInfo)
    (instruction : CreateMultisigInstruction) : Except ProgramError Unit := do
  assertThat (systemProgramInfo.key == systemProgram) .incorrectProgramId
  assertUniqueOwners instruction.owners
  assertThat
    (decide (instruction.threshold > 0) &&
      decide (instruction.threshold ≤ UInt8.ofNat instruction.owners.length))
    MultisigError.invalidThreshold
  validatePda rt multisigSigner multisig instruction.nonce programId

/-- The value a new multisig starts with. -/
def newMultisig (instruction : CreateMultisigInstruction) : Multisig where
  owners := instruction.owners
  threshold := instruction.threshold
  nonce := instruction.nonce
  ownerSetSeqno := 0
  padding := []

end CreateMultisig

def createMultisig (rt : Runtime) (programId : Pubkey) (accounts : List AccountInfo)
    (instruction : CreateMultisigInstruction) : Handler Unit := do
  let (multisigAccount, accounts) ← nextAccountInfo accounts
  let (multisigSigner, accounts) ← nextAccountInfo accounts
  let (payer, accounts) ← nextAccountInfo accounts
  let (systemProgramInfo, _) ← nextAccountInfo accounts
  CreateMultisig.validate rt programId multisigAccount multisigSigner
    systemProgramInfo instruction
  let multisigData := CreateMultisig.newMultisig instruction
  createAndSerialize rt Multisig.format multisigData multisigData.len payer
    multisigAccount programId

namespace CreateMultisig

/-- What `validate` requires of the arguments. -/
structure Valid (rt : Runtime) (programId : Pubkey)
    (multisig multisigSigner systemProgramInfo : AccountInfo)
    (instruction : CreateMultisigInstruction) : Prop where
  systemProgram : systemProgramInfo.key = Solana.systemProgram
  nodup : instruction.owners.Nodup
  threshold_pos : 0 < instruction.threshold.toNat
  threshold_le : instruction.threshold.toNat ≤ instruction.owners.length % 256
  pda : rt.createProgramAddress [multisig.key.bytes, [instruction.nonce]] programId =
    some multisigSigner.key

theorem validate_eq_ok_iff {rt : Runtime} {programId : Pubkey}
    {multisig multisigSigner systemProgramInfo : AccountInfo}
    {instruction : CreateMultisigInstruction} {u : Unit} :
    validate rt programId multisig multisigSigner systemProgramInfo instruction =
        .ok u ↔
      Valid rt programId multisig multisigSigner systemProgramInfo instruction := by
  simp only [validate, except_bind_eq_ok_iff, assertThat_eq_ok_iff, exists_const,
    beq_iff_eq, assertUniqueOwners_eq_ok_iff, validatePda_eq_ok_iff,
    threshold_test_iff]
  constructor
  · rintro ⟨hsystem, hnodup, ⟨hpos, hle⟩, hpda⟩
    exact ⟨hsystem, hnodup, hpos, hle, hpda⟩
  · rintro ⟨hsystem, hnodup, hpos, hle, hpda⟩
    exact ⟨hsystem, hnodup, ⟨hpos, hle⟩, hpda⟩

/-- A threshold that passes leaves room for at least one owner. -/
theorem Valid.owners_ne_nil {rt : Runtime} {programId : Pubkey}
    {multisig multisigSigner systemProgramInfo : AccountInfo}
    {instruction : CreateMultisigInstruction}
    (h : Valid rt programId multisig multisigSigner systemProgramInfo instruction) :
    instruction.owners ≠ [] := by
  intro hnil
  have hpos := h.threshold_pos
  have hle := h.threshold_le
  simp only [hnil, List.length_nil, Nat.zero_mod] at hle
  omega

end CreateMultisig

theorem createMultisig_eq_ok_iff {rt : Runtime} {programId : Pubkey}
    {accounts : List AccountInfo} {instruction : CreateMultisigInstruction}
    {L L' : Ledger} {u : Unit} :
    createMultisig rt programId accounts instruction L = .ok u L' ↔
      ∃ multisigAccount multisigSigner payer systemProgramInfo rest,
        accounts = multisigAccount :: multisigSigner :: payer ::
          systemProgramInfo :: rest ∧
        CreateMultisig.Valid rt programId multisigAccount multisigSigner
          systemProgramInfo instruction ∧
        createAndSerialize rt Multisig.format (CreateMultisig.newMultisig instruction)
          (CreateMultisig.newMultisig instruction).len payer multisigAccount
          programId L = .ok u L' := by
  simp only [createMultisig, nextAccountInfo_bind_eq_ok_iff,
    liftM_unit_bind_eq_ok_iff, CreateMultisig.validate_eq_ok_iff]
  constructor
  · rintro ⟨m, _, rfl, s, _, rfl, payer, _, rfl, system, rest, rfl, hvalid, hcreate⟩
    exact ⟨m, s, payer, system, rest, rfl, hvalid, hcreate⟩
  · rintro ⟨m, s, payer, system, rest, rfl, hvalid, hcreate⟩
    exact ⟨m, _, rfl, s, _, rfl, payer, _, rfl, system, rest, rfl, hvalid, hcreate⟩

end MultisigNative.Instructions
