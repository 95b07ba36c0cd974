import MultisigNative.Solana.Ledger

/-!
The parts of the Solana runtime that the program calls and that are not part
of this repository, with the documented behaviour the program relies on.
-/

namespace MultisigNative.Solana

open Library.Borsh

/-- `MAX_PERMITTED_DATA_LENGTH`. -/
def maxDataLength : Nat := 10 * 1024 * 1024

/-- What a successful `create_account` of the system program requires and does.
Both accounts sign and are writable, the payer is a system account other than
the new one, and the new account was not in use. -/
structure AccountCreated (payer account : AccountInfo) (lamports : UInt64)
    (space : Nat) (owner : Pubkey) (L L' : Ledger) : Prop where
  payer_isSigner : payer.isSigner = true
  payer_isWritable : payer.isWritable = true
  account_isSigner : account.isSigner = true
  account_isWritable : account.isWritable = true
  payer_ne : payer.key ≠ account.key
  payer_owner : (L payer.key).owner = systemProgram
  payer_lamports : lamports ≤ (L payer.key).lamports
  unused : L account.key = Account.unused
  space_le : space ≤ maxDataLength
  result : L' = Function.update
    (Function.update L payer.key
      { L payer.key with lamports := (L payer.key).lamports - lamports })
    account.key ⟨lamports, owner, List.replicate space 0⟩

/-- The runtime as seen by the program deployed at `programId`.
`createProgramAddress` is the system call of that name, `minimumBalance` is
`Rent::minimum_balance`, `createAccount` is an `invoke` of the system program's
`create_account`.  `pdaProgram` is the program that an address is derived from:
nobody has a private key for such an address, only its program can sign for it. -/
structure Runtime where
  programId : Pubkey
  createProgramAddress : List Bytes → Pubkey → Option Pubkey
  pdaProgram : Pubkey → Option Pubkey
  minimumBalance : Nat → UInt64
  createAccount : (payer account : AccountInfo) → (lamports : UInt64) →
    (space : Nat) → (owner : Pubkey) → Handler Unit
  maxStackHeight : Nat
  programId_ne : programId ≠ systemProgram
  createProgramAddress_injective : ∀ (k k' : Pubkey) n n' p,
    createProgramAddress [k.bytes, [n]] programId = some p →
    createProgramAddress [k'.bytes, [n']] programId = some p → k = k' ∧ n = n'
  pdaProgram_of_createProgramAddress : ∀ seeds program p,
    createProgramAddress seeds program = some p → pdaProgram p = some program
  minimumBalance_pos : ∀ space, 0 < minimumBalance space
  accountCreated : ∀ payer account space owner L L',
    createAccount payer account (minimumBalance space) space owner L = .ok () L' →
    AccountCreated payer account (minimumBalance space) space owner L L'

namespace AccountCreated

variable {payer account : AccountInfo} {lamports : UInt64} {space : Nat}
  {owner : Pubkey} {L L' : Ledger}

theorem apply_account
    (h : AccountCreated payer account lamports space owner L L') :
    L' account.key = ⟨lamports, owner, List.replicate space 0⟩ := by
  rw [h.result, Function.update_self]

theorem apply_payer (h : AccountCreated payer account lamports space owner L L') :
    L' payer.key =
      { L payer.key with lamports := (L payer.key).lamports - lamports } := by
  rw [h.result, Function.update_of_ne h.payer_ne, Function.update_self]

theorem apply_of_ne (h : AccountCreated payer account lamports space owner L L')
    {k : Pubkey} (hp : k ≠ payer.key) (ha : k ≠ account.key) : L' k = L k := by
  rw [h.result, Function.update_of_ne ha, Function.update_of_ne hp]

end AccountCreated

end MultisigNative.Solana
