import Mathlib.Algebra.Order.BigOperators.Group.List
import Mathlib.Algebra.Order.Group.Nat
import MultisigNative.Errors

namespace MultisigNative.State

open Library.Borsh
open Solana
open Errors

/-- `solana_program::instruction::AccountMeta`. -/
structure AccountMeta where
  pubkey : Pubkey
  isSigner : Bool
  isWritable : Bool
deriving DecidableEq

namespace AccountMeta

def new (pubkey : Pubkey) (isSigner : Bool) : AccountMeta :=
  ⟨pubkey, isSigner, true⟩

def newReadonly (pubkey : Pubkey) (isSigner : Bool) : AccountMeta :=
  ⟨pubkey, isSigner, false⟩

end AccountMeta

/-- `solana_program::instruction::Instruction`. -/
structure Instruction where
  programId : Pubkey
  accounts : List AccountMeta
  data : Bytes
deriving DecidableEq

structure TransactionInstructionAccount where
  pubkey : Pubkey
  isSigner : Bool
  isWritable : Bool
deriving DecidableEq

namespace TransactionInstructionAccount

def toAccountMeta (account : TransactionInstructionAccount) : AccountMeta :=
  match account.isWritable with
  | false => AccountMeta.newReadonly account.pubkey account.isSigner
  | true => AccountMeta.new account.pubkey account.isSigner

def format : Format TransactionInstructionAccount :=
  (Pubkey.format.prod (bool.prod bool)).equiv
    { toFun := fun a => (a.pubkey, a.isSigner, a.isWritable)
      invFun := fun p => ⟨p.1, p.2.1, p.2.2⟩
      left_inv := fun _ => rfl
      right_inv := fun _ => rfl }

@[simp] theorem format_fits (a : TransactionInstructionAccount) :
    format.fits a = true := rfl

@[simp] theorem format_encode_length (a : TransactionInstructionAccount) :
    (format.encode a).length = 32 + 1 + 1 := by
  change (a.pubkey.bytes ++ ([_] ++ [_])).length = 34
  simp [a.pubkey.length_eq]

end TransactionInstructionAccount

structure TransactionInstructionData where
  programId : Pubkey
  accounts : List TransactionInstructionAccount
  data : Bytes
deriving DecidableEq

namespace TransactionInstructionData

def len (ix : TransactionInstructionData) : Nat :=
  32 +
    4 + (32 + 1 + 1) * ix.accounts.length +
    4 + ix.data.length

def toInstruction (ix : TransactionInstructionData) : Instruction where
  programId := ix.programId
  accounts := ix.accounts.map TransactionInstructionAccount.toAccountMeta
  data := ix.data

def format : Format TransactionInstructionData :=
  (Pubkey.format.prod ((vec TransactionInstructionAccount.format).prod (vec u8))).equiv
    { toFun := fun ix => (ix.programId, ix.accounts, ix.data)
      invFun := fun p => ⟨p.1, p.2.1, p.2.2⟩
      left_inv := fun _ => rfl
      right_inv := fun _ => rfl }

theorem format_encode (ix : TransactionInstructionData) :
    format.encode ix = ix.programId.bytes ++
      ((vec TransactionInstructionAccount.format).encode ix.accounts ++
        (vec u8).encode ix.data) := rfl

@[simp] theorem format_encode_length (ix : TransactionInstructionData) :
    (format.encode ix).length = ix.len := by
  have haccounts := vec_encode_length_of_width TransactionInstructionAccount.format
    ix.accounts fun a _ => a.format_encode_length
  simp only [format_encode, List.length_append, ix.programId.length_eq, haccounts,
    vec_u8_encode, u32_encode_length, len]
  omega

/-- Every stored instruction takes at least forty bytes. -/
theorem forty_le_len (ix : TransactionInstructionData) : 40 ≤ ix.len := by
  simp only [len]
  omega

theorem format_fits_iff (ix : TransactionInstructionData) :
    format.fits ix = true ↔ ix.accounts.length < 2 ^ 32 ∧ ix.data.length < 2 ^ 32 := by
  change (true && ((vec TransactionInstructionAccount.format).fits ix.accounts &&
    (vec u8).fits ix.data)) = true ↔ _
  simp [vec_fits_iff]

theorem format_fits_of_len {ix : TransactionInstructionData} (h : ix.len < 2 ^ 32) :
    format.fits ix = true := by
  simp only [len] at h
  exact (format_fits_iff ix).mpr ⟨by omega, by omega⟩

end TransactionInstructionData

structure Transaction where
  multisig : Pubkey
  instructions : List TransactionInstructionData
  signers : List Bool
  ownerSetSeqno : UInt32
deriving DecidableEq

namespace Transaction

def format : Format Transaction :=
  (Pubkey.format.prod ((vec TransactionInstructionData.format).prod
    ((vec bool).prod u32))).equiv
    { toFun := fun t => (t.multisig, t.instructions, t.signers, t.ownerSetSeqno)
      invFun := fun p => ⟨p.1, p.2.1, p.2.2.1, p.2.2.2⟩
      left_inv := fun _ => rfl
      right_inv := fun _ => rfl }

def checkedDeserialize (data : Bytes) : Except ProgramError Transaction :=
  assertSuccess (format.tryFromSlice data) MultisigError.malformedTransactionAccount

def len (t : Transaction) : Nat :=
  32 +
    4 + (t.instructions.map TransactionInstructionData.len).sum +
    4 + t.signers.length +
    4

theorem format_fits_iff (t : Transaction) :
    format.fits t = true ↔
      (vec TransactionInstructionData.format).fits t.instructions = true ∧
        t.signers.length < 2 ^ 32 := by
  change (true && ((vec TransactionInstructionData.format).fits t.instructions &&
    ((vec bool).fits t.signers && true))) = true ↔ _
  simp [vec_fits_iff bool]

theorem format_encode (t : Transaction) :
    format.encode t = t.multisig.bytes ++
      ((vec TransactionInstructionData.format).encode t.instructions ++
        ((vec bool).encode t.signers ++ leBytes t.ownerSetSeqno)) := rfl

theorem signers_encode_length (signers : List Bool) :
    ((vec bool).encode signers).length = 4 + signers.length := by
  rw [vec_encode_length_of_width bool signers fun _ _ => rfl, Nat.one_mul]

@[simp] theorem format_encode_length (t : Transaction) :
    (format.encode t).length = t.len := by
  simp only [format_encode, List.length_append, t.multisig.length_eq,
    vec_encode_length TransactionInstructionData.format, signers_encode_length,
    leBytes_length, TransactionInstructionData.format_encode_length, len]
  change _ = 32 + 4 + (t.instructions.map fun ix => ix.len).sum + _ + _ + _
  omega

theorem checkedDeserialize_eq_ok_iff {data : Bytes} {t : Transaction} :
    checkedDeserialize data = .ok t ↔
      format.fits t = true ∧ data = format.encode t := by
  rw [checkedDeserialize, assertSuccess_eq_ok_iff, format.tryFromSlice_eq_some_iff]

theorem checkedDeserialize_bind_eq_ok_iff {β : Type} {data : Bytes}
    {f : Transaction → Handler β} {b : β} {L L' : Ledger} :
    ((liftM (checkedDeserialize data) : Handler Transaction) >>= f) L = .ok b L' ↔
      ∃ t, (format.fits t = true ∧ data = format.encode t) ∧ f t L = .ok b L' := by
  simp only [liftM_bind_eq_ok_iff, checkedDeserialize_eq_ok_iff]

theorem checkedDeserialize_encode {t : Transaction} (h : format.fits t = true) :
    checkedDeserialize (format.encode t) = .ok t :=
  checkedDeserialize_eq_ok_iff.mpr ⟨h, rfl⟩

theorem le_len (t : Transaction) : 44 + 40 * t.instructions.length ≤ t.len := by
  have hsum : ∀ instructions : List TransactionInstructionData,
      40 * instructions.length ≤
        (instructions.map TransactionInstructionData.len).sum := by
    intro instructions
    induction instructions with
    | nil => simp
    | cons ix instructions ih =>
        have hix := ix.forty_le_len
        simp only [List.length_cons, List.map_cons, List.sum_cons]
        omega
  have hle := hsum t.instructions
  simp only [len]
  omega

/-- What an account has room for is serialized without error. -/
theorem format_fits_of_len {t : Transaction} (h : t.len < 2 ^ 32) :
    format.fits t = true := by
  have hle := t.le_len
  have hsigners : t.signers.length ≤ t.len := by
    simp only [len]
    omega
  refine (format_fits_iff t).mpr ⟨?_, by omega⟩
  refine (vec_fits_iff _ _).mpr ⟨by omega, ?_⟩
  intro ix hix
  have hsum : ix.len ≤ (t.instructions.map TransactionInstructionData.len).sum :=
    List.le_sum_of_mem (List.mem_map_of_mem hix)
  refine TransactionInstructionData.format_fits_of_len ?_
  simp only [len] at h
  omega

/-- Zero bytes decode to a transaction of the system program's address. -/
theorem multisig_eq_of_zeros {t : Transaction}
    (hzeros : ∀ b ∈ format.encode t, b = 0) : t.multisig = systemProgram := by
  apply Pubkey.ext
  apply List.eq_replicate_iff.mpr
  refine ⟨t.multisig.length_eq, ?_⟩
  intro b hb
  exact hzeros b (by simp [format_encode, hb])

end Transaction

end MultisigNative.State
