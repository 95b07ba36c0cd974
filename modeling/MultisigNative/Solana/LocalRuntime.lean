import MultisigNative.Solana.Runtime

/-!
A small runtime that one can compute with.  It meets the assumptions of
`Runtime`, so that they are consistent.  An address is derived from a key that
ends in two zero bytes by replacing these by a mark and the nonce.
-/

namespace MultisigNative.Solana.LocalRuntime

open Library.Borsh

/-- The key that starts with a byte and goes on with zeros. -/
def keyOf (n : UInt8) : Pubkey := ⟨n :: List.replicate 31 0, rfl⟩

def programId : Pubkey := ⟨List.replicate 32 7, rfl⟩

def pdaMark : UInt8 := 170

def createProgramAddress : List Bytes → Pubkey → Option Pubkey
  | [key, [nonce]], program =>
      if h : key.length = 32 ∧ key.drop 30 = [0, 0] ∧ program = programId then
        some ⟨key.take 30 ++ [pdaMark, nonce], by simp [h.1]⟩
      else none
  | _, _ => none

def pdaProgram (key : Pubkey) : Option Pubkey :=
  if key.bytes[30]? = some pdaMark then some programId else none

def minimumBalance (space : Nat) : UInt64 :=
  UInt64.ofNat ((128 + min space maxDataLength) * 6960)

/-- `MAX_PERMITTED_DATA_INCREASE`: the bytes of an account that an invocation creates. -/
def maxDataIncrease : Nat := 10 * 1024

/-- The system program's `create_account`, invoked by a program. -/
def createAccount (payer account : AccountInfo) (lamports : UInt64) (space : Nat)
    (owner : Pubkey) : Handler Unit := fun L =>
  if payer.isSigner && payer.isWritable && account.isSigner && account.isWritable &&
      payer.key != account.key && (L payer.key).owner == systemProgram &&
      decide (lamports ≤ (L payer.key).lamports) && L account.key == Account.unused &&
      decide (space ≤ maxDataIncrease) then
    .ok () (Function.update
      (Function.update L payer.key
        { L payer.key with lamports := (L payer.key).lamports - lamports })
      account.key ⟨lamports, owner, List.replicate space 0⟩)
  else .error (.error (.other 0)) L

theorem createProgramAddress_eq_some {seeds : List Bytes} {program p : Pubkey}
    (h : createProgramAddress seeds program = some p) :
    ∃ key nonce, seeds = [key, [nonce]] ∧ key.length = 32 ∧ key.drop 30 = [0, 0] ∧
      program = programId ∧ p.bytes = key.take 30 ++ [pdaMark, nonce] := by
  unfold createProgramAddress at h
  split at h
  · rename_i key nonce
    split at h
    · rename_i hkey
      obtain rfl := Option.some.inj h
      exact ⟨key, nonce, rfl, hkey.1, hkey.2.1, hkey.2.2, rfl⟩
    · cases h
  · cases h

theorem minimumBalance_pos (space : Nat) : 0 < minimumBalance space := by
  have hle : min space maxDataLength ≤ 10485760 := Nat.min_le_right _ _
  rw [UInt64.lt_iff_toNat_lt, minimumBalance, UInt64.toNat_ofNat', UInt64.toNat_zero]
  generalize min space maxDataLength = size at hle ⊢
  rw [Nat.mod_eq_of_lt (by omega)]
  omega

theorem accountCreated {payer account : AccountInfo} {lamports : UInt64} {space : Nat}
    {owner : Pubkey} {L L' : Ledger}
    (h : createAccount payer account lamports space owner L = .ok () L') :
    AccountCreated payer account lamports space owner L L' := by
  unfold createAccount at h
  split at h
  · rename_i hchecks
    simp only [Bool.and_eq_true, beq_iff_eq, bne_iff_ne, decide_eq_true_eq] at hchecks
    rcases hchecks with ⟨⟨⟨⟨⟨⟨⟨⟨hps, hpw⟩, has⟩, haw⟩, hne⟩, howner⟩, hle⟩, hunused⟩, hspace⟩
    obtain ⟨-, rfl⟩ := EStateM.Result.ok.inj h
    have hdata : space ≤ maxDataLength := Nat.le_trans hspace (by decide)
    exact ⟨hps, hpw, has, haw, hne, howner, hle, hunused, hdata, rfl⟩
  · cases h

/-- Accounts as instructions pass them. -/
def signer (key : Pubkey) : AccountInfo := ⟨key, true, true⟩

def writable (key : Pubkey) : AccountInfo := ⟨key, false, true⟩

def readonly (key : Pubkey) : AccountInfo := ⟨key, false, false⟩

/-- A ledger on which only the given keys have lamports. -/
def genesis (funded : List Pubkey) : Ledger := fun key =>
  if key = systemProgram then ⟨1, keyOf 255, []⟩
  else if key ∈ funded then ⟨1000000000000, systemProgram, []⟩
  else Account.unused

end LocalRuntime

open LocalRuntime

def localRuntime : Runtime where
  programId := programId
  createProgramAddress := createProgramAddress
  pdaProgram := pdaProgram
  minimumBalance := minimumBalance
  createAccount := createAccount
  maxStackHeight := 5
  programId_ne := by decide
  createProgramAddress_injective := by
    intro k k' n n' p h h'
    obtain ⟨key, nonce, hseeds, -, hdrop, -, hbytes⟩ := createProgramAddress_eq_some h
    obtain ⟨key', nonce', hseeds', -, hdrop', -, hbytes'⟩ :=
      createProgramAddress_eq_some h'
    cases hseeds
    cases hseeds'
    rw [hbytes] at hbytes'
    have hparts := List.append_inj hbytes' (by simp [k.length_eq, k'.length_eq])
    have hnonce : n = n' := by simpa using hparts.2
    refine ⟨?_, hnonce⟩
    apply Pubkey.ext
    rw [← List.take_append_drop 30 k.bytes, ← List.take_append_drop 30 k'.bytes, hdrop,
      hdrop', hparts.1]
  pdaProgram_of_createProgramAddress := by
    intro seeds program p h
    obtain ⟨key, nonce, -, hlen, -, rfl, hbytes⟩ := createProgramAddress_eq_some h
    have hmark : p.bytes[30]? = some pdaMark := by
      rw [hbytes]
      simp [hlen]
    simp [pdaProgram, hmark]
  minimumBalance_pos := minimumBalance_pos
  accountCreated := fun _ _ _ _ _ _ => LocalRuntime.accountCreated

end MultisigNative.Solana
