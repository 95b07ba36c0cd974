import MultisigNative.Properties.Capacity

/-!
The threshold check, which three operations make against three owner lists.  The
length of the list is cast to a byte, so the check is exact on short lists only.
-/

namespace MultisigNative.Properties

open Library.StateError
open Solana
open Errors
open State
open Instructions
open LocalRuntime

/-- What a check of the threshold in exact integers would answer. -/
def exactCheck (threshold : UInt8) (owners : List Pubkey) : Except ProgramError Unit :=
  if 1 ≤ threshold.toNat ∧ threshold.toNat ≤ owners.length then .ok ()
  else .error MultisigError.invalidThreshold

theorem validateThreshold_eq (threshold : UInt8) (owners : List Pubkey) :
    validateThreshold threshold owners =
      if 1 ≤ threshold.toNat ∧ threshold.toNat ≤ owners.length % 256 then .ok ()
      else .error MultisigError.invalidThreshold := by
  by_cases h : 1 ≤ threshold.toNat ∧ threshold.toNat ≤ owners.length % 256
  · rw [if_pos h]
    exact validateThreshold_eq_ok_iff.mpr h
  · have htest : (decide (threshold > 0) &&
        decide (threshold ≤ UInt8.ofNat owners.length)) = false := by
      rw [← Bool.not_eq_true, threshold_test_iff]
      exact h
    rw [if_neg h, validateThreshold, htest]
    rfl

/-- The check is exact unless the cast takes the length below the threshold. -/
theorem validateThreshold_exact_iff (threshold : UInt8) (owners : List Pubkey) :
    validateThreshold threshold owners = exactCheck threshold owners ↔
      owners.length < 256 ∨ threshold.toNat ≤ owners.length % 256 := by
  have hbyte := threshold.toNat_lt
  rw [validateThreshold_eq, exactCheck]
  constructor
  · intro h
    by_cases hcode : 1 ≤ threshold.toNat ∧ threshold.toNat ≤ owners.length % 256
    · exact .inr hcode.2
    · have hexact : ¬ (1 ≤ threshold.toNat ∧ threshold.toNat ≤ owners.length) := by
        intro hexact
        rw [if_neg hcode, if_pos hexact] at h
        cases h
      omega
  · intro h
    have hsame : (1 ≤ threshold.toNat ∧ threshold.toNat ≤ owners.length % 256) ↔
        (1 ≤ threshold.toNat ∧ threshold.toNat ≤ owners.length) := by omega
    simp only [hsame]

section Operations

variable {rt : Runtime} {programId : Pubkey} {L : Ledger} {m s system : AccountInfo}
  {rest : List AccountInfo} {multisig : Multisig} {threshold : UInt8}

/-- The copy of the check in `create_multisig` is the check. -/
theorem create_validate_eq {instruction : CreateMultisigInstruction}
    (hsystem : system.key = systemProgram) (hnodup : instruction.owners.Nodup)
    (hpda : rt.createProgramAddress [m.key.bytes, [instruction.nonce]] programId =
      some s.key) :
    CreateMultisig.validate rt programId m s system instruction =
      validateThreshold instruction.threshold instruction.owners := by
  have howners : assertUniqueOwners instruction.owners = .ok () :=
    assertUniqueOwners_eq_ok_iff.mpr hnodup
  have haddress : validatePda rt s m instruction.nonce programId = .ok () :=
    validatePda_eq_ok_iff.mpr hpda
  simp only [CreateMultisig.validate, hsystem, beq_self_eq_true, howners, haddress,
    validateThreshold]
  cases decide (instruction.threshold > 0) &&
      decide (instruction.threshold ≤ UInt8.ofNat instruction.owners.length) <;> rfl

/-- With all other checks passed, `change_threshold` answers as its threshold check. -/
theorem changeThreshold_verdict (hsigned : SignedMultisig rt programId L m s multisig) :
    verdict (changeThreshold rt programId (m :: s :: rest) ⟨threshold⟩) L =
      (validateThreshold threshold multisig.owners).mapError Fault.error := by
  cases hthreshold : validateThreshold threshold multisig.owners with
  | error e => exact verdict_of_error (changeThreshold_of_refused hsigned hthreshold rest)
  | ok u => exact verdict_of_ok (changeThreshold_of_accepted hsigned hthreshold rest)

theorem setOwnersAndChangeThreshold_verdict {owners : List Pubkey}
    (hsigned : SignedMultisig rt programId L m s multisig)
    (hshort : (L m.key).data.length < 2 ^ 32) (hmemory : FitsMemory owners)
    (howners : validateOwners multisig owners = .ok ()) :
    verdict (setOwnersAndChangeThreshold rt programId (m :: s :: rest) ⟨owners, threshold⟩)
        L =
      (validateThreshold threshold owners).mapError Fault.error := by
  cases hthreshold : validateThreshold threshold owners with
  | error e =>
      exact verdict_of_error
        (setOwnersAndChangeThreshold_of_refused hsigned howners hthreshold rest)
  | ok u =>
      have hle := capacity_of_accepted hsigned.fits hmemory howners
      have hnew := withOwners_fits_of_signed hsigned hshort hle
      exact verdict_of_ok (setOwnersAndChangeThreshold_of_accepted hsigned howners
        hthreshold hle hnew rest)

end Operations

/-- When their other checks pass, `create_multisig`, `change_threshold` and
`set_owners_and_change_threshold` accept exactly the thresholds from one to the number
of owners and refuse the others with `InvalidThreshold`, if and only if there are fewer
than 256 owners or their number modulo 256 is not below the threshold. -/
theorem threshold_checks_exact (rt : Runtime) (programId : Pubkey) (L : Ledger)
    (threshold : UInt8) :
    (∀ m s system owners nonce, AccountInfo.key system = systemProgram →
      owners.Nodup →
      rt.createProgramAddress [m.key.bytes, [nonce]] programId = some s.key →
      (CreateMultisig.validate rt programId m s system ⟨owners, threshold, nonce⟩ =
          exactCheck threshold owners ↔
        owners.length < 256 ∨ threshold.toNat ≤ owners.length % 256)) ∧
    (∀ m s rest multisig, SignedMultisig rt programId L m s multisig →
      (verdict (changeThreshold rt programId (m :: s :: rest) ⟨threshold⟩) L =
          (exactCheck threshold multisig.owners).mapError Fault.error ↔
        multisig.owners.length < 256 ∨
          threshold.toNat ≤ multisig.owners.length % 256)) ∧
    ∀ m s rest multisig owners, SignedMultisig rt programId L m s multisig →
      (L m.key).data.length < 2 ^ 32 → FitsMemory owners →
      validateOwners multisig owners = .ok () →
      (verdict (setOwnersAndChangeThreshold rt programId (m :: s :: rest)
            ⟨owners, threshold⟩) L =
          (exactCheck threshold owners).mapError Fault.error ↔
        owners.length < 256 ∨ threshold.toNat ≤ owners.length % 256) := by
  have hmap : ∀ x y : Except ProgramError Unit,
      x.mapError Fault.error = y.mapError Fault.error ↔ x = y := by
    intro x y
    cases x <;> cases y <;> simp [Except.mapError]
  refine ⟨?_, ?_, ?_⟩
  · intro m s system owners nonce hsystem hnodup hpda
    rw [create_validate_eq hsystem hnodup hpda, validateThreshold_exact_iff]
  · intro m s rest multisig hsigned
    rw [changeThreshold_verdict hsigned, hmap, validateThreshold_exact_iff]
  · intro m s rest multisig owners hsigned hshort hmemory howners
    rw [setOwnersAndChangeThreshold_verdict hsigned hshort hmemory howners, hmap,
      validateThreshold_exact_iff]

section LocalRuns

theorem threshold_checks_exact_sample :
    CreateMultisig.validate localRuntime localRuntime.programId (signer (keyOf 20))
        (readonly samplePda) (readonly systemProgram)
        ⟨[keyOf 11, keyOf 12, keyOf 13], 2, 5⟩ =
      exactCheck 2 [keyOf 11, keyOf 12, keyOf 13] :=
  ((threshold_checks_exact localRuntime localRuntime.programId (genesis []) 2).1
    (signer (keyOf 20)) (readonly samplePda) (readonly systemProgram)
    [keyOf 11, keyOf 12, keyOf 13] 5 rfl (by decide) (by decide)).mpr (.inl (by decide))

/-- A threshold of two is refused to 257 owners, whatever else is right. -/
theorem threshold_check_inexact :
    CreateMultisig.validate localRuntime localRuntime.programId (signer (keyOf 20))
        (readonly samplePda) (readonly systemProgram) ⟨manyOwners 257, 2, 5⟩ =
      .error MultisigError.invalidThreshold ∧
    1 ≤ (2 : UInt8).toNat ∧ (2 : UInt8).toNat ≤ (manyOwners 257).length ∧
    (manyOwners 257).Nodup := by
  have hnodup : (manyOwners 257).Nodup := manyOwners_nodup (by decide)
  refine ⟨?_, by decide, by simp, hnodup⟩
  rw [create_validate_eq rfl hnodup (by decide), validateThreshold_eq, manyOwners_length]
  rfl

end LocalRuns

end MultisigNative.Properties
