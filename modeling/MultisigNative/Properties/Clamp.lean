import MultisigNative.Properties.Threshold

/-!
What `set_owners` makes of the threshold.  The number of new owners is cast to a
byte before the threshold is clamped to it, so the clamp is exact on short lists only.
-/

namespace MultisigNative.Properties

open Solana
open State
open Instructions
open MultisigNative.System
open LocalRuntime

/-- The new value that `set_owners` owes to the old one. -/
structure Clamped (old new : Multisig) (owners : List Pubkey) : Prop where
  owners_eq : new.owners = owners
  nonce_eq : new.nonce = old.nonce
  threshold_eq : new.threshold.toNat = min old.threshold.toNat owners.length

/-- The clamp is exact unless the cast takes the length below the threshold. -/
theorem withOwners_clamped_iff (multisig : Multisig) (owners : List Pubkey) :
    Clamped multisig (withOwners multisig owners) owners ↔
      owners.length < 256 ∨ multisig.threshold.toNat ≤ owners.length % 256 := by
  have hthreshold := withOwners_threshold_toNat multisig owners
  have hbyte := multisig.threshold.toNat_lt
  constructor
  · intro h
    have hexact := h.threshold_eq
    omega
  · intro h
    refine ⟨rfl, rfl, ?_⟩
    omega

/-- Every accepted call of `set_owners` stores the submitted owners in order and keeps
the nonce; its threshold is the minimum of the old threshold and the number of owners
if and only if there are fewer than 256 owners or their number modulo 256 is not below
the old threshold. -/
theorem set_owners_clamps {rt : Runtime} {programId : Pubkey} {accounts : List AccountInfo}
    {instruction : SetOwnersInstruction} {L L' : Ledger}
    (h : setOwners rt programId accounts instruction L = .ok () L') :
    ∃ multisigAccount rest old new, accounts = multisigAccount :: rest ∧
      Multisig.checkedDeserialize (L multisigAccount.key).data = .ok old ∧
      Multisig.checkedDeserialize (L' multisigAccount.key).data = .ok new ∧
      new.owners = instruction.owners ∧ new.nonce = old.nonce ∧
      (Clamped old new instruction.owners ↔ instruction.owners.length < 256 ∨
        old.threshold.toNat ≤ instruction.owners.length % 256) := by
  obtain ⟨m, s, rest, multisig, rfl, hsigned, -, -, -, hfits, rfl⟩ := setOwners_effect h
  refine ⟨m, s :: rest, multisig, withOwners multisig instruction.owners, rfl, ?_, ?_, rfl,
    rfl, withOwners_clamped_iff multisig instruction.owners⟩
  · exact Multisig.checkedDeserialize_eq_ok_iff.mpr ⟨hsigned.fits, hsigned.data⟩
  · rw [writeData_self]
    exact Multisig.checkedDeserialize_encode hfits

section LocalRuns

/-- The sample multisig of two owners is given one. -/
theorem set_owners_clamps_sample : ∃ L', setOwners localRuntime localRuntime.programId
      [writable (keyOf 20), signer samplePda] ⟨[keyOf 12]⟩ configuredSample.ledger =
        .ok () L' ∧
    ∃ old new,
      Multisig.checkedDeserialize (configuredSample.ledger (keyOf 20)).data = .ok old ∧
      Multisig.checkedDeserialize (L' (keyOf 20)).data = .ok new ∧
      Clamped old new [keyOf 12] := by
  have howners : validateOwners shrunk [keyOf 12] = .ok () := by decide +kernel
  have hrun := setOwners_of_accepted shrunk_signed howners (by decide) (by decide) []
  obtain ⟨m, rest, old, new, haccounts, hold, hnew, -, -, hclamped⟩ := set_owners_clamps hrun
  have hkey : m.key = keyOf 20 := by
    rw [← (List.cons.inj haccounts).1]
    rfl
  rw [hkey] at hold hnew
  exact ⟨_, hrun, old, new, hold, hnew, hclamped.mpr (.inl (by decide))⟩

/-- The threshold of 257 owners, any one of whom may act, is clamped to zero and not to
one when 256 owners take over. -/
theorem set_owners_clamp_broken : ∃ w w' old new,
    ConfiguredWorld localRuntime (fun _ => true) w ∧
    perform localRuntime w (.call (.setOwners ⟨manyOwners 256⟩)
      [writable (keyOf 20), signer samplePda]) = some w' ∧
    Multisig.checkedDeserialize (w.ledger (keyOf 20)).data = .ok old ∧
    Multisig.checkedDeserialize (w'.ledger (keyOf 20)).data = .ok new ∧
    new.threshold.toNat ≠ min old.threshold.toNat (manyOwners 256).length := by
  rcases crowd_created with ⟨L, hinit, hcreated⟩
  obtain ⟨hfits, hhalved⟩ := crowd_halved hinit [.multisigCreated (keyOf 20) crowd.owners 5]
  refine ⟨_, _, CreateMultisig.newMultisig crowd,
    withOwners (CreateMultisig.newMultisig crowd) (manyOwners 256),
    .next (.init (localStart_initial [keyOf 11]).world) ⟨rfl, rfl⟩ hcreated, hhalved,
    ?_, ?_, ?_⟩
  · exact Multisig.checkedDeserialize_eq_ok_iff.mpr
      ⟨crowd_fits, congrArg Account.data hinit.account_eq⟩
  · simp only [writeData_self]
    exact Multisig.checkedDeserialize_encode hfits
  · rw [withOwners_threshold_toNat, manyOwners_length]
    decide

end LocalRuns

end MultisigNative.Properties
