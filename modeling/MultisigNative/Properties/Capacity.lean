import MultisigNative.Properties.Threshold

/-!
The bytes of a multisig account suffice for its owners at creation for ever:
what an owner change gives up goes to the padding and can be taken back.
-/

namespace MultisigNative.Properties

open Solana
open State
open Instructions
open Processor
open MultisigNative.System
open LocalRuntime

/-- A slice in memory has at most `isize::MAX` bytes. -/
def FitsMemory (owners : List Pubkey) : Prop := PUBKEY_BYTES * owners.length < 2 ^ 63

instance (owners : List Pubkey) : Decidable (FitsMemory owners) :=
  inferInstanceAs (Decidable (PUBKEY_BYTES * owners.length < 2 ^ 63))

theorem FitsMemory.size_lt {owners : List Pubkey} (h : FitsMemory owners) :
    32 * owners.length < 2 ^ 64 := by
  rw [FitsMemory, PUBKEY_BYTES] at h
  omega

theorem capacity_of_accepted {multisig : Multisig} {owners : List Pubkey}
    (hfits : Multisig.format.fits multisig = true) (hmemory : FitsMemory owners)
    (h : validateOwners multisig owners = .ok ()) :
    32 * owners.length ≤ 32 * multisig.owners.length + multisig.padding.length :=
  ((validateOwners_eq_ok_iff hfits hmemory.size_lt).mp h).2.2

/-- The value that a configuring instruction writes over `multisig`. -/
def writtenBy (multisig : Multisig) : MultisigInstruction → Multisig
  | .setOwners data => withOwners multisig data.owners
  | .changeThreshold data => { multisig with threshold := data.threshold }
  | .setOwnersAndChangeThreshold data =>
      withOwnersAndThreshold multisig data.owners data.threshold
  | _ => multisig

/-- What a step leaves of the multisig at `k`. -/
def writtenAt {rt : Runtime} (k : Pubkey) (multisig : Multisig) : Label rt → Multisig
  | .call instruction (m :: _) =>
      if m.key = k then writtenBy multisig instruction else multisig
  | _ => multisig

theorem written_eq_writtenBy {key : Pubkey} {multisig written : Multisig}
    {instruction : MultisigInstruction} {event : Event}
    (h : Reconfigures key multisig instruction written event) :
    written = writtenBy multisig instruction := by
  cases h <;> rfl

theorem writtenAt_of_ne {rt : Runtime} {k : Pubkey} {multisig : Multisig}
    {label : Label rt} (h : label.subject ≠ some k) :
    writtenAt k multisig label = multisig := by
  cases label with
  | call instruction accounts =>
      cases accounts with
      | nil => rfl
      | cons m rest =>
          simp only [writtenAt]
          split
          · rename_i hm
            cases instruction <;> first | rfl | exact absurd (congrArg some hm) h
          · rfl
  | _ => rfl

section Capacity

variable {rt : Runtime} {w w' : World} {label : Label rt} {k : Pubkey} {g : Group}
  {multisig : Multisig}

theorem validateOwners_iff_of_holds
    (hholds : HoldsMultisig rt k (w.ledger k) g multisig) {owners : List Pubkey}
    (hmemory : FitsMemory owners) :
    validateOwners multisig owners = .ok () ↔
      owners.Nodup ∧ 1 ≤ owners.length ∧ owners.length ≤ g.capacity := by
  have hcapacity := hholds.capacity
  rw [validateOwners_eq_ok_iff hholds.fits hmemory.size_lt, ← List.length_pos_iff, hcapacity]
  refine and_congr_right fun _ => and_congr_right fun _ => ?_
  omega

/-- Every step leaves the multisig as it should, in as many bytes. -/
theorem written_of_effect (h : Held rt w) (heffect : Effect rt w label w')
    (hrole : label.keepsRoles w.registry = true) (hg : w.registry k = .multisig g)
    (hholds : HoldsMultisig rt k (w.ledger k) g multisig) :
    (w'.ledger k).data = Multisig.format.encode (writtenAt k multisig label) ∧
      Multisig.format.fits (writtenAt k multisig label) = true ∧
      32 * (writtenAt k multisig label).owners.length +
        (writtenAt k multisig label).padding.length = 32 * g.capacity := by
  rcases h.multisig_step heffect hrole hg hholds with
    ⟨hother, hkept, -⟩ | ⟨info, s, rest, instruction, written, event, rfl, rfl, -, hchange,
      hfits, rfl⟩
  · rw [writtenAt_of_ne hother, (hkept.owned hholds.owner hholds.funded).2.1]
    exact ⟨hholds.data, hholds.fits, hholds.capacity⟩
  · have hwritten : writtenAt info.key multisig
        (.call instruction (info :: s :: rest) : Label rt) = written := by
      rw [written_eq_writtenBy hchange]
      exact if_pos rfl
    rw [hwritten]
    refine ⟨by simp only [writeData_self], hfits, ?_⟩
    have hcapacity := (hholds.reconfigured hchange hfits).capacity
    cases hchange <;> exact hcapacity

end Capacity

/-- A multisig created with `n` owners decodes, has room for `n` owners and accepts
any owner list without duplicates of one to `n` keys.  Every change writes a value
with as much room that fills the account exactly and is read back. -/
theorem capacity_constant {rt : Runtime} {w : World}
    (h : ConfiguredWorld rt (fun _ => true) w) {later earlier : List Event} {k : Pubkey}
    {created : List Pubkey} {nonce : UInt8}
    (hcreated : w.history = later ++ .multisigCreated k created nonce :: earlier) :
    ∃ multisig, Multisig.checkedDeserialize (w.ledger k).data = .ok multisig ∧
      32 * multisig.owners.length + multisig.padding.length = 32 * created.length ∧
      (∀ owners, FitsMemory owners → (validateOwners multisig owners = .ok () ↔
        owners.Nodup ∧ 1 ≤ owners.length ∧ owners.length ≤ created.length)) ∧
      ∀ label w', configures label = true → perform rt w label = some w' →
        (w'.ledger k).data = Multisig.format.encode (writtenAt k multisig label) ∧
        (w'.ledger k).data.length = (w.ledger k).data.length ∧
        Multisig.checkedDeserialize (w'.ledger k).data =
          .ok (writtenAt k multisig label) ∧
        32 * (writtenAt k multisig label).owners.length +
          (writtenAt k multisig label).padding.length = 32 * created.length := by
  have honly := onlyMultisigs_of_configured h
  have hlawful := honly.lawful
  rw [hcreated] at hlawful
  obtain ⟨g, hg, -, hcapacity⟩ := multisig_of_created hlawful
  rw [← hcreated] at hg
  change w.registry k = .multisig g at hg
  obtain ⟨multisig, hholds⟩ := honly.held.exists_multisig hg
  rw [← hcapacity]
  refine ⟨multisig, hholds.decodes, hholds.capacity,
    fun _ => validateOwners_iff_of_holds hholds, ?_⟩
  intro label w' hconfigures hperform
  obtain ⟨hdata, hfits, hroom⟩ := written_of_effect honly.held
    (perform_effect hperform) (honly.keepsRoles hconfigures) hg hholds
  refine ⟨hdata, ?_, ?_, hroom⟩
  · have hsame := hholds.capacity
    rw [hdata, hholds.data, Multisig.format_encode_length, Multisig.format_encode_length]
    simp only [Multisig.len, PUBKEY_BYTES]
    omega
  · exact Multisig.checkedDeserialize_eq_ok_iff.mpr ⟨hfits, hdata⟩

/-- Down to two of its three owners, the sample multisig takes three again. -/
theorem capacity_constant_sample : ∃ multisig,
    Multisig.checkedDeserialize (configuredSample.ledger (keyOf 20)).data = .ok multisig ∧
    32 * multisig.owners.length + multisig.padding.length = 32 * 3 ∧
    validateOwners multisig [keyOf 14, keyOf 12, keyOf 11] = .ok () := by
  have hhistory : configuredSample.history = [.ownersChanged (keyOf 20) [keyOf 12, keyOf 11]] ++
      .multisigCreated (keyOf 20) [keyOf 11, keyOf 12, keyOf 13] 5 :: [] := by
    decide +kernel
  have hreachable : ConfiguredWorld localRuntime (fun _ => true) configuredSample :=
    configuredSample_reachable.mono fun _ _ hallowed => ⟨hallowed.1, rfl⟩
  obtain ⟨multisig, hdecode, hroom, haccepts, -⟩ := capacity_constant hreachable hhistory
  exact ⟨multisig, hdecode, hroom, (haccepts _ (by decide)).mpr (by decide)⟩

end MultisigNative.Properties
