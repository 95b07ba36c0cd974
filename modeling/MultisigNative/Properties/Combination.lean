import MultisigNative.Properties.Capacity

/-!
`set_owners_and_change_threshold` amounts to `set_owners` followed by
`change_threshold`: the checks of the second part only depend on the submitted
owners, whether they are made before the owners are written or after.
-/

namespace MultisigNative.Properties

open Library.StateError
open Solana
open State
open Instructions
open LocalRuntime

/-- The vectors that an owner change writes are short: the submitted one is a slice in
memory, the stored ones lie in an account that Borsh can read as one vector. -/
structure ShortVectors (accounts : List AccountInfo) (L : Ledger) (owners : List Pubkey) :
    Prop where
  memory : FitsMemory owners
  data : ∀ m ∈ accounts.head?, (L m.key).data.length < 2 ^ 32

/-- `set_owners`, then `change_threshold` with the same accounts. -/
def setOwnersThenChangeThreshold (rt : Runtime) (programId : Pubkey)
    (accounts : List AccountInfo) (owners : List Pubkey) (threshold : UInt8) :
    Handler Unit := do
  setOwners rt programId accounts ⟨owners⟩
  changeThreshold rt programId accounts ⟨threshold⟩

section Signed

variable {rt : Runtime} {programId : Pubkey} {L : Ledger} {m s : AccountInfo}
  {multisig : Multisig} {owners : List Pubkey} {e : ProgramError}

theorem parts_of_refused (hsigned : SignedMultisig rt programId L m s multisig)
    (howners : validateOwners multisig owners = .error e) (rest : List AccountInfo)
    (threshold : UInt8) :
    setOwnersAndChangeThreshold rt programId (m :: s :: rest) ⟨owners, threshold⟩ L =
        .error (.error e) L ∧
      setOwnersThenChangeThreshold rt programId (m :: s :: rest) owners threshold L =
        .error (.error e) L := by
  constructor
  · rw [setOwnersAndChangeThreshold_of_signed hsigned, liftM_bind_of_error howners]
  · exact bind_of_error (setOwners_of_refused hsigned howners rest)

end Signed

/-- The combined operation and its two parts in turn end alike: in the same ledger, or
with the same error, which is that of the first part that fails. -/
theorem combined_eq_parts {rt : Runtime} {programId : Pubkey} {accounts : List AccountInfo}
    {owners : List Pubkey} {L : Ledger} (hshort : ShortVectors accounts L owners)
    (threshold : UInt8) :
    ending (setOwnersAndChangeThreshold rt programId accounts ⟨owners, threshold⟩) L =
      ending (setOwnersThenChangeThreshold rt programId accounts owners threshold) L := by
  rcases withSignedMultisig_cases rt programId accounts L with
    ⟨m, s, rest, multisig, rfl, hsigned, -⟩ | ⟨e, herror⟩
  · cases howners : validateOwners multisig owners with
    | error e =>
        obtain ⟨hcombined, hparts⟩ := parts_of_refused hsigned howners rest threshold
        rw [ending_of_error hcombined, ending_of_error hparts]
    | ok u =>
        have hle := capacity_of_accepted hsigned.fits hshort.memory howners
        have hnew := withOwners_fits_of_signed hsigned (hshort.data m rfl) hle
        have hwritten := hsigned.written hnew rfl
        have hparts : setOwnersThenChangeThreshold rt programId (m :: s :: rest) owners
            threshold L = changeThreshold rt programId (m :: s :: rest) ⟨threshold⟩ _ :=
          bind_of_ok (setOwners_of_accepted hsigned howners hle hnew rest)
        -- the owners just written are those that the combined operation checks against
        cases hthreshold : validateThreshold threshold owners with
        | error e =>
            have hcombined :=
              setOwnersAndChangeThreshold_of_refused hsigned howners hthreshold rest
            rw [changeThreshold_of_refused hwritten hthreshold rest] at hparts
            rw [ending_of_error hcombined, ending_of_error hparts]
        | ok u =>
            rw [changeThreshold_of_accepted hwritten hthreshold rest] at hparts
            have hcombined := setOwnersAndChangeThreshold_of_accepted hsigned howners
              hthreshold hle hnew rest
            rw [ending_of_ok hcombined, ending_of_ok hparts]
  · have hcombined : setOwnersAndChangeThreshold rt programId accounts ⟨owners, threshold⟩ L =
        .error (.error e) L := herror _
    have hparts : setOwnersThenChangeThreshold rt programId accounts owners threshold L =
        .error (.error e) L := bind_of_error (herror _)
    rw [ending_of_error hcombined, ending_of_error hparts]

section LocalRuns

theorem shortVectors_sample {owners : List Pubkey} (h : FitsMemory owners) :
    ShortVectors [writable (keyOf 20), signer samplePda] configuredSample.ledger owners where
  memory := h
  data := by
    intro m hm
    have hkey : m = writable (keyOf 20) := (Option.some.inj hm).symm
    rw [hkey]
    decide +kernel

/-- A threshold above the number of new owners is refused either way, although
`set_owners` alone would have gone through. -/
theorem combined_eq_parts_sample :
    ending (setOwnersAndChangeThreshold localRuntime localRuntime.programId
        [writable (keyOf 20), signer samplePda] ⟨[keyOf 12], 2⟩) configuredSample.ledger =
      ending (setOwnersThenChangeThreshold localRuntime localRuntime.programId
        [writable (keyOf 20), signer samplePda] [keyOf 12] 2) configuredSample.ledger :=
  combined_eq_parts (shortVectors_sample (by decide)) 2

end LocalRuns

end MultisigNative.Properties
