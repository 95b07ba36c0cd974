import MultisigNative.Properties.Combination

/-!
Updates that fail write nothing, and not because the runtime rolls them back: all
checks come before the first write, and no write fails.
-/

namespace MultisigNative.Properties

open Library.Borsh
open Library.StateError
open Solana
open State
open Instructions
open LocalRuntime

/-- A handler that succeeds by replacing the data of one account by a value of the
same size. -/
def Writes {α : Type} (f : Format α) (value : α) (info : AccountInfo) (x : Handler Unit)
    (L : Ledger) : Prop :=
  x L = .ok () (writeData L info.key (f.encode value)) ∧
    (f.encode value).length = (L info.key).data.length

section Updates

variable {rt : Runtime} {programId : Pubkey} {L : Ledger} {m s : AccountInfo}
  {rest : List AccountInfo} {multisig : Multisig}

/-- A handler that begins with the common checks writes nothing when they fail. -/
theorem atomic_withSignedMultisig {accounts : List AccountInfo}
    {update : AccountInfo → Multisig → Handler Unit}
    (h : ∀ m s rest multisig, accounts = m :: s :: rest →
      SignedMultisig rt programId L m s multisig → Atomic (update m multisig) L) :
    Atomic (withSignedMultisig rt programId accounts update) L := by
  intro e L' herror
  rcases withSignedMultisig_cases rt programId accounts L with
    ⟨m, s, rest, multisig, haccounts, hsigned, hrun⟩ | ⟨e', hfailed⟩
  · rw [hrun] at herror
    exact h m s rest multisig haccounts hsigned e L' herror
  · rw [hfailed] at herror
    cases herror
    rfl

theorem writes_setOwners {owners : List Pubkey}
    (hsigned : SignedMultisig rt programId L m s multisig)
    (hshort : ShortVectors (m :: s :: rest) L owners)
    (howners : validateOwners multisig owners = .ok ()) :
    Writes Multisig.format (withOwners multisig owners) m
      (setOwners rt programId (m :: s :: rest) ⟨owners⟩) L := by
  have hle := capacity_of_accepted hsigned.fits hshort.memory howners
  have hnew := withOwners_fits_of_signed hsigned (hshort.data m rfl) hle
  refine ⟨setOwners_of_accepted hsigned howners hle hnew rest, ?_⟩
  rw [hsigned.data, Multisig.format_encode_length, Multisig.format_encode_length,
    withOwners_len hsigned.fits hle]

theorem writes_changeThreshold {threshold : UInt8}
    (hsigned : SignedMultisig rt programId L m s multisig)
    (hthreshold : validateThreshold threshold multisig.owners = .ok ())
    (rest : List AccountInfo) :
    Writes Multisig.format { multisig with threshold := threshold } m
      (changeThreshold rt programId (m :: s :: rest) ⟨threshold⟩) L := by
  refine ⟨changeThreshold_of_accepted hsigned hthreshold rest, ?_⟩
  rw [hsigned.data, Multisig.format_encode_length, Multisig.format_encode_length]
  rfl

theorem writes_setOwnersAndChangeThreshold {owners : List Pubkey} {threshold : UInt8}
    (hsigned : SignedMultisig rt programId L m s multisig)
    (hshort : ShortVectors (m :: s :: rest) L owners)
    (howners : validateOwners multisig owners = .ok ())
    (hthreshold : validateThreshold threshold owners = .ok ()) :
    Writes Multisig.format (withOwnersAndThreshold multisig owners threshold) m
      (setOwnersAndChangeThreshold rt programId (m :: s :: rest) ⟨owners, threshold⟩) L := by
  have hle := capacity_of_accepted hsigned.fits hshort.memory howners
  have hnew := withOwners_fits_of_signed hsigned (hshort.data m rfl) hle
  have hlen := withOwners_len hsigned.fits hle
  constructor
  · rw [setOwnersAndChangeThreshold_of_accepted hsigned howners hthreshold hle hnew rest,
      writeData_writeData]
    rfl
  · rw [hsigned.data, Multisig.format_encode_length, Multisig.format_encode_length, ← hlen]
    rfl

theorem writes_approveTransaction {t approver : AccountInfo} {transaction : Transaction}
    {ownerIndex : Nat}
    (h : ApproveTransaction.Valid programId L m t approver multisig transaction ownerIndex)
    (rest : List AccountInfo) :
    Writes Transaction.format (withSigner transaction ownerIndex) t
      (approveTransaction programId (m :: t :: approver :: rest)) L := by
  constructor
  · exact approveTransaction_eq_ok_iff.mpr
      ⟨m, t, approver, rest, multisig, transaction, ownerIndex, rfl, h, rfl⟩
  · rw [h.data, Transaction.format_encode_length, Transaction.format_encode_length,
      withSigner_len]

theorem atomic_setOwners {accounts : List AccountInfo} {owners : List Pubkey}
    (hshort : ShortVectors accounts L owners) :
    Atomic (setOwners rt programId accounts ⟨owners⟩) L := by
  apply atomic_withSignedMultisig
  rintro m s rest multisig rfl hsigned
  apply atomic_liftM_bind
  intro u howners
  have hle := capacity_of_accepted hsigned.fits hshort.memory howners
  have hnew := withOwners_fits_of_signed hsigned (hshort.data m rfl) hle
  exact atomic_of_ok
    (bind_of_ok (executeSetOwners_eq_ok hsigned.data hsigned.fits hle hnew))

theorem atomic_changeThreshold {accounts : List AccountInfo} {threshold : UInt8} :
    Atomic (changeThreshold rt programId accounts ⟨threshold⟩) L := by
  apply atomic_withSignedMultisig
  rintro m s rest multisig rfl hsigned
  apply atomic_liftM_bind
  intro u hthreshold
  exact atomic_of_ok
    (bind_of_ok (executeChangeThreshold_eq_ok hsigned.data hsigned.fits threshold))

theorem atomic_setOwnersAndChangeThreshold {accounts : List AccountInfo}
    {owners : List Pubkey} {threshold : UInt8}
    (hshort : ShortVectors accounts L owners) :
    Atomic (setOwnersAndChangeThreshold rt programId accounts ⟨owners, threshold⟩) L := by
  apply atomic_withSignedMultisig
  rintro m s rest multisig rfl hsigned
  apply atomic_liftM_bind
  intro u howners
  apply atomic_liftM_bind
  intro u' hthreshold
  have hle := capacity_of_accepted hsigned.fits hshort.memory howners
  have hnew := withOwners_fits_of_signed hsigned (hshort.data m rfl) hle
  have hwritten := hsigned.written hnew rfl
  -- both writes succeed, the second on what the first has left
  have hfirst := executeSetOwners_eq_ok hsigned.data hsigned.fits hle hnew
  have hsecond := executeChangeThreshold_eq_ok hwritten.data hwritten.fits threshold
  exact atomic_of_ok ((bind_of_ok hfirst).trans (bind_of_ok hsecond))

/-- Every read and every check of `approve_transaction` comes before its one write. -/
theorem atomic_approveTransaction {accounts : List AccountInfo} :
    Atomic (approveTransaction programId accounts) L := by
  refine .bind (readsOnly_liftM _ _) fun ⟨m, accounts⟩ _ => ?_
  refine .bind (readsOnly_liftM _ _) fun ⟨t, accounts⟩ _ => ?_
  refine .bind (readsOnly_liftM _ _) fun ⟨approver, _⟩ _ => ?_
  refine .bind (AccountInfo.readsOnly_data _ _) fun _ _ => ?_
  refine .bind (readsOnly_liftM _ _) fun multisig _ => ?_
  refine .bind (AccountInfo.readsOnly_data _ _) fun bytes hbytes => ?_
  refine .bind (readsOnly_liftM _ _) fun transaction hdecode => ?_
  refine .bind (ApproveTransaction.readsOnly_validate _ _ _ _ _ _ _) fun _ _ => ?_
  refine .bind (readsOnly_liftM _ _) fun ownerIndex _ => ?_
  refine .bind (readsOnly_markSigner _ _ _) fun signers hsigners => ?_
  obtain ⟨hfits, hdata⟩ :=
    Transaction.checkedDeserialize_eq_ok_iff.mp (liftM_eq_ok_iff.mp hdecode).1
  obtain ⟨rfl, -⟩ := EStateM.Result.ok.inj hbytes
  obtain ⟨-, rfl, -⟩ := markSigner_eq_ok_iff.mp hsigners
  have hsize : (Transaction.format.encode (withSigner transaction ownerIndex)).length =
      (L t.key).data.length := by
    rw [hdata, Transaction.format_encode_length, Transaction.format_encode_length,
      withSigner_len]
  have hnew : Transaction.format.fits (withSigner transaction ownerIndex) = true := by
    rw [withSigner_fits, hfits]
  exact atomic_of_ok (serializeInto_eq_ok_of_length hnew hsize)

end Updates

/-- The four updates leave every account as it was whenever they fail, on any accounts
with any content.  Once their checks have passed they succeed: the new value is as long
as the data it replaces, and the combined operation makes both of its writes. -/
theorem failed_updates_write_nothing (rt : Runtime) (programId : Pubkey)
    (accounts : List AccountInfo) (L : Ledger) :
    (∀ owners, ShortVectors accounts L owners →
      Atomic (setOwners rt programId accounts ⟨owners⟩) L) ∧
    (∀ threshold, Atomic (changeThreshold rt programId accounts ⟨threshold⟩) L) ∧
    (∀ owners threshold, ShortVectors accounts L owners →
      Atomic (setOwnersAndChangeThreshold rt programId accounts ⟨owners, threshold⟩) L) ∧
    Atomic (approveTransaction programId accounts) L ∧
    (∀ m s rest multisig, accounts = m :: s :: rest →
      SignedMultisig rt programId L m s multisig →
      (∀ owners, ShortVectors accounts L owners → validateOwners multisig owners = .ok () →
        Writes Multisig.format (withOwners multisig owners) m
          (setOwners rt programId accounts ⟨owners⟩) L) ∧
      (∀ threshold, validateThreshold threshold multisig.owners = .ok () →
        Writes Multisig.format { multisig with threshold := threshold } m
          (changeThreshold rt programId accounts ⟨threshold⟩) L) ∧
      ∀ owners threshold, ShortVectors accounts L owners →
        validateOwners multisig owners = .ok () → validateThreshold threshold owners = .ok () →
        Writes Multisig.format (withOwnersAndThreshold multisig owners threshold) m
          (setOwnersAndChangeThreshold rt programId accounts ⟨owners, threshold⟩) L) ∧
    ∀ m t approver rest multisig transaction ownerIndex,
      accounts = m :: t :: approver :: rest →
      ApproveTransaction.Valid programId L m t approver multisig transaction ownerIndex →
      Writes Transaction.format (withSigner transaction ownerIndex) t
        (approveTransaction programId accounts) L := by
  refine ⟨fun _ => atomic_setOwners, fun _ => atomic_changeThreshold,
    fun _ _ => atomic_setOwnersAndChangeThreshold, atomic_approveTransaction, ?_, ?_⟩
  · rintro m s rest multisig rfl hsigned
    refine ⟨?_, ?_, ?_⟩
    · intro owners hshort howners
      exact writes_setOwners hsigned hshort howners
    · intro threshold hthreshold
      exact writes_changeThreshold hsigned hthreshold rest
    · intro owners threshold hshort howners hthreshold
      exact writes_setOwnersAndChangeThreshold hsigned hshort howners hthreshold
  · rintro m t approver rest multisig transaction ownerIndex rfl hvalid
    exact writes_approveTransaction hvalid rest

/-- The sample multisig is given a duplicate owner, which changes nothing, and an owner
less, for which there is room. -/
theorem failed_updates_write_nothing_sample :
    Atomic (setOwners localRuntime localRuntime.programId
      [writable (keyOf 20), signer samplePda] ⟨[keyOf 12, keyOf 12]⟩)
        configuredSample.ledger ∧
    ∃ multisig, Writes Multisig.format (withOwners multisig [keyOf 12]) (writable (keyOf 20))
      (setOwners localRuntime localRuntime.programId
        [writable (keyOf 20), signer samplePda] ⟨[keyOf 12]⟩) configuredSample.ledger := by
  have hsample := failed_updates_write_nothing localRuntime localRuntime.programId
    [writable (keyOf 20), signer samplePda] configuredSample.ledger
  refine ⟨hsample.1 _ (shortVectors_sample (by decide)), shrunk, ?_⟩
  exact (hsample.2.2.2.2.1 _ _ [] shrunk rfl shrunk_signed).1 [keyOf 12]
    (shortVectors_sample (by decide)) (by decide +kernel)

end MultisigNative.Properties
