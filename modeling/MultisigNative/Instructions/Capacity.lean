import MultisigNative.Instructions.Configuration

/-!
The size of a multisig under owner changes: the wrapping arithmetic of
`validate_owners` and `execute_set_owners` is exact on every list that is
accepted, so each write has the size of the data it replaces.
-/

namespace MultisigNative.Instructions

open Library.Borsh
open Library.StateError
open Solana
open Errors
open State

section Owners

variable {multisig : Multisig} {owners : List Pubkey} {u : Unit}

/-- The size of a list in memory bounds its length. -/
theorem validateOwners_eq_ok_iff (hfits : Multisig.format.fits multisig = true)
    (hlen : 32 * owners.length < 2 ^ 64) :
    validateOwners multisig owners = .ok u ↔
      owners.Nodup ∧ owners ≠ [] ∧
        32 * owners.length ≤ 32 * multisig.owners.length + multisig.padding.length := by
  obtain ⟨hold, hpadding⟩ := (Multisig.format_fits_iff multisig).mp hfits
  have hcompare : (UInt64.ofNat owners.length * UInt64.ofNat PUBKEY_BYTES ≤
        UInt64.ofNat multisig.owners.length * UInt64.ofNat PUBKEY_BYTES +
          UInt64.ofNat multisig.padding.length) ↔
      32 * owners.length ≤ 32 * multisig.owners.length + multisig.padding.length := by
    simp only [UInt64.le_iff_toNat_le, UInt64.toNat_add, UInt64.toNat_mul,
      UInt64.toNat_ofNat', PUBKEY_BYTES]
    omega
  simp only [validateOwners, Library.StateError.except_bind_eq_ok_iff,
    assertUniqueOwners_eq_ok_iff, assertThat_eq_ok_iff, exists_const,
    Bool.not_eq_true', List.isEmpty_eq_false_iff, decide_eq_true_eq, hcompare]

/-- The subtraction may wrap, the padding length does not. -/
theorem paddingLen_toNat (hfits : Multisig.format.fits multisig = true)
    (hle : 32 * owners.length ≤
      32 * multisig.owners.length + multisig.padding.length) :
    (paddingLen multisig owners).toNat =
      32 * multisig.owners.length + multisig.padding.length - 32 * owners.length := by
  obtain ⟨hold, hpadding⟩ := (Multisig.format_fits_iff multisig).mp hfits
  simp only [paddingLen, UInt64.toNat_add, UInt64.toNat_mul, UInt64.toNat_sub,
    UInt64.toNat_ofNat', PUBKEY_BYTES]
  omega

@[simp] theorem withOwners_owners : (withOwners multisig owners).owners = owners := rfl

@[simp] theorem withOwners_ownerSetSeqno :
    (withOwners multisig owners).ownerSetSeqno = multisig.ownerSetSeqno + 1 := rfl

/-- The bytes for owners and padding together stay the same. -/
theorem withOwners_capacity (hfits : Multisig.format.fits multisig = true)
    (hle : 32 * owners.length ≤
      32 * multisig.owners.length + multisig.padding.length) :
    32 * owners.length + (withOwners multisig owners).padding.length =
      32 * multisig.owners.length + multisig.padding.length := by
  have hpadding := paddingLen_toNat hfits hle
  simp only [withOwners, List.length_replicate, hpadding]
  omega

theorem withOwners_len (hfits : Multisig.format.fits multisig = true)
    (hle : 32 * owners.length ≤
      32 * multisig.owners.length + multisig.padding.length) :
    (withOwners multisig owners).len = multisig.len := by
  have hcapacity := withOwners_capacity hfits hle
  simp only [Multisig.len, PUBKEY_BYTES, withOwners_owners]
  omega

/-- An account that is short enough for Borsh stays so. -/
theorem withOwners_fits (hfits : Multisig.format.fits multisig = true)
    (hle : 32 * owners.length ≤
      32 * multisig.owners.length + multisig.padding.length)
    (hshort : multisig.len < 2 ^ 32) :
    Multisig.format.fits (withOwners multisig owners) = true := by
  have hcapacity := withOwners_capacity hfits hle
  simp only [Multisig.len, PUBKEY_BYTES] at hshort
  rw [Multisig.format_fits_iff, withOwners_owners]
  omega

/-- The new threshold in exact integers: it is clamped to the number of owners
modulo 256. -/
theorem withOwners_threshold_toNat (multisig : Multisig) (owners : List Pubkey) :
    (withOwners multisig owners).threshold.toNat =
      min multisig.threshold.toNat (owners.length % 256) := by
  simp only [withOwners, UInt8.lt_iff_toNat_lt, UInt8.toNat_ofNat']
  split
  · rw [UInt8.toNat_ofNat']
    omega
  · omega

end Owners

section Writes

variable {rt : Runtime} {programId : Pubkey} {accounts : List AccountInfo}
  {L L' : Ledger}

/-- Replace the data of one account. -/
def writeData (L : Ledger) (key : Pubkey) (data : Bytes) : Ledger :=
  Function.update L key { L key with data := data }

@[simp] theorem writeData_self (key : Pubkey) (data : Bytes) :
    writeData L key data key = { L key with data := data } := by
  simp [writeData]

@[simp] theorem writeData_of_ne {key k : Pubkey} (data : Bytes) (h : k ≠ key) :
    writeData L key data k = L k := by
  simp [writeData, h]

@[simp] theorem writeData_lamports (key k : Pubkey) (data : Bytes) :
    (writeData L key data k).lamports = (L k).lamports := by
  by_cases hk : k = key
  · rw [hk, writeData_self]
  · rw [writeData_of_ne data hk]

theorem writeData_writeData (key : Pubkey) (first second : Bytes) :
    writeData (writeData L key first) key second = writeData L key second := by
  simp [writeData]

theorem serializeInto_eq_ok_iff_of_length {α : Type} {f : Format α} {value : α}
    {info : AccountInfo} {u : Unit}
    (hlen : (f.encode value).length = (L info.key).data.length) :
    serializeInto f value info L = .ok u L' ↔
      f.fits value = true ∧ L' = writeData L info.key (f.encode value) := by
  rw [serializeInto_eq_ok_iff, hlen, List.drop_length, List.append_nil]
  simp only [writeData, Nat.le_refl, true_and]

section Updates

variable {info signerInfo : AccountInfo} {multisig multisig' : Multisig}
  {owners : List Pubkey}

/-- Once the owners are accepted, writing them cannot fail. -/
theorem executeSetOwners_eq_ok
    (hdata : (L info.key).data = Multisig.format.encode multisig)
    (hfits : Multisig.format.fits multisig = true)
    (hle : 32 * owners.length ≤
      32 * multisig.owners.length + multisig.padding.length)
    (hnew : Multisig.format.fits (withOwners multisig owners) = true) :
    executeSetOwners info multisig owners L =
      .ok (withOwners multisig owners)
        (writeData L info.key (Multisig.format.encode (withOwners multisig owners))) := by
  refine bind_of_ok (serializeInto_eq_ok_of_length hnew ?_)
  rw [hdata, Multisig.format_encode_length, Multisig.format_encode_length,
    withOwners_len hfits hle]

theorem executeChangeThreshold_eq_ok
    (hdata : (L info.key).data = Multisig.format.encode multisig)
    (hfits : Multisig.format.fits multisig = true) (threshold : UInt8) :
    executeChangeThreshold info multisig threshold L =
      .ok { multisig with threshold := threshold }
        (writeData L info.key
          (Multisig.format.encode { multisig with threshold := threshold })) := by
  refine bind_of_ok (serializeInto_eq_ok_of_length ?_ ?_)
  · rw [Multisig.format_fits_iff]
    exact (Multisig.format_fits_iff multisig).mp hfits
  · rw [hdata, Multisig.format_encode_length, Multisig.format_encode_length]
    rfl

theorem withOwners_fits_of_signed
    (h : SignedMultisig rt programId L info signerInfo multisig)
    (hshort : (L info.key).data.length < 2 ^ 32)
    (hle : 32 * owners.length ≤
      32 * multisig.owners.length + multisig.padding.length) :
    Multisig.format.fits (withOwners multisig owners) = true := by
  rw [h.data, Multisig.format_encode_length] at hshort
  exact withOwners_fits h.fits hle hshort

/-- The account can be used again after it has been written. -/
theorem SignedMultisig.written
    (h : SignedMultisig rt programId L info signerInfo multisig)
    (hfits : Multisig.format.fits multisig' = true) (hnonce : multisig'.nonce = multisig.nonce) :
    SignedMultisig rt programId
      (writeData L info.key (Multisig.format.encode multisig')) info signerInfo multisig' where
  data := by rw [writeData_self]
  fits := hfits
  owner := by rw [writeData_self, ← h.owner]
  pda := by rw [hnonce, h.pda]
  isSigner := h.isSigner

theorem setOwners_of_refused {e : ProgramError}
    (h : SignedMultisig rt programId L info signerInfo multisig)
    (howners : validateOwners multisig owners = .error e) (rest : List AccountInfo) :
    setOwners rt programId (info :: signerInfo :: rest) ⟨owners⟩ L = .error (.error e) L := by
  rw [setOwners_of_signed h, liftM_bind_of_error howners]

theorem setOwners_of_accepted (h : SignedMultisig rt programId L info signerInfo multisig)
    (howners : validateOwners multisig owners = .ok ())
    (hle : 32 * owners.length ≤
      32 * multisig.owners.length + multisig.padding.length)
    (hnew : Multisig.format.fits (withOwners multisig owners) = true)
    (rest : List AccountInfo) :
    setOwners rt programId (info :: signerInfo :: rest) ⟨owners⟩ L =
      .ok () (writeData L info.key
        (Multisig.format.encode (withOwners multisig owners))) := by
  rw [setOwners_of_signed h, liftM_bind_of_ok howners,
    bind_of_ok (executeSetOwners_eq_ok h.data h.fits hle hnew)]
  rfl

theorem changeThreshold_of_refused {threshold : UInt8} {e : ProgramError}
    (h : SignedMultisig rt programId L info signerInfo multisig)
    (hthreshold : validateThreshold threshold multisig.owners = .error e)
    (rest : List AccountInfo) :
    changeThreshold rt programId (info :: signerInfo :: rest) ⟨threshold⟩ L =
      .error (.error e) L := by
  rw [changeThreshold_of_signed h, liftM_bind_of_error hthreshold]

theorem changeThreshold_of_accepted {threshold : UInt8}
    (h : SignedMultisig rt programId L info signerInfo multisig)
    (hthreshold : validateThreshold threshold multisig.owners = .ok ())
    (rest : List AccountInfo) :
    changeThreshold rt programId (info :: signerInfo :: rest) ⟨threshold⟩ L =
      .ok () (writeData L info.key
        (Multisig.format.encode { multisig with threshold := threshold })) := by
  rw [changeThreshold_of_signed h, liftM_bind_of_ok hthreshold,
    bind_of_ok (executeChangeThreshold_eq_ok h.data h.fits threshold)]
  rfl

/-- The combined operation checks the threshold against the owners that are submitted. -/
theorem setOwnersAndChangeThreshold_of_refused {threshold : UInt8} {e : ProgramError}
    (h : SignedMultisig rt programId L info signerInfo multisig)
    (howners : validateOwners multisig owners = .ok ())
    (hthreshold : validateThreshold threshold owners = .error e)
    (rest : List AccountInfo) :
    setOwnersAndChangeThreshold rt programId (info :: signerInfo :: rest)
        ⟨owners, threshold⟩ L =
      .error (.error e) L := by
  rw [setOwnersAndChangeThreshold_of_signed h, liftM_bind_of_ok howners,
    liftM_bind_of_error hthreshold]

/-- With everything accepted, the second write is made over the first. -/
theorem setOwnersAndChangeThreshold_of_accepted {threshold : UInt8}
    (h : SignedMultisig rt programId L info signerInfo multisig)
    (howners : validateOwners multisig owners = .ok ())
    (hthreshold : validateThreshold threshold owners = .ok ())
    (hle : 32 * owners.length ≤
      32 * multisig.owners.length + multisig.padding.length)
    (hnew : Multisig.format.fits (withOwners multisig owners) = true)
    (rest : List AccountInfo) :
    setOwnersAndChangeThreshold rt programId (info :: signerInfo :: rest)
        ⟨owners, threshold⟩ L =
      .ok () (writeData
        (writeData L info.key (Multisig.format.encode (withOwners multisig owners))) info.key
        (Multisig.format.encode
          { withOwners multisig owners with threshold := threshold })) := by
  have hwritten := h.written hnew rfl
  rw [setOwnersAndChangeThreshold_of_signed h, liftM_bind_of_ok howners,
    liftM_bind_of_ok hthreshold,
    bind_of_ok (executeSetOwners_eq_ok h.data h.fits hle hnew),
    bind_of_ok (executeChangeThreshold_eq_ok hwritten.data hwritten.fits threshold)]
  rfl

end Updates

/-- An accepted owner change writes the new value over the old one. -/
theorem setOwners_effect {instruction : SetOwnersInstruction} {u : Unit}
    (h : setOwners rt programId accounts instruction L = .ok u L') :
    ∃ multisigAccount multisigSigner rest multisig,
      accounts = multisigAccount :: multisigSigner :: rest ∧
      SignedMultisig rt programId L multisigAccount multisigSigner multisig ∧
      instruction.owners.Nodup ∧ instruction.owners ≠ [] ∧
      32 * instruction.owners.length ≤
        32 * multisig.owners.length + multisig.padding.length ∧
      Multisig.format.fits (withOwners multisig instruction.owners) = true ∧
      L' = writeData L multisigAccount.key
        (Multisig.format.encode (withOwners multisig instruction.owners)) := by
  obtain ⟨m, s, rest, multisig, rfl, hsigned, howners, hserialize⟩ :=
    setOwners_eq_ok_iff.mp h
  have hfits := (serializeInto_eq_ok_iff.mp hserialize).1
  have hlen : instruction.owners.length < 2 ^ 32 :=
    ((Multisig.format_fits_iff _).mp hfits).1
  obtain ⟨hnodup, hne, hle⟩ := (validateOwners_eq_ok_iff hsigned.fits (by omega)).mp howners
  have hsize : (Multisig.format.encode (withOwners multisig instruction.owners)).length =
      (L m.key).data.length := by
    rw [hsigned.data, Multisig.format_encode_length, Multisig.format_encode_length,
      withOwners_len hsigned.fits hle]
  exact ⟨m, s, rest, multisig, rfl, hsigned, hnodup, hne, hle, hfits,
    ((serializeInto_eq_ok_iff_of_length hsize).mp hserialize).2⟩

theorem changeThreshold_effect {instruction : ChangeThresholdInstruction} {u : Unit}
    (h : changeThreshold rt programId accounts instruction L = .ok u L') :
    ∃ multisigAccount multisigSigner rest multisig,
      accounts = multisigAccount :: multisigSigner :: rest ∧
      SignedMultisig rt programId L multisigAccount multisigSigner multisig ∧
      0 < instruction.threshold.toNat ∧
      instruction.threshold.toNat ≤ multisig.owners.length % 256 ∧
      L' = writeData L multisigAccount.key (Multisig.format.encode
        { multisig with threshold := instruction.threshold }) := by
  obtain ⟨m, s, rest, multisig, rfl, hsigned, hthreshold, hserialize⟩ :=
    changeThreshold_eq_ok_iff.mp h
  obtain ⟨hpos, hle⟩ := validateThreshold_eq_ok_iff.mp hthreshold
  have hsize : (Multisig.format.encode
      { multisig with threshold := instruction.threshold }).length =
      (L m.key).data.length := by
    rw [hsigned.data, Multisig.format_encode_length, Multisig.format_encode_length]
    rfl
  exact ⟨m, s, rest, multisig, rfl, hsigned, hpos, hle,
    ((serializeInto_eq_ok_iff_of_length hsize).mp hserialize).2⟩

/-- The two writes of the combined operation amount to one. -/
theorem setOwnersAndChangeThreshold_effect
    {instruction : SetOwnersAndChangeThresholdInstruction} {u : Unit}
    (h : setOwnersAndChangeThreshold rt programId accounts instruction L = .ok u L') :
    ∃ multisigAccount multisigSigner rest multisig,
      accounts = multisigAccount :: multisigSigner :: rest ∧
      SignedMultisig rt programId L multisigAccount multisigSigner multisig ∧
      instruction.owners.Nodup ∧ instruction.owners ≠ [] ∧
      32 * instruction.owners.length ≤
        32 * multisig.owners.length + multisig.padding.length ∧
      0 < instruction.threshold.toNat ∧
      instruction.threshold.toNat ≤ instruction.owners.length % 256 ∧
      Multisig.format.fits (withOwners multisig instruction.owners) = true ∧
      L' = writeData L multisigAccount.key (Multisig.format.encode
        (withOwnersAndThreshold multisig instruction.owners instruction.threshold)) := by
  obtain ⟨m, s, rest, multisig, mid, rfl, hsigned, howners, hthreshold, hfirst,
    hsecond⟩ := setOwnersAndChangeThreshold_eq_ok_iff.mp h
  have hfits := (serializeInto_eq_ok_iff.mp hfirst).1
  have hlen : instruction.owners.length < 2 ^ 32 :=
    ((Multisig.format_fits_iff _).mp hfits).1
  obtain ⟨hnodup, hne, hle⟩ := (validateOwners_eq_ok_iff hsigned.fits (by omega)).mp howners
  obtain ⟨hpos, hbound⟩ := validateThreshold_eq_ok_iff.mp hthreshold
  have hsize : (Multisig.format.encode (withOwners multisig instruction.owners)).length =
      (L m.key).data.length := by
    rw [hsigned.data, Multisig.format_encode_length, Multisig.format_encode_length,
      withOwners_len hsigned.fits hle]
  obtain ⟨-, rfl⟩ := (serializeInto_eq_ok_iff_of_length hsize).mp hfirst
  have hsize' : (Multisig.format.encode (withOwnersAndThreshold multisig
      instruction.owners instruction.threshold)).length =
      (writeData L m.key (Multisig.format.encode
        (withOwners multisig instruction.owners)) m.key).data.length := by
    rw [writeData_self, Multisig.format_encode_length, Multisig.format_encode_length]
    rfl
  obtain ⟨-, rfl⟩ := (serializeInto_eq_ok_iff_of_length hsize').mp hsecond
  exact ⟨m, s, rest, multisig, rfl, hsigned, hnodup, hne, hle, hpos, hbound, hfits,
    writeData_writeData _ _ _⟩

end Writes

end MultisigNative.Instructions
