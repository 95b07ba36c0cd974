import MultisigNative.Solana.Runtime
import MultisigNative.State.Multisig

namespace MultisigNative.Instructions

open Library.Borsh
open Library.StateError
open Solana
open Errors
open State

/-- `u64::checked_add`. -/
def checkedAdd (a b : UInt64) : Option UInt64 :=
  if a.toNat + b.toNat < 2 ^ 64 then some (a + b) else none

def closeAccount (account refundee : AccountInfo) : Handler Unit := do
  let lamports ← account.lamports
  account.setLamports 0
  let refunded ← assertPresent (checkedAdd (← refundee.lamports) lamports)
    MultisigError.accountCloseFailure
  refundee.setLamports refunded
  account.resize 0
  account.assign systemProgram

/-- Returns the value written, which the caller goes on to use through its
`&mut Multisig`. -/
def executeChangeThreshold (multisigAccount : AccountInfo) (multisigData : Multisig)
    (threshold : UInt8) : Handler Multisig := do
  let multisigData := { multisigData with threshold := threshold }
  serializeInto Multisig.format multisigData multisigAccount
  return multisigData

/-- The number of bytes `execute_set_owners` allots to the padding, in the
wrapping 64-bit arithmetic of a release build. -/
def paddingLen (multisigData : Multisig) (owners : List Pubkey) : UInt64 :=
  UInt64.ofNat multisigData.padding.length +
    UInt64.ofNat PUBKEY_BYTES *
      (UInt64.ofNat multisigData.owners.length - UInt64.ofNat owners.length)

/-- The assignments of `execute_set_owners`; `owners.len() as u8` truncates. -/
def withOwners (multisigData : Multisig) (owners : List Pubkey) : Multisig where
  owners := owners
  threshold :=
    if UInt8.ofNat owners.length < multisigData.threshold then
      UInt8.ofNat owners.length
    else multisigData.threshold
  nonce := multisigData.nonce
  ownerSetSeqno := multisigData.ownerSetSeqno + 1
  padding := List.replicate (paddingLen multisigData owners).toNat 0

def executeSetOwners (multisigAccount : AccountInfo) (multisigData : Multisig)
    (owners : List Pubkey) : Handler Multisig := do
  let multisigData := withOwners multisigData owners
  serializeInto Multisig.format multisigData multisigAccount
  return multisigData

section Validation

variable (rt : Runtime)

def validatePda (multisigSigner multisigAccount : AccountInfo) (nonce : UInt8)
    (programId : Pubkey) : Except ProgramError Unit := do
  let pdaAddress ← assertPresent
    (rt.createProgramAddress [multisigAccount.key.bytes, [nonce]] programId)
    .invalidSeeds
  assertThat (multisigSigner.key == pdaAddress) .invalidSeeds

def validateSigner (multisigSigner multisigAccount : AccountInfo)
    (multisig : Multisig) (programId : Pubkey) : Except ProgramError Unit := do
  validatePda rt multisigSigner multisigAccount multisig.nonce programId
  assertThat multisigSigner.isSigner MultisigError.multisigSignerNotSigner

/-- The products and the sum are `usize` operations that wrap. -/
def validateOwners (multisig : Multisig) (owners : List Pubkey) :
    Except ProgramError Unit := do
  assertUniqueOwners owners
  assertThat (!owners.isEmpty) MultisigError.notEnoughOwners
  assertThat
    (UInt64.ofNat owners.length * UInt64.ofNat PUBKEY_BYTES ≤
      UInt64.ofNat multisig.owners.length * UInt64.ofNat PUBKEY_BYTES +
        UInt64.ofNat multisig.padding.length)
    MultisigError.tooManyOwners

/-- `owners.len() as u8` truncates. -/
def validateThreshold (threshold : UInt8) (owners : List Pubkey) :
    Except ProgramError Unit :=
  assertThat (decide (threshold > 0) && decide (threshold ≤ UInt8.ofNat owners.length))
    MultisigError.invalidThreshold

/-- How `set_owners`, `change_threshold` and `set_owners_and_change_threshold`
begin: decode the multisig, check its program, check its signer.  `update` is
the rest of the handler. -/
def withSignedMultisig (programId : Pubkey) (accounts : List AccountInfo)
    (update : AccountInfo → Multisig → Handler Unit) : Handler Unit := do
  let (multisigAccount, accounts) ← nextAccountInfo accounts
  let (multisigSigner, _) ← nextAccountInfo accounts
  let multisigData ← Multisig.checkedDeserialize (← multisigAccount.data)
  assertThat (programId == (← multisigAccount.owner))
    MultisigError.accountOwnedByWrongProgram
  validateSigner rt multisigSigner multisigAccount multisigData programId
  update multisigAccount multisigData

/-- How `create_multisig` and `propose_transaction` end: the system program
creates an account of `len` bytes, then the new value is written into it. -/
def createAndSerialize {α : Type} (f : Format α) (value : α) (len : Nat)
    (payer account : AccountInfo) (programId : Pubkey) : Handler Unit := do
  rt.createAccount payer account (rt.minimumBalance len) len programId
  serializeInto f value account

end Validation

/-- The multisig account and its signer, as `withSignedMultisig` checks them. -/
structure SignedMultisig (rt : Runtime) (programId : Pubkey) (L : Ledger)
    (multisigAccount multisigSigner : AccountInfo) (multisig : Multisig) : Prop where
  data : (L multisigAccount.key).data = Multisig.format.encode multisig
  fits : Multisig.format.fits multisig = true
  owner : (L multisigAccount.key).owner = programId
  pda : rt.createProgramAddress [multisigAccount.key.bytes, [multisig.nonce]]
    programId = some multisigSigner.key
  isSigner : multisigSigner.isSigner = true

/-- What creating an account and writing a value into it does to the ledger. -/
structure Initialised (rt : Runtime) (payer account : AccountInfo) (data : Bytes)
    (L L' : Ledger) : Prop where
  unused : L account.key = Account.unused
  account_isSigner : account.isSigner = true
  account_eq : L' account.key = ⟨rt.minimumBalance data.length, rt.programId, data⟩
  owner_eq : ∀ k, k ≠ account.key → (L' k).owner = (L k).owner
  data_eq : ∀ k, k ≠ account.key → (L' k).data = (L k).data
  eq_of_owner : ∀ k, k ≠ account.key → (L k).owner ≠ systemProgram → L' k = L k

/-- What closing an account does to the ledger. -/
structure Closed (account refundee : AccountInfo) (L L' : Ledger) : Prop where
  account_eq : L' account.key = Account.unused
  owner_eq : ∀ k, k ≠ account.key → (L' k).owner = (L k).owner
  data_eq : ∀ k, k ≠ account.key → (L' k).data = (L k).data
  lamports_le : ∀ k, k ≠ account.key → (L k).lamports ≤ (L' k).lamports
  eq_of_ne : ∀ k, k ≠ account.key → k ≠ refundee.key → L' k = L k

section Rules

variable {rt : Runtime} {multisigSigner multisigAccount account refundee : AccountInfo}
  {multisig : Multisig} {owners : List Pubkey} {threshold nonce : UInt8}
  {programId : Pubkey} {L L' : Ledger} {u : Unit}

theorem checkedAdd_eq_some_iff {a b c : UInt64} :
    checkedAdd a b = some c ↔ a.toNat + b.toNat < 2 ^ 64 ∧ a + b = c := by
  simp [checkedAdd]

theorem validatePda_eq_ok_iff :
    validatePda rt multisigSigner multisigAccount nonce programId = .ok u ↔
      rt.createProgramAddress [multisigAccount.key.bytes, [nonce]] programId =
        some multisigSigner.key := by
  simp only [validatePda, except_bind_eq_ok_iff, assertPresent_eq_ok_iff,
    assertThat_eq_ok_iff, beq_iff_eq]
  constructor
  · rintro ⟨pda, hpda, hkey⟩
    rw [hpda, hkey]
  · intro hpda
    exact ⟨_, hpda, rfl⟩

theorem validateSigner_eq_ok_iff :
    validateSigner rt multisigSigner multisigAccount multisig programId = .ok u ↔
      rt.createProgramAddress [multisigAccount.key.bytes, [multisig.nonce]]
        programId = some multisigSigner.key ∧ multisigSigner.isSigner = true := by
  simp only [validateSigner, except_bind_eq_ok_iff, validatePda_eq_ok_iff,
    assertThat_eq_ok_iff, exists_const]

/-- The threshold test in exact integers: the length counts modulo 256. -/
theorem threshold_test_iff (threshold : UInt8) (owners : List Pubkey) :
    (decide (threshold > 0) && decide (threshold ≤ UInt8.ofNat owners.length)) = true ↔
      0 < threshold.toNat ∧ threshold.toNat ≤ owners.length % 256 := by
  simp only [Bool.and_eq_true, decide_eq_true_eq, gt_iff_lt, UInt8.lt_iff_toNat_lt,
    UInt8.le_iff_toNat_le, UInt8.toNat_ofNat', UInt8.toNat_zero]

theorem validateThreshold_eq_ok_iff :
    validateThreshold threshold owners = .ok u ↔
      0 < threshold.toNat ∧ threshold.toNat ≤ owners.length % 256 := by
  rw [validateThreshold, assertThat_eq_ok_iff, threshold_test_iff]

theorem executeChangeThreshold_bind_eq_ok_iff {f : Multisig → Handler Unit} :
    (executeChangeThreshold multisigAccount multisig threshold >>= f) L = .ok u L' ↔
      ∃ mid, serializeInto Multisig.format { multisig with threshold := threshold }
          multisigAccount L = .ok () mid ∧
        f { multisig with threshold := threshold } mid = .ok u L' := by
  simp only [executeChangeThreshold, bind_eq_ok_iff, pure_eq_ok_iff]
  constructor
  · rintro ⟨_, _, ⟨_, mid, h, rfl, rfl⟩, hf⟩
    exact ⟨mid, h, hf⟩
  · rintro ⟨mid, h, hf⟩
    exact ⟨_, mid, ⟨(), mid, h, rfl, rfl⟩, hf⟩

theorem executeSetOwners_bind_eq_ok_iff {f : Multisig → Handler Unit} :
    (executeSetOwners multisigAccount multisig owners >>= f) L = .ok u L' ↔
      ∃ mid, serializeInto Multisig.format (withOwners multisig owners)
          multisigAccount L = .ok () mid ∧
        f (withOwners multisig owners) mid = .ok u L' := by
  simp only [executeSetOwners, bind_eq_ok_iff, pure_eq_ok_iff]
  constructor
  · rintro ⟨_, _, ⟨_, mid, h, rfl, rfl⟩, hf⟩
    exact ⟨mid, h, hf⟩
  · rintro ⟨mid, h, hf⟩
    exact ⟨_, mid, ⟨(), mid, h, rfl, rfl⟩, hf⟩

theorem withSignedMultisig_eq_ok_iff {accounts : List AccountInfo}
    {update : AccountInfo → Multisig → Handler Unit} :
    withSignedMultisig rt programId accounts update L = .ok u L' ↔
      ∃ multisigAccount multisigSigner rest multisig,
        accounts = multisigAccount :: multisigSigner :: rest ∧
          SignedMultisig rt programId L multisigAccount multisigSigner multisig ∧
          update multisigAccount multisig L = .ok u L' := by
  simp only [withSignedMultisig, nextAccountInfo_bind_eq_ok_iff,
    AccountInfo.data_bind, AccountInfo.owner_bind, liftM_unit_bind_eq_ok_iff,
    Multisig.checkedDeserialize_bind_eq_ok_iff, assertThat_eq_ok_iff, beq_iff_eq,
    validateSigner_eq_ok_iff]
  constructor
  · rintro ⟨m, _, rfl, s, rest, rfl, multisig, ⟨hfits, hdata⟩, howner,
      ⟨hpda, hsigner⟩, hupdate⟩
    exact ⟨m, s, rest, multisig, rfl, ⟨hdata, hfits, howner.symm, hpda, hsigner⟩,
      hupdate⟩
  · rintro ⟨m, s, rest, multisig, rfl, h, hupdate⟩
    exact ⟨m, _, rfl, s, rest, rfl, multisig, ⟨h.fits, h.data⟩, h.owner.symm,
      ⟨h.pda, h.isSigner⟩, hupdate⟩

/-- The checks either pass, and the rest of the handler goes on, or they fail whatever
the rest is. -/
theorem withSignedMultisig_cases (rt : Runtime) (programId : Pubkey)
    (accounts : List AccountInfo) (L : Ledger) :
    (∃ multisigAccount multisigSigner rest multisig,
        accounts = multisigAccount :: multisigSigner :: rest ∧
        SignedMultisig rt programId L multisigAccount multisigSigner multisig ∧
        ∀ update, withSignedMultisig rt programId accounts update L =
          update multisigAccount multisig L) ∨
      ∃ e, ∀ update, withSignedMultisig rt programId accounts update L =
        .error (.error e) L := by
  match accounts with
  | [] => exact .inr ⟨_, fun _ => rfl⟩
  | [m] => exact .inr ⟨_, fun _ => rfl⟩
  | m :: s :: rest =>
      have hstart : ∀ update, withSignedMultisig rt programId (m :: s :: rest) update L =
          ((liftM (Multisig.checkedDeserialize (L m.key).data) : Handler Multisig) >>=
            fun multisig => do
              assertThat (programId == (← m.owner)) MultisigError.accountOwnedByWrongProgram
              validateSigner rt s m multisig programId
              update m multisig) L := fun _ => rfl
      cases hdecode : Multisig.checkedDeserialize (L m.key).data with
      | error e =>
          refine .inr ⟨e, fun update => ?_⟩
          rw [hstart, liftM_bind_of_error hdecode]
      | ok multisig =>
          obtain ⟨hfits, hdata⟩ := Multisig.checkedDeserialize_eq_ok_iff.mp hdecode
          have hread : ∀ update, withSignedMultisig rt programId (m :: s :: rest) update L =
              ((liftM (assertThat (programId == (L m.key).owner)
                MultisigError.accountOwnedByWrongProgram) : Handler Unit) >>= fun _ =>
                  (liftM (validateSigner rt s m multisig programId) : Handler Unit) >>=
                    fun _ => update m multisig) L := by
            intro update
            rw [hstart, liftM_bind_of_ok hdecode]
            rfl
          cases howner : assertThat (programId == (L m.key).owner)
              MultisigError.accountOwnedByWrongProgram with
          | error e =>
              refine .inr ⟨e, fun update => ?_⟩
              rw [hread, liftM_bind_of_error howner]
          | ok u =>
              cases hsigner : validateSigner rt s m multisig programId with
              | error e =>
                  refine .inr ⟨e, fun update => ?_⟩
                  rw [hread, liftM_bind_of_ok howner, liftM_bind_of_error hsigner]
              | ok u =>
                  have hprogram := beq_iff_eq.mp (assertThat_eq_ok_iff.mp howner)
                  obtain ⟨hpda, hsigns⟩ := validateSigner_eq_ok_iff.mp hsigner
                  refine .inl ⟨m, s, rest, multisig, rfl,
                    ⟨hdata, hfits, hprogram.symm, hpda, hsigns⟩, fun update => ?_⟩
                  rw [hread, liftM_bind_of_ok howner, liftM_bind_of_ok hsigner]

theorem withSignedMultisig_of_signed {rest : List AccountInfo}
    (h : SignedMultisig rt programId L multisigAccount multisigSigner multisig)
    (update : AccountInfo → Multisig → Handler Unit) :
    withSignedMultisig rt programId (multisigAccount :: multisigSigner :: rest) update L =
      update multisigAccount multisig L := by
  rcases withSignedMultisig_cases rt programId (multisigAccount :: multisigSigner :: rest) L with
    ⟨m, s, rest', multisig', haccounts, hsigned, hrun⟩ | ⟨e, herror⟩
  · cases haccounts
    obtain rfl := Multisig.format.encode_injective hsigned.fits h.fits
      (hsigned.data.symm.trans h.data)
    exact hrun update
  · have hok : withSignedMultisig rt programId (multisigAccount :: multisigSigner :: rest)
        (fun _ _ => pure ()) L = .ok () L :=
      withSignedMultisig_eq_ok_iff.mpr
        ⟨multisigAccount, multisigSigner, rest, multisig, rfl, h, rfl⟩
    rw [herror] at hok
    cases hok

/-- Only what an update does to a multisig that signs is ever run. -/
theorem withSignedMultisig_congr {accounts : List AccountInfo}
    {f g : AccountInfo → Multisig → Handler Unit}
    (h : ∀ m s rest multisig, accounts = m :: s :: rest →
      SignedMultisig rt programId L m s multisig → f m multisig L = g m multisig L) :
    withSignedMultisig rt programId accounts f L =
      withSignedMultisig rt programId accounts g L := by
  rcases withSignedMultisig_cases rt programId accounts L with
    ⟨m, s, rest, multisig, haccounts, hsigned, hrun⟩ | ⟨e, hfails⟩
  · rw [hrun, hrun]
    exact h m s rest multisig haccounts hsigned
  · rw [hfails, hfails]

/-- The new value fills the new account exactly. -/
theorem initialised_of_createAndSerialize {α : Type} {f : Format α} {value : α}
    {payer : AccountInfo} {len : Nat} (hlen : (f.encode value).length = len)
    (h : createAndSerialize rt f value len payer account rt.programId L =
      .ok u L') :
    f.fits value = true ∧
      Initialised rt payer account (f.encode value) L L' := by
  obtain ⟨_, mid, hcreate, hserialize⟩ := bind_eq_ok_iff.mp h
  have hcreated := rt.accountCreated _ _ _ _ _ _ hcreate
  obtain ⟨hfits, -, rfl⟩ := serializeInto_eq_ok_iff.mp hserialize
  have hother : ∀ k, k ≠ account.key → Function.update mid account.key
      { mid account.key with data := f.encode value ++
        (mid account.key).data.drop (f.encode value).length } k = mid k :=
    fun k hk => Function.update_of_ne hk _ _
  refine ⟨hfits, hcreated.unused, hcreated.account_isSigner, ?_, ?_, ?_, ?_⟩
  · rw [Function.update_self, hcreated.apply_account]
    simp [hlen]
  · intro k hk
    rw [hother k hk]
    by_cases hp : k = payer.key
    · rw [hp, hcreated.apply_payer]
    · rw [hcreated.apply_of_ne hp hk]
  · intro k hk
    rw [hother k hk]
    by_cases hp : k = payer.key
    · rw [hp, hcreated.apply_payer]
    · rw [hcreated.apply_of_ne hp hk]
  · intro k hk howner
    rw [hother k hk]
    refine hcreated.apply_of_ne ?_ hk
    rintro rfl
    exact howner hcreated.payer_owner

/-- Only the system program touches another account. -/
theorem apply_of_createAndSerialize {α : Type} {f : Format α} {value : α}
    {payer : AccountInfo} {len : Nat}
    (h : createAndSerialize rt f value len payer account rt.programId L = .ok u L') :
    ∃ mid, AccountCreated payer account (rt.minimumBalance len) len rt.programId L mid ∧
      ∀ k, k ≠ account.key → L' k = mid k := by
  obtain ⟨_, mid, hcreate, hserialize⟩ := bind_eq_ok_iff.mp h
  obtain ⟨-, -, rfl⟩ := serializeInto_eq_ok_iff.mp hserialize
  exact ⟨mid, rt.accountCreated _ _ _ _ _ _ hcreate,
    fun k hk => Function.update_of_ne hk _ _⟩

/-- The write into a freshly created account cannot fail. -/
theorem createAndSerialize_of_created {α : Type} {f : Format α} {value : α}
    {payer : AccountInfo} {len : Nat} {mid : Ledger}
    (hlen : (f.encode value).length = len) (hfits : f.fits value = true)
    (h : rt.createAccount payer account (rt.minimumBalance len) len rt.programId L =
      .ok () mid) :
    ∃ L', createAndSerialize rt f value len payer account rt.programId L =
      .ok () L' := by
  have hcreated := rt.accountCreated _ _ _ _ _ _ h
  refine ⟨_, bind_eq_ok_iff.mpr ⟨(), mid, h,
    serializeInto_eq_ok_of_length hfits ?_⟩⟩
  rw [hcreated.apply_account, hlen]
  simp

/-- The account ends unused and the refundee has its lamports. -/
theorem closeAccount_eq_ok_iff (hne : refundee.key ≠ account.key) :
    closeAccount account refundee L = .ok u L' ↔
      (L refundee.key).lamports.toNat + (L account.key).lamports.toNat < 2 ^ 64 ∧
        L' = Function.update
          (Function.update L refundee.key { L refundee.key with
            lamports := (L refundee.key).lamports + (L account.key).lamports })
          account.key Account.unused := by
  simp only [closeAccount, AccountInfo.lamports_bind, AccountInfo.setLamports,
    AccountInfo.resize, AccountInfo.assign, AccountInfo.update_bind,
    assertPresent_bind_eq_ok_iff, checkedAdd_eq_some_iff,
    AccountInfo.update_eq_ok_iff, Function.update_of_ne hne,
    Function.update_of_ne hne.symm, Function.update_self]
  have hledger : ∀ refunded : UInt64,
      Function.update (Function.update (Function.update (Function.update L account.key
        { L account.key with lamports := 0 }) refundee.key
          { L refundee.key with lamports := refunded }) account.key
          ⟨0, (L account.key).owner, []⟩) account.key Account.unused =
        Function.update (Function.update L refundee.key
          { L refundee.key with lamports := refunded }) account.key
          Account.unused := by
    intro refunded
    rw [Function.update_idem, Function.update_comm hne.symm, Function.update_idem]
  simp only [List.take_zero, List.nil_append, Nat.zero_sub, List.replicate_zero]
  constructor
  · rintro ⟨refunded, ⟨hsum, rfl⟩, rfl⟩
    exact ⟨hsum, hledger _⟩
  · rintro ⟨hsum, rfl⟩
    exact ⟨_, ⟨hsum, rfl⟩, hledger _⟩

theorem closed_of_closeAccount (hne : refundee.key ≠ account.key)
    (h : closeAccount account refundee L = .ok u L') : Closed account refundee L L' := by
  obtain ⟨hsum, rfl⟩ := (closeAccount_eq_ok_iff hne).mp h
  refine ⟨Function.update_self _ _ _, ?_, ?_, ?_, ?_⟩
  · intro k hk
    rw [Function.update_of_ne hk]
    by_cases hr : k = refundee.key
    · subst hr
      rw [Function.update_self]
    · rw [Function.update_of_ne hr]
  · intro k hk
    rw [Function.update_of_ne hk]
    by_cases hr : k = refundee.key
    · subst hr
      rw [Function.update_self]
    · rw [Function.update_of_ne hr]
  · intro k hk
    rw [Function.update_of_ne hk]
    by_cases hr : k = refundee.key
    · subst hr
      rw [Function.update_self, UInt64.le_iff_toNat_le, UInt64.toNat_add,
        Nat.mod_eq_of_lt hsum]
      omega
    · rw [Function.update_of_ne hr]
      exact UInt64.le_refl _
  · intro k hk hr
    rw [Function.update_of_ne hk, Function.update_of_ne hr]

end Rules

end MultisigNative.Instructions
