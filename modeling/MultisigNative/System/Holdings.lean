import MultisigNative.System.Occupancy

/-!
The bytes of an occupied account are those of its occupant.  This holds as long
as each call takes accounts in the role they were created in.
-/

namespace MultisigNative.System

open Solana
open State
open Instructions
open Processor

/-- The account at `k` stores `m`, which is what the registry knows as `g`. -/
structure HoldsMultisig (rt : Runtime) (k : Pubkey) (account : Account) (g : Group)
    (m : Multisig) : Prop where
  owner : account.owner = rt.programId
  funded : 0 < account.lamports
  data : account.data = Multisig.format.encode m
  fits : Multisig.format.fits m = true
  owners : m.owners = g.owners
  nodup : g.owners.Nodup
  ne_nil : g.owners ≠ []
  capacity : 32 * m.owners.length + m.padding.length = 32 * g.capacity
  nonce : m.nonce = g.nonce
  seqno : m.ownerSetSeqno = UInt32.ofNat g.epoch
  threshold_le : m.threshold.toNat ≤ m.owners.length
  pda : ∃ p, rt.createProgramAddress [k.bytes, [g.nonce]] rt.programId = some p

structure HoldsProposal (rt : Runtime) (account : Account) (p : Proposal)
    (t : Transaction) : Prop where
  owner : account.owner = rt.programId
  funded : 0 < account.lamports
  data : account.data = Transaction.format.encode t
  fits : Transaction.format.fits t = true
  multisig : t.multisig = p.multisig
  instructions : t.instructions = p.instructions
  seqno : t.ownerSetSeqno = UInt32.ofNat p.epoch

def Holds (rt : Runtime) (k : Pubkey) (account : Account) : Occupant → Prop
  | .vacant => True
  | .multisig g => ∃ m, HoldsMultisig rt k account g m
  | .proposal p => ∃ t, HoldsProposal rt account p t

structure Held (rt : Runtime) (w : World) : Prop where
  occupied : Occupied rt w
  holds : ∀ k, Holds rt k (w.ledger k) (w.registry k)

section Holds

variable {rt : Runtime} {k : Pubkey} {account account' : Account} {g : Group}
  {m : Multisig} {p : Proposal} {t : Transaction}

theorem HoldsMultisig.eq_of_data (h : HoldsMultisig rt k account g m) {m' : Multisig}
    (hdata : account.data = Multisig.format.encode m')
    (hfits : Multisig.format.fits m' = true) : m' = m :=
  Multisig.format.encode_injective hfits h.fits (hdata.symm.trans h.data)

theorem HoldsProposal.eq_of_data (h : HoldsProposal rt account p t) {t' : Transaction}
    (hdata : account.data = Transaction.format.encode t')
    (hfits : Transaction.format.fits t' = true) : t' = t :=
  Transaction.format.encode_injective hfits h.fits (hdata.symm.trans h.data)

theorem HoldsMultisig.decodes (h : HoldsMultisig rt k account g m) :
    Multisig.checkedDeserialize account.data = .ok m :=
  Multisig.checkedDeserialize_eq_ok_iff.mpr ⟨h.fits, h.data⟩

theorem HoldsProposal.decodes (h : HoldsProposal rt account p t) :
    Transaction.checkedDeserialize account.data = .ok t :=
  Transaction.checkedDeserialize_eq_ok_iff.mpr ⟨h.fits, h.data⟩

theorem HoldsMultisig.kept (h : HoldsMultisig rt k account g m)
    (hkept : Kept rt account account') : HoldsMultisig rt k account' g m := by
  obtain ⟨howner, hdata, hle⟩ := hkept.owned h.owner h.funded
  exact { h with
    owner := howner
    funded := UInt64.lt_of_lt_of_le h.funded hle
    data := hdata.trans h.data }

theorem HoldsProposal.kept (h : HoldsProposal rt account p t)
    (hkept : Kept rt account account') : HoldsProposal rt account' p t := by
  obtain ⟨howner, hdata, hle⟩ := hkept.owned h.owner h.funded
  exact { h with
    owner := howner
    funded := UInt64.lt_of_lt_of_le h.funded hle
    data := hdata.trans h.data }

theorem Holds.kept {occupant : Occupant} (h : Holds rt k account occupant)
    (hkept : Kept rt account account') : Holds rt k account' occupant := by
  cases occupant with
  | vacant => trivial
  | multisig g =>
      rcases h with ⟨m, hm⟩
      exact ⟨m, hm.kept hkept⟩
  | proposal p =>
      rcases h with ⟨t, ht⟩
      exact ⟨t, ht.kept hkept⟩

/-- The group that a reconfiguration leaves. -/
def Event.changeGroup (g : Group) : Event → Group
  | .ownersChanged _ owners => { g with owners := owners, epoch := g.epoch + 1 }
  | _ => g

theorem HoldsMultisig.withOwners (h : HoldsMultisig rt k account g m)
    {owners : List Pubkey} (haccepted : AcceptedOwners m owners)
    (hfits : Multisig.format.fits (withOwners m owners) = true) :
    HoldsMultisig rt k
      { account with data := Multisig.format.encode (withOwners m owners) }
      { g with owners := owners, epoch := g.epoch + 1 } (withOwners m owners) where
  owner := h.owner
  funded := h.funded
  data := rfl
  fits := hfits
  owners := rfl
  nodup := haccepted.nodup
  ne_nil := haccepted.ne_nil
  capacity := (withOwners_capacity h.fits haccepted.capacity).trans h.capacity
  nonce := h.nonce
  seqno := by
    rw [withOwners_ownerSetSeqno, h.seqno]
    simp
  threshold_le := by
    rw [withOwners_threshold_toNat, withOwners_owners]
    have hmod := Nat.mod_le owners.length 256
    omega
  pda := h.pda

theorem HoldsMultisig.withThreshold (h : HoldsMultisig rt k account g m)
    {threshold : UInt8} (haccepted : AcceptedThreshold threshold m.owners) :
    HoldsMultisig rt k
      { account with data := Multisig.format.encode { m with threshold := threshold } }
      g { m with threshold := threshold } :=
  { h with
    data := rfl
    fits := by
      rw [Multisig.format_fits_iff]
      exact (Multisig.format_fits_iff m).mp h.fits
    threshold_le := Nat.le_trans haccepted.2 (Nat.mod_le _ _) }

/-- Every reconfiguration writes what the registry then expects. -/
theorem HoldsMultisig.reconfigured {key : Pubkey} {instruction : MultisigInstruction}
    {written : Multisig} {event : Event} (h : HoldsMultisig rt k account g m)
    (hchange : Reconfigures key m instruction written event)
    (hfits : Multisig.format.fits written = true) :
    HoldsMultisig rt k { account with data := Multisig.format.encode written }
      (event.changeGroup g) written := by
  cases hchange with
  | setOwners howners => exact h.withOwners howners hfits
  | changeThreshold hthreshold => exact h.withThreshold hthreshold
  | @setOwnersAndChangeThreshold data howners hthreshold =>
      have hold : Multisig.format.fits (Instructions.withOwners m data.owners) = true := by
        rw [Multisig.format_fits_iff] at hfits ⊢
        exact hfits
      exact (h.withOwners howners hold).withThreshold hthreshold

end Holds

namespace Held

variable {rt : Runtime} {w : World} (h : Held rt w)
include h

/-- An account taken as a multisig, in its role, is one. -/
theorem multisig_of_role {k : Pubkey} {m : Multisig} (hv : w.registry k ≠ .vacant)
    (hrole : (w.registry k).isProposal = false)
    (hdata : (w.ledger k).data = Multisig.format.encode m)
    (hfits : Multisig.format.fits m = true) :
    ∃ g, w.registry k = .multisig g ∧ HoldsMultisig rt k (w.ledger k) g m := by
  have hholds := h.holds k
  cases ho : w.registry k with
  | vacant => exact absurd ho hv
  | proposal p => simp [ho, Occupant.isProposal] at hrole
  | multisig g =>
      rw [ho] at hholds
      rcases hholds with ⟨m', hm'⟩
      obtain rfl := hm'.eq_of_data hdata hfits
      exact ⟨g, rfl, hm'⟩

/-- An account taken as a transaction, in its role, is one. -/
theorem proposal_of_role {k : Pubkey} {t : Transaction} (hv : w.registry k ≠ .vacant)
    (hrole : (w.registry k).isMultisig = false)
    (hdata : (w.ledger k).data = Transaction.format.encode t)
    (hfits : Transaction.format.fits t = true) :
    ∃ p, w.registry k = .proposal p ∧ HoldsProposal rt (w.ledger k) p t := by
  have hholds := h.holds k
  cases ho : w.registry k with
  | vacant => exact absurd ho hv
  | multisig g => simp [ho, Occupant.isMultisig] at hrole
  | proposal p =>
      rw [ho] at hholds
      rcases hholds with ⟨t', ht'⟩
      obtain rfl := ht'.eq_of_data hdata hfits
      exact ⟨p, rfl, ht'⟩

theorem exists_multisig {k : Pubkey} {g : Group} (hg : w.registry k = .multisig g) :
    ∃ m, HoldsMultisig rt k (w.ledger k) g m := by
  have hholds := h.holds k
  rwa [hg] at hholds

theorem exists_transaction {k : Pubkey} {p : Proposal}
    (hp : w.registry k = .proposal p) : ∃ t, HoldsProposal rt (w.ledger k) p t := by
  have hholds := h.holds k
  rwa [hp] at hholds

end Held

section Roles

variable {rt : Runtime} {r : Registry}

theorem multisig_role_of_args {instruction : MultisigInstruction}
    {accounts : List AccountInfo} {key : Pubkey}
    (hrole : argsInRole r instruction accounts = true)
    (harg : multisigArg instruction accounts = some key) :
    (r key).isProposal = false := by
  simp only [argsInRole, harg, Bool.and_eq_true, Option.all_some,
    Bool.not_eq_true'] at hrole
  exact hrole.1

theorem transaction_role_of_args {instruction : MultisigInstruction}
    {accounts : List AccountInfo} {key : Pubkey}
    (hrole : argsInRole r instruction accounts = true)
    (harg : transactionArg instruction accounts = some key) :
    (r key).isMultisig = false := by
  simp only [argsInRole, harg, Bool.and_eq_true, Option.all_some,
    Bool.not_eq_true'] at hrole
  exact hrole.2

end Roles

section Accepted

variable {rt : Runtime} {w : World} (h : Held rt w)
include h

theorem Held.configured {m s : AccountInfo} {rest : List AccountInfo}
    {multisig written : Multisig} {instruction : MultisigInstruction} {event : Event}
    (hrole : argsInRole w.registry instruction (m :: s :: rest) = true)
    (hsigned : SignedMultisig rt rt.programId w.ledger m s multisig)
    (hchange : Reconfigures m.key multisig instruction written event) :
    ∃ g, w.registry m.key = .multisig g ∧
      HoldsMultisig rt m.key (w.ledger m.key) g multisig := by
  refine h.multisig_of_role (h.occupied.signed_ne_vacant hsigned hchange) ?_
    hsigned.data hsigned.fits
  cases hchange <;> exact multisig_role_of_args hrole rfl

theorem Held.proposed {m t proposer payer system : AccountInfo}
    {rest : List AccountInfo} {data : ProposeTransactionInstruction}
    {multisig : Multisig} {i : Nat}
    (hrole : argsInRole w.registry (.proposeTransaction data)
      (m :: t :: proposer :: payer :: system :: rest) = true)
    (hvalid : ProposeTransaction.Valid rt.programId w.ledger m proposer system data
      multisig i) :
    ∃ g, w.registry m.key = .multisig g ∧
      HoldsMultisig rt m.key (w.ledger m.key) g multisig :=
  h.multisig_of_role (h.occupied.proposer_ne_vacant hvalid)
    (multisig_role_of_args hrole rfl) hvalid.data hvalid.fits

/-- A transaction and its multisig, both in their roles, are a proposal and its group. -/
theorem Held.opened {m t : Pubkey} {multisig : Multisig} {transaction : Transaction}
    (hmrole : (w.registry m).isProposal = false) (htrole : (w.registry t).isMultisig = false)
    (hopened : Opened rt.programId w.ledger m t multisig transaction) :
    ∃ g p, w.registry m = .multisig g ∧ HoldsMultisig rt m (w.ledger m) g multisig ∧
      w.registry t = .proposal p ∧ HoldsProposal rt (w.ledger t) p transaction ∧
      p.multisig = m := by
  obtain ⟨hm, ht⟩ := h.occupied.opened_ne_vacant hopened
  obtain ⟨g, hg, hmultisig⟩ := h.multisig_of_role hm hmrole hopened.multisig_data
    hopened.multisig_fits
  obtain ⟨p, hp, hproposal⟩ := h.proposal_of_role ht htrole hopened.data hopened.fits
  exact ⟨g, p, hg, hmultisig, hp, hproposal,
    hproposal.multisig.symm.trans hopened.multisig_eq⟩

theorem Held.approved {m t approver : AccountInfo} {rest : List AccountInfo}
    {multisig : Multisig} {transaction : Transaction} {i : Nat}
    (hrole : argsInRole w.registry .approveTransaction (m :: t :: approver :: rest) =
      true)
    (hvalid : ApproveTransaction.Valid rt.programId w.ledger m t approver multisig
      transaction i) :
    ∃ g p, w.registry m.key = .multisig g ∧
      HoldsMultisig rt m.key (w.ledger m.key) g multisig ∧
      w.registry t.key = .proposal p ∧
      HoldsProposal rt (w.ledger t.key) p transaction ∧ p.multisig = m.key :=
  h.opened (multisig_role_of_args hrole rfl) (transaction_role_of_args hrole rfl)
    (opened_of_approved hvalid)

theorem Held.cancelled {m t refundee executor : AccountInfo} {rest : List AccountInfo}
    {multisig : Multisig} {transaction : Transaction}
    (hrole : argsInRole w.registry .cancelTransaction
      (m :: t :: refundee :: executor :: rest) = true)
    (hvalid : CancelTransaction.Valid rt.programId w.ledger m t refundee executor
      multisig transaction) :
    ∃ g p, w.registry m.key = .multisig g ∧
      HoldsMultisig rt m.key (w.ledger m.key) g multisig ∧
      w.registry t.key = .proposal p ∧
      HoldsProposal rt (w.ledger t.key) p transaction ∧ p.multisig = m.key :=
  h.opened (multisig_role_of_args hrole rfl) (transaction_role_of_args hrole rfl)
    (opened_of_cancelled hvalid)

theorem Held.executed {accounts : List AccountInfo} {validated : ValidatedAccounts}
    {L : Ledger} (hrole : argsInRole w.registry .executeTransaction accounts = true)
    (hvalidate : ExecuteTransaction.validate rt rt.programId accounts w.ledger =
      .ok validated L) :
    ∃ g p, w.registry validated.multisigAccount.key = .multisig g ∧
      HoldsMultisig rt validated.multisigAccount.key
        (w.ledger validated.multisigAccount.key) g validated.multisig ∧
      w.registry validated.transactionAccount.key = .proposal p ∧
      HoldsProposal rt (w.ledger validated.transactionAccount.key) p
        validated.transaction ∧
      p.multisig = validated.multisigAccount.key := by
  obtain ⟨executor, rest, rfl, hvalid, rfl⟩ :=
    ExecuteTransaction.validate_eq_ok_iff.mp hvalidate
  exact h.opened (multisig_role_of_args hrole rfl) (transaction_role_of_args hrole rfl)
    (opened_of_ready hvalid.ready)

end Accepted

section Preservation

variable {rt : Runtime} {w w' : World} {label : Label rt}

theorem Held.of_initial (h : w.Initial rt) : Held rt w where
  occupied := .of_initial h
  holds k := by
    rw [h.vacant k]
    trivial

theorem holds_created {m s payer system : AccountInfo}
    {data : CreateMultisigInstruction} {L L' : Ledger}
    (hvalid : CreateMultisig.Valid rt rt.programId m s system data)
    (hfits : Multisig.format.fits (CreateMultisig.newMultisig data) = true)
    (hinit : Initialised rt payer m
      (Multisig.format.encode (CreateMultisig.newMultisig data)) L L') :
    HoldsMultisig rt m.key (L' m.key) ⟨data.owners, data.nonce, data.owners.length, 0⟩
      (CreateMultisig.newMultisig data) := by
  rw [hinit.account_eq]
  exact {
    owner := rfl
    funded := rt.minimumBalance_pos _
    data := rfl
    fits := hfits
    owners := rfl
    nodup := hvalid.nodup
    ne_nil := hvalid.owners_ne_nil
    capacity := by simp [CreateMultisig.newMultisig]
    nonce := rfl
    seqno := rfl
    threshold_le := Nat.le_trans hvalid.threshold_le (Nat.mod_le _ _)
    pda := ⟨s.key, hvalid.pda⟩ }

theorem Held.effect (h : Held rt w) (heffect : Effect rt w label w')
    (hrole : label.inRole w.registry = true) : Held rt w' := by
  refine ⟨h.occupied.effect heffect, ?_⟩
  intro k
  by_cases hk : label.subject = some k
  · cases heffect with
    | idle => cases hk
    | «foreign» hforeign => cases hk
    | started hvalidate => cases hk
    | created hvalid hfits hinit =>
        obtain rfl := Option.some.inj hk
        rw [World.registry_cons]
        simp only [Event.apply, Function.update_self]
        exact ⟨_, holds_created hvalid hfits hinit⟩
    | @configured m s rest instruction multisig written event hsigned hchange hfits =>
        obtain rfl : m.key = k := by cases hchange <;> exact Option.some.inj hk
        obtain ⟨g, hg, hholds⟩ := h.configured hrole hsigned hchange
        have hregistry : World.registry
            ⟨writeData w.ledger m.key (Multisig.format.encode written),
              event :: w.history⟩ m.key = .multisig (event.changeGroup g) := by
          rw [World.registry_cons]
          cases hchange <;> simp [Event.apply, hg, Occupant.changeOwners, Event.changeGroup]
        rw [hregistry]
        refine ⟨written, ?_⟩
        simp only [writeData_self]
        exact hholds.reconfigured hchange hfits
    | @proposed m t proposer payer system rest data multisig i L' hvalid hfits hinit =>
        obtain rfl := Option.some.inj hk
        obtain ⟨g, hg, hholds⟩ := h.proposed hrole hvalid
        rw [World.registry_cons]
        simp only [Event.apply, Function.update_self, hg, Occupant.epoch]
        refine ⟨ProposeTransaction.newTransaction m.key multisig i data, ?_⟩
        rw [hinit.account_eq]
        exact ⟨rfl, rt.minimumBalance_pos _, rfl, hfits, rfl, rfl, hholds.seqno⟩
    | @approved m t approver rest multisig transaction i hvalid =>
        obtain rfl := Option.some.inj hk
        obtain ⟨g, p, -, -, hp, hproposal, -⟩ := h.approved hrole hvalid
        rw [World.registry_cons]
        simp only [Event.apply, Function.update_self, hp, Occupant.approve,
          writeData_self]
        refine ⟨withSigner transaction i, ?_⟩
        exact { hproposal with
          data := rfl
          fits := by rw [withSigner_fits, hproposal.fits] }
    | cancelled hvalid hclose =>
        obtain rfl := Option.some.inj hk
        rw [World.registry_cons]
        simp only [Event.apply, Function.update_self]
        trivial
    | closed hclose howner =>
        obtain rfl := Option.some.inj hk
        rw [World.registry_cons]
        simp only [Event.apply, Function.update_self]
        trivial
  · obtain ⟨hkept, hsame, -⟩ := heffect.frame hk
    rw [hsame]
    exact (h.holds k).kept hkept

end Preservation

end MultisigNative.System
