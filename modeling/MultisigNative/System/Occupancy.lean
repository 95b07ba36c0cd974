import MultisigNative.System.Effect

/-!
What holds in every run, whoever calls with whichever accounts: occupied
addresses belong to the program, and what the program owns at any other address
is still as the system program handed it over, all zeros.  No handler accepts
such zeros.
-/

namespace MultisigNative.System

open Library.Borsh
open Solana
open State
open Instructions
open Processor

/-- The worlds a run starts in. -/
structure World.Initial (rt : Runtime) (w : World) : Prop where
  history : w.history = []
  zeroed : ∀ k, (w.ledger k).owner = rt.programId → Zeroed (w.ledger k)
  system_ne_program : (w.ledger systemProgram).owner ≠ rt.programId
  system_ne_system : (w.ledger systemProgram).owner ≠ systemProgram

theorem World.Initial.vacant {rt : Runtime} {w : World} (h : w.Initial rt) (k : Pubkey) :
    w.registry k = .vacant := by
  rw [World.registry, h.history]
  rfl

def Occupies (rt : Runtime) (account : Account) : Occupant → Prop
  | .vacant => account.owner = rt.programId → Zeroed account
  | _ => account.owner = rt.programId ∧ 0 < account.lamports

structure Occupied (rt : Runtime) (w : World) : Prop where
  system_ne_program : (w.ledger systemProgram).owner ≠ rt.programId
  system_ne_system : (w.ledger systemProgram).owner ≠ systemProgram
  occupies : ∀ k, Occupies rt (w.ledger k) (w.registry k)

section Occupies

variable {rt : Runtime} {account account' : Account} {occupant : Occupant}

theorem occupies_of_ne_vacant (h : occupant ≠ .vacant) :
    Occupies rt account occupant ↔
      account.owner = rt.programId ∧ 0 < account.lamports := by
  cases occupant with
  | vacant => exact absurd rfl h
  | multisig g => rfl
  | proposal p => rfl

theorem Occupies.kept (h : Occupies rt account occupant)
    (hkept : Kept rt account account') : Occupies rt account' occupant := by
  by_cases hv : occupant = .vacant
  · subst hv
    exact hkept.zeroed h
  · rw [occupies_of_ne_vacant hv] at h ⊢
    obtain ⟨howner, -, hle⟩ := hkept.owned h.1 h.2
    exact ⟨howner, UInt64.lt_of_lt_of_le h.2 hle⟩

end Occupies

namespace Occupied

variable {rt : Runtime} {w : World}

theorem of_initial (h : w.Initial rt) : Occupied rt w where
  system_ne_program := h.system_ne_program
  system_ne_system := h.system_ne_system
  occupies k := by
    rw [h.vacant k]
    exact h.zeroed k

theorem zeroed (h : Occupied rt w) {k : Pubkey} (hk : w.registry k = .vacant)
    (howner : (w.ledger k).owner = rt.programId) : Zeroed (w.ledger k) := by
  have hoccupies := h.occupies k
  rw [hk] at hoccupies
  exact hoccupies howner

theorem vacant_of_unused (h : Occupied rt w) {k : Pubkey}
    (hk : w.ledger k = Account.unused) : w.registry k = .vacant := by
  by_contra hv
  have howner := ((occupies_of_ne_vacant hv).mp (h.occupies k)).1
  rw [hk] at howner
  exact rt.programId_ne howner.symm

/-- What decodes as a multisig with room for owners was not handed over by the
system program. -/
theorem ne_vacant_of_multisig (h : Occupied rt w) {k : Pubkey} {m : Multisig}
    (howner : (w.ledger k).owner = rt.programId)
    (hdata : (w.ledger k).data = Multisig.format.encode m)
    (hfits : Multisig.format.fits m = true)
    (hroom : 0 < m.owners.length + m.padding.length) : w.registry k ≠ .vacant := by
  intro hk
  have hzeros := h.zeroed hk howner
  rw [Zeroed, hdata] at hzeros
  obtain ⟨howners, hpadding⟩ := Multisig.owners_eq_nil_of_zeros hfits hzeros
  rw [howners, hpadding] at hroom
  exact absurd hroom (by decide)

/-- What decodes as a transaction of one of the program's accounts was not
handed over by the system program. -/
theorem ne_vacant_of_transaction (h : Occupied rt w) {k : Pubkey} {t : Transaction}
    (howner : (w.ledger k).owner = rt.programId)
    (hdata : (w.ledger k).data = Transaction.format.encode t)
    (hmultisig : (w.ledger t.multisig).owner = rt.programId) :
    w.registry k ≠ .vacant := by
  intro hk
  have hzeros := h.zeroed hk howner
  rw [Zeroed, hdata] at hzeros
  rw [Transaction.multisig_eq_of_zeros hzeros] at hmultisig
  exact h.system_ne_program hmultisig

end Occupied

/-- A multisig and a transaction of it, as approvals, executions and cancellations find
them. -/
structure Opened (programId : Pubkey) (L : Ledger) (m t : Pubkey) (multisig : Multisig)
    (transaction : Transaction) : Prop where
  multisig_owner : (L m).owner = programId
  owner : (L t).owner = programId
  multisig_fits : Multisig.format.fits multisig = true
  multisig_data : (L m).data = Multisig.format.encode multisig
  fits : Transaction.format.fits transaction = true
  data : (L t).data = Transaction.format.encode transaction
  multisig_eq : transaction.multisig = m
  owners_ne_nil : multisig.owners ≠ []

section Opened

variable {rt : Runtime} {programId : Pubkey} {L : Ledger} {multisig : Multisig}
  {transaction : Transaction}

theorem opened_of_approved {m t approver : AccountInfo} {i : Nat}
    (h : ApproveTransaction.Valid programId L m t approver multisig transaction i) :
    Opened programId L m.key t.key multisig transaction where
  multisig_owner := h.multisig_owner
  owner := h.owner
  multisig_fits := h.multisig_fits
  multisig_data := h.multisig_data
  fits := h.fits
  data := h.data
  multisig_eq := h.multisig_eq
  owners_ne_nil := List.ne_nil_of_mem
    (List.mem_of_getElem? (ownerPosition_eq_some_iff.mp h.position).1)

theorem opened_of_cancelled {m t refundee executor : AccountInfo}
    (h : CancelTransaction.Valid programId L m t refundee executor multisig transaction) :
    Opened programId L m.key t.key multisig transaction where
  multisig_owner := h.multisig_owner
  owner := h.owner
  multisig_fits := h.multisig_fits
  multisig_data := h.multisig_data
  fits := h.fits
  data := h.data
  multisig_eq := h.multisig_eq
  owners_ne_nil := List.ne_nil_of_mem h.executor_mem

theorem opened_of_ready {validated : ValidatedAccounts} {executor : AccountInfo}
    (h : ExecuteTransaction.Ready rt programId L validated executor) :
    Opened programId L validated.multisigAccount.key validated.transactionAccount.key
      validated.multisig validated.transaction where
  multisig_owner := h.multisig_owner
  owner := h.owner
  multisig_fits := h.multisig_fits
  multisig_data := h.multisig_data
  fits := h.fits
  data := h.data
  multisig_eq := h.multisig_eq
  owners_ne_nil := List.ne_nil_of_mem h.executor_mem

end Opened

theorem Reconfigures.room {key : Pubkey} {multisig written : Multisig}
    {instruction : MultisigInstruction} {event : Event}
    (h : Reconfigures key multisig instruction written event) :
    0 < multisig.owners.length + multisig.padding.length := by
  have hroom : ∀ {owners : List Pubkey}, AcceptedOwners multisig owners →
      0 < multisig.owners.length + multisig.padding.length := by
    intro owners haccepted
    have hpos := List.length_pos_iff.mpr haccepted.ne_nil
    have hle := haccepted.capacity
    omega
  cases h with
  | setOwners howners => exact hroom howners
  | changeThreshold hthreshold =>
      rcases hthreshold with ⟨hpos, hle⟩
      have hmod := Nat.mod_le multisig.owners.length 256
      omega
  | setOwnersAndChangeThreshold howners hthreshold => exact hroom howners

section Accepted

variable {rt : Runtime} {w : World} (h : Occupied rt w)
include h

theorem Occupied.signed_ne_vacant {m s : AccountInfo} {multisig written : Multisig}
    {instruction : MultisigInstruction} {event : Event}
    (hsigned : SignedMultisig rt rt.programId w.ledger m s multisig)
    (hchange : Reconfigures m.key multisig instruction written event) :
    w.registry m.key ≠ .vacant :=
  h.ne_vacant_of_multisig hsigned.owner hsigned.data hsigned.fits hchange.room

theorem Occupied.proposer_ne_vacant {m proposer system : AccountInfo}
    {data : ProposeTransactionInstruction} {multisig : Multisig} {i : Nat}
    (hvalid : ProposeTransaction.Valid rt.programId w.ledger m proposer system data
      multisig i) : w.registry m.key ≠ .vacant := by
  have hlt := hvalid.ownerIndex_lt
  exact h.ne_vacant_of_multisig hvalid.owner hvalid.data hvalid.fits (by omega)

/-- Neither account is as the system program handed it over. -/
theorem Occupied.opened_ne_vacant {m t : Pubkey} {multisig : Multisig}
    {transaction : Transaction}
    (hopened : Opened rt.programId w.ledger m t multisig transaction) :
    w.registry m ≠ .vacant ∧ w.registry t ≠ .vacant := by
  have hpos := List.length_pos_iff.mpr hopened.owners_ne_nil
  constructor
  · exact h.ne_vacant_of_multisig hopened.multisig_owner hopened.multisig_data
      hopened.multisig_fits (by omega)
  · refine h.ne_vacant_of_transaction hopened.owner hopened.data ?_
    rw [hopened.multisig_eq]
    exact hopened.multisig_owner

theorem Occupied.approved_ne_vacant {m t approver : AccountInfo} {multisig : Multisig}
    {transaction : Transaction} {i : Nat}
    (hvalid : ApproveTransaction.Valid rt.programId w.ledger m t approver multisig
      transaction i) : w.registry m.key ≠ .vacant ∧ w.registry t.key ≠ .vacant :=
  h.opened_ne_vacant (opened_of_approved hvalid)

theorem Occupied.cancelled_ne_vacant {m t refundee executor : AccountInfo}
    {multisig : Multisig} {transaction : Transaction}
    (hvalid : CancelTransaction.Valid rt.programId w.ledger m t refundee executor
      multisig transaction) :
    w.registry m.key ≠ .vacant ∧ w.registry t.key ≠ .vacant :=
  h.opened_ne_vacant (opened_of_cancelled hvalid)

theorem Occupied.executed_ne_vacant {validated : ValidatedAccounts}
    {executor : AccountInfo}
    (hvalid : ExecuteTransaction.Valid rt rt.programId w.ledger validated executor) :
    w.registry validated.multisigAccount.key ≠ .vacant ∧
      w.registry validated.transactionAccount.key ≠ .vacant :=
  h.opened_ne_vacant (opened_of_ready hvalid.ready)

end Accepted

section Preservation

variable {rt : Runtime} {w w' : World} {label : Label rt}

/-- A step is about an account of the program or about an unused one. -/
theorem Effect.subject_owner (h : Effect rt w label w') {k : Pubkey}
    (hk : label.subject = some k) :
    (w.ledger k).owner = rt.programId ∨ w.ledger k = Account.unused := by
  cases h with
  | idle => cases hk
  | «foreign» hforeign => cases hk
  | started hvalidate => cases hk
  | created hvalid hfits hinit =>
      obtain rfl := Option.some.inj hk
      exact .inr hinit.unused
  | configured hsigned hchange hfits =>
      cases hchange <;> cases hk <;> exact .inl hsigned.owner
  | proposed hvalid hfits hinit =>
      obtain rfl := Option.some.inj hk
      exact .inr hinit.unused
  | approved hvalid =>
      obtain rfl := Option.some.inj hk
      exact .inl hvalid.owner
  | cancelled hvalid hclose =>
      obtain rfl := Option.some.inj hk
      exact .inl hvalid.owner
  | closed hclose howner =>
      obtain rfl := Option.some.inj hk
      exact howner

theorem Occupied.subject_ne_system (hoccupied : Occupied rt w)
    (h : Effect rt w label w') : label.subject ≠ some systemProgram := by
  intro hk
  rcases h.subject_owner hk with howner | hunused
  · exact hoccupied.system_ne_program howner
  · exact hoccupied.system_ne_system (congrArg Account.owner hunused)

theorem Occupied.effect (hoccupied : Occupied rt w) (h : Effect rt w label w') :
    Occupied rt w' := by
  have hsystem := (h.frame (hoccupied.subject_ne_system h)).2.2 rfl
  refine ⟨hsystem ▸ hoccupied.system_ne_program, hsystem ▸ hoccupied.system_ne_system, ?_⟩
  intro k
  by_cases hk : label.subject = some k
  · have hkeep : ∀ {k : Pubkey} {data : Bytes} {occupant : Occupant},
        w.registry k ≠ .vacant → occupant ≠ .vacant →
        Occupies rt (writeData w.ledger k data k) occupant := by
      intro k data occupant hv hv'
      rw [writeData_self, occupies_of_ne_vacant hv']
      have howned := (occupies_of_ne_vacant hv).mp (hoccupied.occupies k)
      exact howned
    have hnew : ∀ {payer account : AccountInfo} {data : Bytes} {L' : Ledger}
        {occupant : Occupant}, Initialised rt payer account data w.ledger L' →
        occupant ≠ .vacant → Occupies rt (L' account.key) occupant := by
      intro payer account data L' occupant hinit hv
      rw [occupies_of_ne_vacant hv, hinit.account_eq]
      exact ⟨rfl, rt.minimumBalance_pos _⟩
    have hgone : ∀ {account refundee : AccountInfo} {L' : Ledger},
        Closed account refundee w.ledger L' →
        Occupies rt (L' account.key) .vacant := by
      intro account refundee L' hclose _
      rw [hclose.account_eq]
      exact zeroed_of_nil rfl
    cases h with
    | idle => cases hk
    | «foreign» hforeign => cases hk
    | started hvalidate => cases hk
    | created hvalid hfits hinit =>
        obtain rfl := Option.some.inj hk
        refine hnew hinit ?_
        simp [World.registry_cons, Event.apply]
    | @configured m s rest instruction multisig written event hsigned hchange hfits =>
        have hv := hoccupied.signed_ne_vacant hsigned hchange
        obtain rfl : m.key = k := by cases hchange <;> exact Option.some.inj hk
        refine hkeep hv ?_
        have howners : ∀ owners, (w.registry m.key).changeOwners owners ≠ .vacant := by
          intro owners
          cases ho : w.registry m.key with
          | vacant => exact absurd ho hv
          | multisig g => simp [Occupant.changeOwners]
          | proposal p => simp [Occupant.changeOwners]
        cases hchange with
        | setOwners => simpa [World.registry_cons, Event.apply] using howners _
        | changeThreshold => exact hv
        | setOwnersAndChangeThreshold =>
            simpa [World.registry_cons, Event.apply] using howners _
    | proposed hvalid hfits hinit =>
        obtain rfl := Option.some.inj hk
        refine hnew hinit ?_
        simp [World.registry_cons, Event.apply]
    | @approved m t approver rest multisig transaction i hvalid =>
        obtain rfl := Option.some.inj hk
        have hv := (hoccupied.approved_ne_vacant hvalid).2
        refine hkeep hv ?_
        rw [World.registry_cons]
        simp only [Event.apply, Function.update_self]
        cases ho : w.registry t.key with
        | vacant => exact absurd ho hv
        | multisig g => simp [Occupant.approve]
        | proposal p => simp [Occupant.approve]
    | cancelled hvalid hclose =>
        obtain rfl := Option.some.inj hk
        simpa [World.registry_cons, Event.apply] using hgone hclose
    | closed hclose howner =>
        obtain rfl := Option.some.inj hk
        simpa [World.registry_cons, Event.apply] using hgone hclose
  · obtain ⟨hkept, hsame, -⟩ := h.frame hk
    rw [hsame]
    exact (hoccupied.occupies k).kept hkept

theorem Occupied.perform (hoccupied : Occupied rt w)
    (h : perform rt w label = some w') : Occupied rt w' :=
  hoccupied.effect (perform_effect h)

end Preservation

end MultisigNative.System
