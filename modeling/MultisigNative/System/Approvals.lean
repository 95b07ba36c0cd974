import MultisigNative.Library.Roster
import MultisigNative.Library.Transition
import MultisigNative.System.Holdings

/-!
The worlds represent the abstract registry: in runs that take accounts in their
roles and close no multisig every successful step is an enabled event, and a flag
that is set in an open proposal of the current owners was set by the owner in its
position.
-/

namespace MultisigNative.System

open Library.Roster
open Library.Transition
open Solana
open State
open Instructions

structure Endorsed (g : Group) (p : Proposal) (t : Transaction) : Prop where
  length_eq : t.signers.length = g.owners.length
  signed : ∀ i : Nat, t.signers[i]? = some true →
    ∃ key, g.owners[i]? = some key ∧ key ∈ p.approvals

/-- Proposals of an earlier epoch are left out: their flags count for nothing. -/
def Backed (w : World) : Prop :=
  ∀ k p g t, w.registry k = .proposal p → w.registry p.multisig = .multisig g →
    p.epoch = g.epoch → Transaction.format.fits t = true →
    (w.ledger k).data = Transaction.format.encode t → Endorsed g p t

structure Represents (rt : Runtime) (w : World) : Prop where
  held : Held rt w
  lawful : Lawful w.history
  backed : Backed w

variable {rt : Runtime} {w w' : World} {label : Label rt}

theorem mem_signersOf {accounts : List AccountInfo} {info : AccountInfo}
    (hmem : info ∈ accounts) (hsigner : info.isSigner = true) :
    info.key ∈ signersOf accounts := by
  apply List.mem_map_of_mem
  exact List.mem_filter.mpr ⟨hmem, hsigner⟩

theorem Represents.of_initial (h : w.Initial rt) : Represents rt w where
  held := .of_initial h
  lawful := by
    rw [h.history]
    trivial
  backed := by
    intro k p g t hp
    rw [h.vacant k] at hp
    cases hp

/-- Such a step leaves the history as it is or adds one enabled event. -/
theorem Held.enabled (h : Held rt w) (heffect : Effect rt w label w')
    (hrole : label.keepsRoles w.registry = true) :
    w'.history = w.history ∨
      ∃ event, w'.history = event :: w.history ∧ event.enabled w.registry := by
  have hargs := Label.inRole_of_keepsRoles hrole
  cases heffect with
  | idle => exact .inl rfl
  | «foreign» hforeign => exact .inl rfl
  | started hvalidate => exact .inl rfl
  | created hvalid hfits hinit =>
      exact .inr ⟨_, rfl, h.occupied.vacant_of_unused hinit.unused⟩
  | configured hsigned hchange hfits =>
      obtain ⟨g, hg, -⟩ := h.configured hargs hsigned hchange
      refine .inr ⟨_, rfl, ?_⟩
      cases hchange <;> simp [Event.enabled, hg, Occupant.isMultisig]
  | proposed hvalid hfits hinit =>
      obtain ⟨g, hg, -⟩ := h.proposed hargs hvalid
      refine .inr ⟨_, rfl, ?_, h.occupied.vacant_of_unused hinit.unused⟩
      rw [hg, Occupant.isMultisig]
  | approved hvalid =>
      obtain ⟨g, p, -, -, hp, -, hm⟩ := h.approved hargs hvalid
      exact .inr ⟨_, rfl, p, hp, hm⟩
  | cancelled hvalid hclose =>
      obtain ⟨g, p, -, -, hp, -, hm⟩ := h.cancelled hargs hvalid
      exact .inr ⟨_, rfl, p, hp, hm⟩
  | closed hclose howner =>
      refine .inr ⟨_, rfl, ?_⟩
      simpa [Event.enabled] using hrole

/-- The group at an address stays; it changes only with its epoch. -/
theorem Held.group_kept (h : Held rt w) (heffect : Effect rt w label w')
    (hrole : label.keepsRoles w.registry = true) {m : Pubkey} {g : Group}
    (hg : w.registry m = .multisig g) :
    ∃ g', w'.registry m = .multisig g' ∧ g'.nonce = g.nonce ∧
      g.epoch ≤ g'.epoch ∧ (g'.epoch = g.epoch → g' = g) := by
  rcases h.enabled heffect hrole with hsame | ⟨event, hhistory, henabled⟩
  · refine ⟨g, ?_, rfl, Nat.le_refl _, fun _ => rfl⟩
    rw [World.registry, hsame]
    exact hg
  · obtain ⟨g', hg', hnonce, -, hle, hchanged, hkept⟩ :=
      multisig_of_enabled w.history.length henabled hg
    refine ⟨g', ?_, hnonce, hle, ?_⟩
    · rw [World.registry, hhistory]
      exact hg'
    · intro hepoch
      cases hc : event.changesOwnersOf m with
      | true =>
          have hsucc := hchanged hc
          omega
      | false => exact hkept hc

/-- A step keeps the account of a multisig, or it is a configuring call that was
signed for by the multisig's address. -/
theorem Held.multisig_step (h : Held rt w) (heffect : Effect rt w label w')
    (hrole : label.keepsRoles w.registry = true) {k : Pubkey} {g : Group} {multisig : Multisig}
    (hg : w.registry k = .multisig g)
    (hholds : HoldsMultisig rt k (w.ledger k) g multisig) :
    (label.subject ≠ some k ∧ Kept rt (w.ledger k) (w'.ledger k) ∧
        ownerChanges k w'.history = ownerChanges k w.history) ∨
      ∃ m s rest instruction written event,
        label = .call instruction (m :: s :: rest) ∧ m.key = k ∧
        SignedMultisig rt rt.programId w.ledger m s multisig ∧
        Reconfigures k multisig instruction written event ∧
        Multisig.format.fits written = true ∧
        w' = ⟨writeData w.ledger k (Multisig.format.encode written),
          event :: w.history⟩ := by
  have hargs := Label.inRole_of_keepsRoles hrole
  by_cases hk : label.subject = some k
  · right
    cases heffect with
    | idle => cases hk
    | «foreign» hforeign => cases hk
    | started hvalidate => cases hk
    | created hvalid hfits hinit =>
        obtain rfl := Option.some.inj hk
        rw [h.occupied.vacant_of_unused hinit.unused] at hg
        cases hg
    | @configured m s rest instruction multisig' written event hsigned hchange hfits =>
        obtain rfl : m.key = k := by cases hchange <;> exact Option.some.inj hk
        obtain rfl := hholds.eq_of_data hsigned.data hsigned.fits
        exact ⟨m, s, rest, instruction, written, event, rfl, rfl, hsigned, hchange, hfits,
          rfl⟩
    | proposed hvalid hfits hinit =>
        obtain rfl := Option.some.inj hk
        rw [h.occupied.vacant_of_unused hinit.unused] at hg
        cases hg
    | approved hvalid =>
        obtain rfl := Option.some.inj hk
        obtain ⟨_, p, -, -, hp, -⟩ := h.approved hargs hvalid
        rw [hp] at hg
        cases hg
    | cancelled hvalid hclose =>
        obtain rfl := Option.some.inj hk
        obtain ⟨_, p, -, -, hp, -⟩ := h.cancelled hargs hvalid
        rw [hp] at hg
        cases hg
    | closed hclose howner =>
        obtain rfl := Option.some.inj hk
        simp [hg, Occupant.isMultisig] at hrole
  · left
    refine ⟨hk, (heffect.frame hk).1, ?_⟩
    cases heffect with
    | @configured m s rest instruction multisig' written event hsigned hchange hfits =>
        have hne : m.key ≠ k := by
          rintro rfl
          cases hchange <;> exact hk rfl
        cases hchange <;> simp [ownerChanges, Event.changesOwnersOf, hne]
    | _ => simp [ownerChanges, Event.changesOwnersOf]

section NewFlags

/-- The only flag of a new proposal is its proposer's. -/
theorem endorsed_proposed {g : Group} {m : Pubkey} {multisig : Multisig} {i birth : Nat}
    {proposer : Pubkey} {signers : List Pubkey} {data : ProposeTransactionInstruction}
    (howners : multisig.owners = g.owners)
    (hposition : ownerPosition multisig.owners proposer = some i)
    (hsigned : proposer ∈ signers) :
    Endorsed g ⟨m, data.instructions, g.epoch, birth, signers⟩
      (ProposeTransaction.newTransaction m multisig i data) := by
  constructor
  · simp [ProposeTransaction.newTransaction, howners]
  · intro j hj
    simp only [ProposeTransaction.newTransaction, List.getElem?_set,
      List.getElem?_replicate] at hj
    split at hj
    · rename_i hij
      subst hij
      rw [← howners]
      exact ⟨proposer, (ownerPosition_eq_some_iff.mp hposition).1, hsigned⟩
    · simp at hj

theorem Endorsed.approve {g : Group} {p : Proposal} {t : Transaction}
    (h : Endorsed g p t) {approver : Pubkey} {signers : List Pubkey} {i : Nat}
    (hposition : ownerPosition g.owners approver = some i) (hsigned : approver ∈ signers) :
    Endorsed g { p with approvals := signers ++ p.approvals } (withSigner t i) := by
  constructor
  · simp [withSigner, h.length_eq]
  · intro j hj
    simp only [withSigner, List.getElem?_set] at hj
    split at hj
    · rename_i hij
      subst hij
      exact ⟨approver, (ownerPosition_eq_some_iff.mp hposition).1,
        List.mem_append_left _ hsigned⟩
    · obtain ⟨key, hkey, hmem⟩ := h.signed j hj
      exact ⟨key, hkey, List.mem_append_right _ hmem⟩

end NewFlags

namespace Represents

theorem backed_effect (h : Represents rt w) (heffect : Effect rt w label w')
    (hrole : label.keepsRoles w.registry = true) : Backed w' := by
  have hargs := Label.inRole_of_keepsRoles hrole
  intro k p g t hp hg hepoch hfits hdata
  by_cases hk : label.subject = some k
  · cases heffect with
    | idle => cases hk
    | «foreign» hforeign => cases hk
    | started hvalidate => cases hk
    | created hvalid hfits hinit =>
        obtain rfl := Option.some.inj hk
        simp [World.registry_cons, Event.apply] at hp
    | @configured m s rest instruction multisig written event hsigned hchange hfits =>
        obtain rfl : m.key = k := by cases hchange <;> exact Option.some.inj hk
        obtain ⟨g₀, hg₀, -⟩ := h.held.configured hargs hsigned hchange
        rw [World.registry_cons] at hp
        cases hchange <;> simp [Event.apply, hg₀, Occupant.changeOwners] at hp
    | @proposed m t' proposer payer system rest data multisig i L' hvalid hfits' hinit =>
        obtain rfl := Option.some.inj hk
        obtain ⟨g₀, hg₀, hholds⟩ := h.held.proposed hargs hvalid
        have hne : m.key ≠ t'.key := by
          intro heq
          have hvacant := h.held.occupied.vacant_of_unused hinit.unused
          rw [← heq, hg₀] at hvacant
          cases hvacant
        rw [World.registry_cons] at hp hg
        simp only [Event.apply, Function.update_self, hg₀, Occupant.epoch,
          Occupant.proposal.injEq] at hp
        subst hp
        simp only [Event.apply, Function.update_of_ne hne, hg₀,
          Occupant.multisig.injEq] at hg
        subst hg
        simp only [hinit.account_eq] at hdata
        obtain rfl := Transaction.format.encode_injective hfits' hfits hdata
        refine endorsed_proposed hholds.owners hvalid.position
          (mem_signersOf ?_ hvalid.isSigner)
        simp
    | @approved m t' approver rest multisig transaction i hvalid =>
        obtain rfl := Option.some.inj hk
        obtain ⟨g₀, p₀, hg₀, hholds, hp₀, hproposal, hm⟩ := h.held.approved hargs hvalid
        have hne : m.key ≠ t'.key := by
          intro heq
          rw [heq, hp₀] at hg₀
          cases hg₀
        rw [World.registry_cons] at hp hg
        simp only [Event.apply, Function.update_self, hp₀, Occupant.approve,
          Occupant.proposal.injEq] at hp
        subst hp
        simp only [hm, Event.apply, Function.update_of_ne hne, hg₀,
          Occupant.multisig.injEq] at hg
        subst hg
        simp only [writeData_self] at hdata
        have hfits' : Transaction.format.fits (withSigner transaction i) = true := by
          rw [withSigner_fits]
          exact hproposal.fits
        obtain rfl := Transaction.format.encode_injective hfits' hfits hdata
        have hold := h.backed t'.key p₀ g₀ transaction hp₀ (by rw [hm, hg₀]) hepoch
          hproposal.fits hproposal.data
        refine hold.approve ?_ (mem_signersOf ?_ hvalid.isSigner)
        · rw [← hholds.owners]
          exact hvalid.position
        · simp
    | cancelled hvalid hclose =>
        obtain rfl := Option.some.inj hk
        simp [World.registry_cons, Event.apply] at hp
    | closed hclose howner =>
        obtain rfl := Option.some.inj hk
        simp [World.registry_cons, Event.apply] at hp
  · obtain ⟨hkept, hsame, -⟩ := heffect.frame hk
    rw [hsame] at hp
    obtain ⟨t₀, hproposal⟩ := h.held.exists_transaction hp
    obtain ⟨-, hdata', -⟩ := hkept.owned hproposal.owner hproposal.funded
    rw [hdata'] at hdata
    obtain ⟨g₀, hg₀, hle⟩ := group_of_proposal h.lawful hp
    obtain ⟨g', hg', -, hle', hkeep⟩ := h.held.group_kept heffect hrole hg₀
    rw [hg] at hg'
    obtain rfl := Occupant.multisig.inj hg'
    obtain rfl := hkeep (by omega)
    exact h.backed k p g t hp hg₀ hepoch hfits hdata

/-- Each such step of the program is a step of the registry. -/
theorem effect (h : Represents rt w) (heffect : Effect rt w label w')
    (hrole : label.keepsRoles w.registry = true) : Represents rt w' where
  held := h.held.effect heffect (Label.inRole_of_keepsRoles hrole)
  lawful := by
    rcases h.held.enabled heffect hrole with hsame | ⟨event, hhistory, henabled⟩
    · rw [hsame]
      exact h.lawful
    · rw [hhistory]
      exact lawful_cons.mpr ⟨henabled, h.lawful⟩
  backed := h.backed_effect heffect hrole

end Represents

/-- The worlds of the runs in which each call takes every account in its role. -/
def InRoleWorld (rt : Runtime) : World → Prop :=
  Reachable (World.Initial rt) (perform rt) fun w label => label.inRole w.registry = true

theorem held_of_inRole (h : InRoleWorld rt w) : Held rt w := by
  refine Reachable.invariant (I := Held rt) (fun _ => .of_initial) ?_ h
  intro w label w' _ hheld hrole hperform
  exact hheld.effect (perform_effect hperform) hrole

/-- Those of the runs in which, moreover, no execution closes a multisig at its end. -/
def RolesKeptWorld (rt : Runtime) : World → Prop :=
  Reachable (World.Initial rt) (perform rt) fun w label => label.keepsRoles w.registry = true

theorem RolesKeptWorld.inRole (h : RolesKeptWorld rt w) : InRoleWorld rt w :=
  h.mono fun _ _ => Label.inRole_of_keepsRoles

theorem represents_of_rolesKept (h : RolesKeptWorld rt w) : Represents rt w := by
  refine Reachable.invariant (I := Represents rt) (fun _ => .of_initial) ?_ h
  intro w label w' _ hrepresents hrole hperform
  exact hrepresents.effect (perform_effect hperform) hrole

/-- Below 2 ^ 32 the counter of the code is the epoch. -/
theorem epoch_eq_of_seqno_eq {g : Group} {p : Proposal} {multisig : Multisig}
    {transaction : Transaction} (hmultisig : multisig.ownerSetSeqno = UInt32.ofNat g.epoch)
    (htransaction : transaction.ownerSetSeqno = UInt32.ofNat p.epoch)
    (hseqno : multisig.ownerSetSeqno = transaction.ownerSetSeqno)
    (hbound : g.epoch < 2 ^ 32) (hproposal : p.epoch < 2 ^ 32) : p.epoch = g.epoch := by
  rw [hmultisig, htransaction] at hseqno
  have htoNat := congrArg UInt32.toNat hseqno
  rw [UInt32.toNat_ofNat', UInt32.toNat_ofNat', Nat.mod_eq_of_lt hbound,
    Nat.mod_eq_of_lt hproposal] at htoNat
  exact htoNat.symm

/-- As long as the counter has not wrapped, an open proposal with the counter of its
multisig is endorsed by the present owners. -/
theorem Represents.endorsed (h : Represents rt w) {m t : Pubkey} {g : Group} {p : Proposal}
    {multisig : Multisig} {transaction : Transaction} (hg : w.registry m = .multisig g)
    (hmultisig : HoldsMultisig rt m (w.ledger m) g multisig)
    (hp : w.registry t = .proposal p) (hproposal : HoldsProposal rt (w.ledger t) p transaction)
    (hm : p.multisig = m) (hseqno : multisig.ownerSetSeqno = transaction.ownerSetSeqno)
    (hfew : ownerChanges m w.history < 2 ^ 32) : Endorsed g p transaction := by
  have hle := epoch_le_of_proposal h.lawful hp hm hg
  have hbound := Nat.lt_of_le_of_lt (epoch_le_ownerChanges hg) hfew
  have hepoch := epoch_eq_of_seqno_eq hmultisig.seqno hproposal.seqno hseqno hbound
    (Nat.lt_of_le_of_lt hle hbound)
  exact h.backed t p g transaction hp (hm ▸ hg) hepoch hproposal.fits hproposal.data

/-- What the flags of an accepted execution stand for: enough distinct owners,
each of whom signed the proposal or an approval. -/
theorem Represents.quorum (h : Represents rt w) {accounts : List AccountInfo}
    {validated : ValidatedAccounts} {L : Ledger}
    (hrole : argsInRole w.registry .executeTransaction accounts = true)
    (hvalidate : ExecuteTransaction.validate rt rt.programId accounts w.ledger =
      .ok validated L)
    (hfew : ownerChanges validated.multisigAccount.key w.history < 2 ^ 32) :
    ∃ S : List Pubkey, S.Nodup ∧ validated.multisig.threshold.toNat ≤ S.length ∧
      (∀ key ∈ S, key ∈ validated.multisig.owners) ∧
      ∀ key ∈ S, key ∈ supporters validated.transactionAccount.key w.history := by
  obtain ⟨g, p, hg, hmultisig, hp, hproposal, hm⟩ := h.held.executed hrole hvalidate
  obtain ⟨executor, rest, -, hvalid, -⟩ :=
    ExecuteTransaction.validate_eq_ok_iff.mp hvalidate
  have hendorsed := h.endorsed hg hmultisig hp hproposal hm hvalid.seqno hfew
  have hlen : validated.transaction.signers.length = g.owners.length :=
    hendorsed.length_eq
  refine ⟨flagged validated.transaction.signers g.owners,
    flagged_nodup _ hmultisig.nodup, ?_, ?_, ?_⟩
  · rw [flagged_length hlen]
    exact ExecuteTransaction.threshold_le_of_approved hvalid.approved
  · intro key hkey
    rw [hmultisig.owners]
    exact (flagged_sublist _ _).subset hkey
  · intro key hkey
    obtain ⟨i, hflag, hmember⟩ := mem_flagged_iff.mp hkey
    obtain ⟨key', hkey', hsigned⟩ := hendorsed.signed i hflag
    obtain rfl : key' = key := Option.some.inj (hkey'.symm.trans hmember)
    rw [← approvals_eq_supporters hp]
    exact hsigned

end MultisigNative.System
