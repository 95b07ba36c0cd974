import Mathlib.Algebra.BigOperators.Group.Finset.Basic
import MultisigNative.Properties.Quorum

/-!
Every open proposal can be cancelled by every current owner, whatever has happened to
the owners since, and its lamports go to the refundee.
-/

namespace MultisigNative.Properties

open Library.Transition
open Solana
open State
open Instructions
open Processor
open MultisigNative.System
open LocalRuntime

/-- The account at `t` is emptied into the one at `refundee`. -/
structure Emptied (t refundee : Pubkey) (L L' : Ledger) : Prop where
  account_eq : L' t = ⟨0, systemProgram, []⟩
  lamports_eq : (L' refundee).lamports.toNat =
    (L refundee).lamports.toNat + (L t).lamports.toNat
  owner_eq : (L' refundee).owner = (L refundee).owner
  data_eq : (L' refundee).data = (L refundee).data
  eq_of_ne : ∀ k, k ≠ t → k ≠ refundee → L' k = L k

/-- No call takes `t` as a transaction, as long as accounts are taken in their roles. -/
structure Rejected (rt : Runtime) (w : World) (t : Pubkey) : Prop where
  approve : ∀ accounts L', transactionArg .approveTransaction accounts = some t →
    argsInRole w.registry .approveTransaction accounts = true →
    approveTransaction rt.programId accounts w.ledger ≠ .ok () L'
  execute : ∀ accounts validated L', transactionArg .executeTransaction accounts = some t →
    argsInRole w.registry .executeTransaction accounts = true →
    ExecuteTransaction.validate rt rt.programId accounts w.ledger ≠ .ok validated L'
  cancel : ∀ accounts L', transactionArg .cancelTransaction accounts = some t →
    argsInRole w.registry .cancelTransaction accounts = true →
    cancelTransaction rt.programId accounts w.ledger ≠ .ok () L'

/-- Does the event open a proposal at `t`? -/
def proposes (t : Pubkey) : Event → Bool
  | .proposed _ t' _ _ => t' == t
  | _ => false

/-- The worlds that a run goes on to that keeps the roles. -/
def Continues (rt : Runtime) (w : World) : World → Prop :=
  Reachable (fun w' => w' = w) (perform rt) fun w label => label.keepsRoles w.registry = true

section Lamports

variable {t refundee : Pubkey} {L L' : Ledger}

theorem emptied_of_closeAccount {account info : AccountInfo} {u : Unit}
    (hne : info.key ≠ account.key) (h : closeAccount account info L = .ok u L') :
    Emptied account.key info.key L L' := by
  obtain ⟨hsum, rfl⟩ := (closeAccount_eq_ok_iff hne).mp h
  refine ⟨Function.update_self _ _ _, ?_, ?_, ?_, ?_⟩
  · rw [Function.update_of_ne hne, Function.update_self, UInt64.toNat_add,
      Nat.mod_eq_of_lt hsum]
  · rw [Function.update_of_ne hne, Function.update_self]
  · rw [Function.update_of_ne hne, Function.update_self]
  · intro k ht hr
    rw [Function.update_of_ne ht, Function.update_of_ne hr]

theorem Emptied.sum_lamports (h : Emptied t refundee L L') (hne : refundee ≠ t)
    {S : Finset Pubkey} (ht : t ∈ S) (hr : refundee ∈ S) :
    ∑ k ∈ S, (L' k).lamports.toNat = ∑ k ∈ S, (L k).lamports.toNat := by
  have hmem : refundee ∈ S.erase t := Finset.mem_erase.mpr ⟨hne, hr⟩
  have hrest : ∑ k ∈ (S.erase t).erase refundee, (L' k).lamports.toNat =
      ∑ k ∈ (S.erase t).erase refundee, (L k).lamports.toNat := by
    refine Finset.sum_congr rfl ?_
    intro k hk
    rw [Finset.mem_erase, Finset.mem_erase] at hk
    rw [h.eq_of_ne k hk.2.1 hk.1]
  have hzero : (L' t).lamports.toNat = 0 := by
    rw [h.account_eq]
    rfl
  rw [← Finset.add_sum_erase S _ ht, ← Finset.add_sum_erase (S.erase t) _ hmem, hrest, hzero,
    h.lamports_eq, ← Finset.add_sum_erase S (fun k => (L k).lamports.toNat) ht,
    ← Finset.add_sum_erase (S.erase t) (fun k => (L k).lamports.toNat) hmem]
  omega

end Lamports

section Closed

variable {rt : Runtime} {w w' : World} {t : Pubkey} {later earlier : List Event}

/-- Where no proposal is open, only a proposal opens one. -/
theorem not_proposal_of_replay (hclosed : (replay earlier t).isProposal = false)
    (hnone : ∀ event ∈ later, proposes t event = false) :
    (replay (later ++ earlier) t).isProposal = false := by
  induction later with
  | nil => exact hclosed
  | cons event later ih =>
      have hold := ih fun event' hmem => hnone event' (List.mem_cons_of_mem _ hmem)
      rw [List.cons_append, replay_cons, ← Bool.not_eq_true, Occupant.isProposal_iff]
      rintro ⟨p, hp⟩
      rcases Event.apply_eq_proposal hp with ⟨rfl, -⟩ | ⟨_, _, q, hq, -⟩ | ⟨hq, -⟩
      · have hnew := hnone _ (List.mem_cons_self ..)
        simp [proposes] at hnew
      · rw [hq] at hold
        cases hold
      · rw [hq] at hold
        cases hold

theorem rejected_of_closed (h : Held rt w) (hclosed : (w.registry t).isProposal = false) :
    Rejected rt w t where
  approve accounts L' ht hrole hok := by
    obtain ⟨_, info, _, _, _, _, _, rfl, hvalid, -⟩ := approveTransaction_eq_ok_iff.mp hok
    obtain rfl : info.key = t := Option.some.inj ht
    obtain ⟨_, p, -, -, hp, -⟩ := h.approved hrole hvalid
    rw [hp] at hclosed
    cases hclosed
  execute accounts validated L' ht hrole hok := by
    obtain ⟨_, p, -, -, hp, -⟩ := h.executed hrole hok
    obtain ⟨_, _, rfl, -⟩ := ExecuteTransaction.validate_eq_ok_iff.mp hok
    obtain rfl : validated.transactionAccount.key = t := Option.some.inj ht
    rw [hp] at hclosed
    cases hclosed
  cancel accounts L' ht hrole hok := by
    obtain ⟨_, info, _, _, _, _, _, rfl, hvalid, -⟩ := cancelTransaction_eq_ok_iff.mp hok
    obtain rfl : info.key = t := Option.some.inj ht
    obtain ⟨_, p, -, -, hp, -⟩ := h.cancelled hrole hvalid
    rw [hp] at hclosed
    cases hclosed

end Closed

section Cancelling

variable {rt : Runtime} {w : World} {m t refundee executor : AccountInfo} {g : Group}
  {p : Proposal} {multisig : Multisig} {transaction : Transaction}

/-- The counter of a proposal is not ahead of its multisig's. -/
theorem seqno_le_of_epoch_le (hmultisig : multisig.ownerSetSeqno = UInt32.ofNat g.epoch)
    (htransaction : transaction.ownerSetSeqno = UInt32.ofNat p.epoch)
    (hle : p.epoch ≤ g.epoch) (hbound : g.epoch < 2 ^ 32) :
    transaction.ownerSetSeqno ≤ multisig.ownerSetSeqno := by
  rw [hmultisig, htransaction, UInt32.le_iff_toNat_le, UInt32.toNat_ofNat',
    UInt32.toNat_ofNat', Nat.mod_eq_of_lt hbound, Nat.mod_eq_of_lt (by omega)]
  exact hle

/-- The runtime lets the program close its account and credit another. -/
theorem effectAllowed_closed {L L' : Ledger} {accounts : List AccountInfo} {t r : Pubkey}
    (h : Emptied t r L L') (howner : (L t).owner = rt.programId)
    (ht : isWritableIn accounts t = true) (hr : isWritableIn accounts r = true) :
    effectAllowed rt accounts L L' = true := by
  rw [effectAllowed, List.all_eq_true]
  intro info _
  by_cases hinfo : info.key = t
  · simp [changeAllowed, hinfo, ht, howner]
  · by_cases hrefundee : info.key = r
    · have hle : (L r).lamports ≤ (L' r).lamports := by
        rw [UInt64.le_iff_toNat_le, h.lamports_eq]
        omega
      simp [changeAllowed, hrefundee, hr, h.owner_eq, h.data_eq, hle]
    · simp [changeAllowed, h.eq_of_ne info.key hinfo hrefundee]

/-- An owner who signs may close an open proposal, current or stale. -/
theorem cancel_valid (h : Represents rt w) (hp : w.registry t.key = .proposal p)
    (hm : p.multisig = m.key) (hfew : ownerChanges m.key w.history < 2 ^ 32)
    (hholds : HoldsProposal rt (w.ledger t.key) p transaction)
    (hg : w.registry m.key = .multisig g)
    (hmultisig : HoldsMultisig rt m.key (w.ledger m.key) g multisig)
    (hsigner : executor.isSigner = true) (howner : executor.key ∈ multisig.owners)
    (hwritable : t.isWritable = true) (hrefundable : refundee.isWritable = true)
    (hne : refundee.key ≠ t.key) :
    CancelTransaction.Valid rt.programId w.ledger m t refundee executor multisig
      transaction := by
  have hle := epoch_le_of_proposal h.lawful hp hm hg
  have hbound := Nat.lt_of_le_of_lt (epoch_le_ownerChanges hg) hfew
  exact ⟨hmultisig.owner, hholds.owner, hmultisig.fits, hmultisig.data, hholds.fits,
    hholds.data, hsigner, howner,
    seqno_le_of_epoch_le hmultisig.seqno hholds.seqno hle hbound,
    hholds.multisig.trans hm, hwritable, hne, hrefundable⟩

theorem cancel_performs (hvalid : CancelTransaction.Valid rt.programId w.ledger m t refundee
      executor multisig transaction)
    (hsum : (w.ledger refundee.key).lamports.toNat + (w.ledger t.key).lamports.toNat <
      2 ^ 64) (rest : List AccountInfo) :
    ∃ L', perform rt w (.call .cancelTransaction
        (m :: t :: refundee :: executor :: rest)) =
        some ⟨L', .cancelled m.key t.key :: w.history⟩ ∧
      Emptied t.key refundee.key w.ledger L' := by
  have hne := hvalid.refundee_ne
  have hclose := (closeAccount_eq_ok_iff (u := ()) hne).mpr ⟨hsum, rfl⟩
  have hemptied := emptied_of_closeAccount hne hclose
  have hcall : MultisigInstruction.cancelTransaction ≠ .executeTransaction := by simp
  refine ⟨_, (perform_call_eq_some_iff hcall).mpr ⟨_, ?_, ?_, rfl⟩, hemptied⟩
  · exact cancelTransaction_eq_ok_iff.mpr
      ⟨m, t, refundee, executor, rest, multisig, transaction, rfl, hvalid, hclose⟩
  · rw [effectAllowed_closed hemptied hvalid.owner, Bool.or_true]
    · simp [isWritableIn, hvalid.isWritable]
    · simp [isWritableIn, hvalid.refundee_isWritable]

end Cancelling

/-- Whatever has happened to the owners of `m` since, and as long as these changes are
fewer than 2 ^ 32 and no execution closes a multisig at its end, each of its owners can
cancel what was proposed at `t`.  The account is emptied into the refundee, nothing else
changes, no lamports are lost, and until the next proposal there nothing accepts `t` any
more. -/
theorem cancel_always_possible {rt : Runtime} {w : World} (h : RolesKeptWorld rt w)
    {m t refundee executor : AccountInfo} {later earlier : List Event}
    {signers : List Pubkey} {instructions : List TransactionInstructionData}
    (hhistory : w.history = later ++ .proposed m.key t.key signers instructions :: earlier)
    (hopen : ∀ event ∈ later, event.closes t.key = false)
    (hfew : ownerChanges m.key w.history < 2 ^ 32) (hsigner : executor.isSigner = true)
    (hwritable : t.isWritable = true) (hrefundable : refundee.isWritable = true)
    (hne : refundee.key ≠ t.key)
    (hsum : (w.ledger refundee.key).lamports.toNat + (w.ledger t.key).lamports.toNat <
      2 ^ 64) (rest : List AccountInfo) :
    ∃ multisig, Multisig.checkedDeserialize (w.ledger m.key).data = .ok multisig ∧
      (executor.key ∈ multisig.owners → ∃ w',
        perform rt w (.call .cancelTransaction (m :: t :: refundee :: executor :: rest)) =
          some w' ∧
        Emptied t.key refundee.key w.ledger w'.ledger ∧
        (∀ S : Finset Pubkey, t.key ∈ S → refundee.key ∈ S →
          ∑ k ∈ S, (w'.ledger k).lamports.toNat = ∑ k ∈ S, (w.ledger k).lamports.toNat) ∧
        ∀ w'' since, Continues rt w' w'' → w''.history = since ++ w'.history →
          (∀ event ∈ since, proposes t.key event = false) → Rejected rt w'' t.key) := by
  have hrepresents := represents_of_rolesKept h
  have hlawful := hrepresents.lawful
  rw [hhistory] at hlawful
  obtain ⟨p, hp, hm, -, -⟩ := proposal_of_proposed hlawful hopen
  rw [← hhistory] at hp
  obtain ⟨g, hg, -⟩ := group_of_proposal hrepresents.lawful hp
  rw [hm] at hg
  obtain ⟨multisig, hmultisig⟩ := hrepresents.held.exists_multisig hg
  obtain ⟨transaction, hholds⟩ := hrepresents.held.exists_transaction hp
  refine ⟨multisig, hmultisig.decodes, ?_⟩
  intro howner
  have hvalid := cancel_valid hrepresents hp hm hfew hholds hg hmultisig hsigner howner
    hwritable hrefundable hne
  obtain ⟨L', hperform, hemptied⟩ := cancel_performs hvalid hsum rest
  have hrole : (Label.call .cancelTransaction (m :: t :: refundee :: executor :: rest) :
      Label rt).keepsRoles w.registry = true := by
    change w.registry m.key = .multisig g at hg
    change w.registry t.key = .proposal p at hp
    simp [argsInRole, multisigArg, transactionArg, hg, hp,
      Occupant.isProposal, Occupant.isMultisig]
  refine ⟨_, hperform, hemptied, fun S => hemptied.sum_lamports hne, ?_⟩
  intro w'' since hrun hsince hnone
  have hcancelled : RolesKeptWorld rt ⟨L', .cancelled m.key t.key :: w.history⟩ :=
    h.next hrole hperform
  refine rejected_of_closed (represents_of_rolesKept (hcancelled.trans hrun)).held ?_
  rw [World.registry, hsince]
  refine not_proposal_of_replay ?_ hnone
  simp [replay_cons, Event.apply, Occupant.isProposal]

/-- The owner 13 cancels the sample proposal in favour of the multisig itself. -/
theorem cancel_always_possible_sample : ∃ w',
    perform localRuntime sampleConfig.world (.call .cancelTransaction
      [readonly (keyOf 20), writable (keyOf 30), writable (keyOf 20), signer (keyOf 13)]) =
        some w' ∧
    Emptied (keyOf 30) (keyOf 20) sampleConfig.world.ledger w'.ledger ∧
    Rejected localRuntime w' (keyOf 30) := by
  have hhistory : sampleConfig.world.history =
      [.approved (keyOf 20) (keyOf 30) [keyOf 12]] ++
        .proposed (keyOf 20) (keyOf 30) [keyOf 30, keyOf 11, keyOf 11]
          [⟨keyOf 99, [], [1, 2, 3]⟩] :: sampleConfig.world.history.drop 2 := by
    decide +kernel
  have hfew : ownerChanges (keyOf 20) sampleConfig.world.history < 2 ^ 32 := by
    decide +kernel
  obtain ⟨multisig, hdecode, hcancel⟩ := cancel_always_possible
    (rolesKeptWorld_of_config sampleConfig_rolesKept).1 (m := readonly (keyOf 20))
    (t := writable (keyOf 30)) hhistory (by decide) hfew (show (signer (keyOf 13)).isSigner =
      true from rfl) rfl (show (writable (keyOf 20)).isWritable = true from rfl) (by decide)
    (by decide +kernel) []
  have hvalue : Multisig.checkedDeserialize
      (sampleConfig.world.ledger (readonly (keyOf 20)).key).data =
        .ok ⟨[keyOf 11, keyOf 12, keyOf 13], 2, 5, 0, []⟩ := by
    decide +kernel
  rw [hvalue] at hdecode
  obtain rfl := Except.ok.inj hdecode
  obtain ⟨w', hperform, hemptied, -, hrejected⟩ := hcancel (by decide)
  exact ⟨w', hperform, hemptied, hrejected w' [] (.init rfl) rfl (by simp)⟩

/-- With these accounts 11 cancels the proposal at key 33 in favour of key 20. -/
def renewedCancellation : List AccountInfo :=
  [readonly (keyOf 30), writable (keyOf 33), writable (keyOf 20), signer (keyOf 11)]

/-- The proposal at key 33 carries a counter that the new multisig at 30 has not reached,
so that its owner 11 cannot cancel it. -/
theorem cancel_refused : InRoleWorld localRuntime renewedSample.world ∧
    (∃ later earlier, renewedSample.world.history =
        later ++ .proposed (keyOf 30) (keyOf 33) [keyOf 33, keyOf 11, keyOf 11]
          [storedNote] :: earlier ∧
      ∀ event ∈ later, event.closes (keyOf 33) = false) ∧
    ownerChanges (keyOf 30) renewedSample.world.history < 2 ^ 32 ∧
    (renewedSample.world.ledger (keyOf 20)).lamports.toNat +
      (renewedSample.world.ledger (keyOf 33)).lamports.toNat < 2 ^ 64 ∧
    Multisig.checkedDeserialize (renewedSample.world.ledger (keyOf 30)).data =
      .ok renewedMultisig ∧
    keyOf 11 ∈ renewedMultisig.owners ∧
    argsInRole renewedSample.world.registry .cancelTransaction renewedCancellation = true ∧
    perform localRuntime renewedSample.world
      (.call .cancelTransaction renewedCancellation) = none := by
  obtain ⟨hhistory, hopen, hsum, hrole, hrefused⟩ :
      renewedSample.world.history = renewedSample.world.history.take 2 ++
        .proposed (keyOf 30) (keyOf 33) [keyOf 33, keyOf 11, keyOf 11] [storedNote] ::
          renewedSample.world.history.drop 3 ∧
      (∀ event ∈ renewedSample.world.history.take 2, event.closes (keyOf 33) = false) ∧
      (renewedSample.world.ledger (keyOf 20)).lamports.toNat +
        (renewedSample.world.ledger (keyOf 33)).lamports.toNat < 2 ^ 64 ∧
      argsInRole renewedSample.world.registry .cancelTransaction renewedCancellation = true ∧
      (perform localRuntime renewedSample.world
        (.call .cancelTransaction renewedCancellation)).isNone = true := by
    decide +kernel
  have hworld : InRoleWorld localRuntime renewedSample.world :=
    (world_of_reachable (fun _ _ _ _ => inRole_of_taken) renewedSample_inRole).1
  exact ⟨hworld, ⟨_, _, hhistory, hopen⟩, renewedSample_few _, hsum, renewedSample_multisig,
    List.mem_cons_self .., hrole, Option.isNone_iff_eq_none.mp hrefused⟩

end MultisigNative.Properties
