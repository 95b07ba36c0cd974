import MultisigNative.Library.EventLog
import MultisigNative.State.Transaction

/-!
What the program is for, as an abstract model: a registry of groups of owners
and of open proposals, driven by the successful calls.  Epochs are exact
naturals, approvals are keys, and nothing is encoded in bytes.
-/

namespace MultisigNative.System

open Solana
open State

/-- One successful call, as the history keeps it.  `signers` are all the keys
that signed the call. -/
inductive Event
  | multisigCreated (multisig : Pubkey) (owners : List Pubkey) (nonce : UInt8)
  | ownersChanged (multisig : Pubkey) (owners : List Pubkey)
  | thresholdChanged (multisig : Pubkey)
  | proposed (multisig transaction : Pubkey) (signers : List Pubkey)
      (instructions : List TransactionInstructionData)
  | approved (multisig transaction : Pubkey) (signers : List Pubkey)
  | executed (multisig transaction : Pubkey) (birth : Option Nat)
  | cancelled (multisig transaction : Pubkey)
deriving DecidableEq

/-- A multisig: `epoch` counts the owner changes since its creation. -/
structure Group where
  owners : List Pubkey
  nonce : UInt8
  capacity : Nat
  epoch : Nat
deriving DecidableEq

/-- An open proposal.  `birth` is the number of events before it was proposed;
no two proposals share it.  `approvals` are the signers of the proposal and of
the approvals since. -/
structure Proposal where
  multisig : Pubkey
  instructions : List TransactionInstructionData
  epoch : Nat
  birth : Nat
  approvals : List Pubkey
deriving DecidableEq

/-- What lives at an address. -/
inductive Occupant
  | vacant
  | multisig (group : Group)
  | proposal (proposal : Proposal)
deriving DecidableEq

namespace Occupant

def isMultisig : Occupant → Bool
  | .multisig _ => true
  | _ => false

def isProposal : Occupant → Bool
  | .proposal _ => true
  | _ => false

def epoch : Occupant → Nat
  | .multisig group => group.epoch
  | _ => 0

def birth : Occupant → Option Nat
  | .proposal p => some p.birth
  | _ => none

def changeOwners (owners : List Pubkey) : Occupant → Occupant
  | .multisig group => .multisig { group with owners := owners, epoch := group.epoch + 1 }
  | occupant => occupant

def approve (signers : List Pubkey) : Occupant → Occupant
  | .proposal p => .proposal { p with approvals := signers ++ p.approvals }
  | occupant => occupant

theorem isMultisig_iff {occupant : Occupant} :
    occupant.isMultisig = true ↔ ∃ g, occupant = .multisig g := by
  cases occupant <;> simp [isMultisig]

theorem isProposal_iff {occupant : Occupant} :
    occupant.isProposal = true ↔ ∃ p, occupant = .proposal p := by
  cases occupant <;> simp [isProposal]

theorem birth_eq_some_iff {occupant : Occupant} {time : Nat} :
    occupant.birth = some time ↔ ∃ p, occupant = .proposal p ∧ p.birth = time := by
  cases occupant <;> simp [birth]

@[simp] theorem isMultisig_approve (signers : List Pubkey) (occupant : Occupant) :
    (occupant.approve signers).isMultisig = occupant.isMultisig := by
  cases occupant <;> rfl

@[simp] theorem epoch_approve (signers : List Pubkey) (occupant : Occupant) :
    (occupant.approve signers).epoch = occupant.epoch := by
  cases occupant <;> rfl

theorem epoch_of_not_multisig {occupant : Occupant} (h : occupant.isMultisig = false) :
    occupant.epoch = 0 := by
  cases occupant with
  | multisig g => cases h
  | _ => rfl

end Occupant

abbrev Registry := Pubkey → Occupant

namespace Event

/-- The effect of an event that happens after `time` others. -/
def apply (time : Nat) (r : Registry) : Event → Registry
  | .multisigCreated m owners nonce =>
      Function.update r m (.multisig ⟨owners, nonce, owners.length, 0⟩)
  | .ownersChanged m owners => Function.update r m ((r m).changeOwners owners)
  | .thresholdChanged _ => r
  | .proposed m t signers instructions =>
      Function.update r t (.proposal ⟨m, instructions, (r m).epoch, time, signers⟩)
  | .approved _ t signers => Function.update r t ((r t).approve signers)
  | .executed _ t _ => Function.update r t .vacant
  | .cancelled _ t => Function.update r t .vacant

/-- The address whose occupant an event replaces or changes. -/
def subject : Event → Pubkey
  | .multisigCreated m _ _ => m
  | .ownersChanged m _ => m
  | .thresholdChanged m => m
  | .proposed _ t _ _ => t
  | .approved _ t _ => t
  | .executed _ t _ => t
  | .cancelled _ t => t

/-- Which events can happen: accounts are created where nothing is, and nothing
but a vacant address or a proposal is ever closed. -/
def enabled (r : Registry) : Event → Prop
  | .multisigCreated m _ _ => r m = .vacant
  | .ownersChanged m _ => (r m).isMultisig = true
  | .thresholdChanged m => (r m).isMultisig = true
  | .proposed m t _ _ => (r m).isMultisig = true ∧ r t = .vacant
  | .approved m t _ => ∃ p, r t = .proposal p ∧ p.multisig = m
  | .executed _ t _ => (r t).isMultisig = false
  | .cancelled m t => ∃ p, r t = .proposal p ∧ p.multisig = m

/-- Does the event change the owners of `m`? -/
def changesOwnersOf (m : Pubkey) : Event → Bool
  | .ownersChanged m' _ => m' == m
  | _ => false

/-- Does the event close the account at `t`? -/
def closes (t : Pubkey) : Event → Bool
  | .executed _ t' _ => t' == t
  | .cancelled _ t' => t' == t
  | _ => false

theorem apply_of_ne {time : Nat} {r : Registry} {event : Event} {k : Pubkey}
    (h : k ≠ event.subject) : event.apply time r k = r k := by
  cases event <;> simp [apply, subject] at h ⊢ <;> simp [h]

/-- Where a multisig comes from: it has just been created, its owners have just
been changed, or it was there before. -/
theorem apply_eq_multisig {time : Nat} {r : Registry} {event : Event} {m : Pubkey}
    {g : Group} (h : event.apply time r m = .multisig g) :
    (event = .multisigCreated m g.owners g.nonce ∧
        g.capacity = g.owners.length ∧ g.epoch = 0) ∨
      (∃ f, r m = .multisig f ∧ event = .ownersChanged m g.owners ∧
        g.nonce = f.nonce ∧ g.capacity = f.capacity ∧ g.epoch = f.epoch + 1) ∨
      (r m = .multisig g ∧ event.changesOwnersOf m = false) := by
  by_cases hm : m = event.subject
  · subst hm
    cases event with
    | multisigCreated m owners nonce =>
        left
        simp only [apply, subject, Function.update_self, Occupant.multisig.injEq] at h
        subst h
        exact ⟨rfl, rfl, rfl⟩
    | ownersChanged m owners =>
        right
        left
        simp only [apply, subject, Function.update_self] at h
        cases ho : r m with
        | multisig f =>
            rw [ho] at h
            simp only [Occupant.changeOwners, Occupant.multisig.injEq] at h
            subst h
            exact ⟨f, ho, rfl, rfl, rfl, rfl⟩
        | vacant => simp [ho, Occupant.changeOwners] at h
        | proposal p => simp [ho, Occupant.changeOwners] at h
    | thresholdChanged m => exact .inr (.inr ⟨h, rfl⟩)
    | proposed m t signers instructions => simp [apply, subject] at h
    | approved m t signers =>
        right
        right
        simp only [apply, subject, Function.update_self] at h
        cases ho : r t with
        | multisig f => exact ⟨by simpa [subject, ho, Occupant.approve] using h, rfl⟩
        | vacant => simp [ho, Occupant.approve] at h
        | proposal p => simp [ho, Occupant.approve] at h
    | executed m t birth => simp [apply, subject] at h
    | cancelled m t => simp [apply, subject] at h
  · right
    right
    rw [apply_of_ne hm] at h
    refine ⟨h, ?_⟩
    cases event with
    | ownersChanged m' owners => exact beq_false_of_ne (Ne.symm hm)
    | _ => rfl

/-- Where an open proposal comes from: it has just been proposed, it has just
been approved, or it was there before. -/
theorem apply_eq_proposal {time : Nat} {r : Registry} {event : Event} {t : Pubkey}
    {p : Proposal} (h : event.apply time r t = .proposal p) :
    (event = .proposed p.multisig t p.approvals p.instructions ∧
        p.epoch = (r p.multisig).epoch ∧ p.birth = time) ∨
      (∃ m signers q, r t = .proposal q ∧ event = .approved m t signers ∧
        p = { q with approvals := signers ++ q.approvals }) ∨
      (r t = .proposal p ∧ ∀ m signers, event ≠ .approved m t signers) := by
  by_cases ht : t = event.subject
  · subst ht
    cases event with
    | multisigCreated m owners nonce => simp [apply, subject] at h
    | ownersChanged m owners =>
        right
        right
        simp only [apply, subject, Function.update_self] at h
        cases ho : r m with
        | proposal q =>
            exact ⟨by simpa [subject, ho, Occupant.changeOwners] using h, by simp⟩
        | vacant => simp [ho, Occupant.changeOwners] at h
        | multisig g => simp [ho, Occupant.changeOwners] at h
    | thresholdChanged m => exact .inr (.inr ⟨h, by simp⟩)
    | proposed m t signers instructions =>
        left
        simp only [apply, subject, Function.update_self, Occupant.proposal.injEq] at h
        subst h
        exact ⟨rfl, rfl, rfl⟩
    | approved m t signers =>
        right
        left
        simp only [apply, subject, Function.update_self] at h
        cases ho : r t with
        | proposal q =>
            rw [ho] at h
            simp only [Occupant.approve, Occupant.proposal.injEq] at h
            exact ⟨m, signers, q, ho, rfl, h.symm⟩
        | vacant => simp [ho, Occupant.approve] at h
        | multisig g => simp [ho, Occupant.approve] at h
    | executed m t birth => simp [apply, subject] at h
    | cancelled m t => simp [apply, subject] at h
  · right
    right
    rw [apply_of_ne ht] at h
    refine ⟨h, ?_⟩
    rintro m signers rfl
    exact ht rfl

end Event

/-- The registry after a history, which lists the newest event first. -/
def replay (history : List Event) : Registry :=
  Library.EventLog.replay (fun time r event => event.apply time r) (fun _ => .vacant) history

/-- Each event of the history was enabled when it happened. -/
def Lawful (history : List Event) : Prop :=
  Library.EventLog.Lawful (fun time r event => event.apply time r) (fun _ => .vacant)
    Event.enabled history

@[simp] theorem replay_nil (k : Pubkey) : replay [] k = .vacant := rfl

theorem replay_cons (event : Event) (history : List Event) :
    replay (event :: history) = event.apply history.length (replay history) := rfl

theorem lawful_cons {event : Event} {history : List Event} :
    Lawful (event :: history) ↔ event.enabled (replay history) ∧ Lawful history :=
  Iff.rfl

theorem lawful_of_append {later earlier : List Event} (h : Lawful (later ++ earlier)) :
    Lawful earlier :=
  Library.EventLog.Lawful.of_append h

theorem lawful_since {I : List Event → Prop} {later earlier : List Event}
    (hbase : I earlier)
    (hcons : ∀ event log, earlier.length ≤ log.length → event.enabled (replay log) →
      event ∈ later → I log → I (event :: log))
    (h : Lawful (later ++ earlier)) : I (later ++ earlier) :=
  Library.EventLog.Lawful.since hbase
    (fun event log hlen _ henabled hmem hI => hcons event log hlen henabled hmem hI) h

/-- How often the owners of `m` were changed. -/
def ownerChanges (m : Pubkey) (history : List Event) : Nat :=
  history.countP (Event.changesOwnersOf m)

/-- The keys that signed the latest proposal at `t` or an approval of `t` since. -/
def supporters (t : Pubkey) : List Event → List Pubkey
  | [] => []
  | .proposed _ t' signers _ :: history =>
      if t' = t then signers else supporters t history
  | .approved _ t' signers :: history =>
      if t' = t then signers ++ supporters t history else supporters t history
  | _ :: history => supporters t history

section AllHistories

variable {history : List Event} {m t : Pubkey} {g : Group} {p : Proposal}

theorem birth_lt_of_replay (h : replay history t = .proposal p) :
    p.birth < history.length := by
  induction history generalizing p with
  | nil => simp at h
  | cons event history ih =>
      rw [replay_cons] at h
      rw [List.length_cons]
      rcases Event.apply_eq_proposal h with ⟨-, -, hbirth⟩ | ⟨_, _, q, hq, -, rfl⟩ | ⟨hp, -⟩
      · omega
      · exact Nat.lt_succ_of_lt (ih (p := q) hq)
      · exact Nat.lt_succ_of_lt (ih hp)

theorem epoch_le_ownerChanges (h : replay history m = .multisig g) :
    g.epoch ≤ ownerChanges m history := by
  induction history generalizing g with
  | nil => simp at h
  | cons event history ih =>
      rw [replay_cons] at h
      rw [ownerChanges, List.countP_cons, ← ownerChanges]
      rcases Event.apply_eq_multisig h with
        ⟨-, -, hepoch⟩ | ⟨f, hf, rfl, -, -, hepoch⟩ | ⟨hg, -⟩
      · omega
      · have hle := ih hf
        simp only [Event.changesOwnersOf, beq_self_eq_true, if_true]
        omega
      · have hle := ih hg
        omega

/-- The approvals of an open proposal are the signatures since it was proposed. -/
theorem approvals_eq_supporters (h : replay history t = .proposal p) :
    p.approvals = supporters t history := by
  induction history generalizing p with
  | nil => simp at h
  | cons event history ih =>
      rw [replay_cons] at h
      rcases Event.apply_eq_proposal h with ⟨rfl, -, -⟩ | ⟨_, _, q, hq, rfl, rfl⟩ | ⟨hp, hne⟩
      · simp [supporters]
      · simp [supporters, ih hq]
      · rw [ih hp]
        cases event with
        | proposed m' t' signers instructions =>
            rw [supporters]
            split
            · rename_i ht
              subst ht
              simp only [Event.apply, Function.update_self,
                Occupant.proposal.injEq] at h
              have hbirth := birth_lt_of_replay hp
              rw [← h] at hbirth
              exact absurd hbirth (Nat.lt_irrefl _)
            · rfl
        | approved m' t' signers =>
            rw [supporters, if_neg]
            rintro rfl
            exact hne m' signers rfl
        | _ => rfl

end AllHistories

section LawfulHistories

variable {history later earlier : List Event} {m t : Pubkey} {g : Group} {p : Proposal}

/-- Only an owner change alters a group that is there. -/
theorem multisig_of_enabled (time : Nat) {event : Event} {r : Registry}
    (henabled : event.enabled r) (hg : r m = .multisig g) :
    ∃ g', event.apply time r m = .multisig g' ∧ g'.nonce = g.nonce ∧
      g'.capacity = g.capacity ∧ g.epoch ≤ g'.epoch ∧
      (event.changesOwnersOf m = true → g'.epoch = g.epoch + 1) ∧
      (event.changesOwnersOf m = false → g' = g) := by
  by_cases hm : m = event.subject
  · subst hm
    cases event with
    | multisigCreated m owners nonce =>
        rw [Event.subject, show r m = .vacant from henabled] at hg
        cases hg
    | ownersChanged m owners =>
        refine ⟨{ g with owners := owners, epoch := g.epoch + 1 }, ?_, rfl, rfl,
          Nat.le_succ _, fun _ => rfl, ?_⟩
        · rw [Event.subject] at hg ⊢
          simp [Event.apply, hg, Occupant.changeOwners]
        · simp [Event.changesOwnersOf, Event.subject]
    | thresholdChanged m =>
        exact ⟨g, hg, rfl, rfl, Nat.le_refl _, by simp [Event.changesOwnersOf], fun _ => rfl⟩
    | proposed m t signers instructions =>
        rw [Event.subject, henabled.2] at hg
        cases hg
    | approved m t signers =>
        rcases henabled with ⟨p, hp, -⟩
        rw [Event.subject, hp] at hg
        cases hg
    | executed m t birth =>
        rw [Event.subject] at hg
        simp [Event.enabled, hg, Occupant.isMultisig] at henabled
    | cancelled m t =>
        rcases henabled with ⟨p, hp, -⟩
        rw [Event.subject, hp] at hg
        cases hg
  · have hsame : event.changesOwnersOf m = false := by
      cases event with
      | ownersChanged m' owners => exact beq_false_of_ne (Ne.symm hm)
      | _ => rfl
    refine ⟨g, by rw [Event.apply_of_ne hm, hg], rfl, rfl, Nat.le_refl _, ?_,
      fun _ => rfl⟩
    simp [hsame]

/-- Events other than owner changes leave every epoch as it is. -/
theorem epoch_of_enabled (time : Nat) {event : Event} {r : Registry}
    (henabled : event.enabled r) (hkeep : event.changesOwnersOf m = false) :
    (event.apply time r m).epoch = (r m).epoch := by
  by_cases hm : m = event.subject
  · subst hm
    cases event with
    | multisigCreated m owners nonce =>
        simp only [Event.apply, Event.subject, Function.update_self]
        rw [show r m = .vacant from henabled]
        rfl
    | ownersChanged m owners => simp [Event.changesOwnersOf, Event.subject] at hkeep
    | thresholdChanged m => rfl
    | proposed m t signers instructions =>
        simp only [Event.apply, Event.subject, Function.update_self]
        rw [henabled.2]
        rfl
    | approved m t signers =>
        simp only [Event.apply, Event.subject, Function.update_self, Occupant.epoch_approve]
    | executed m t birth =>
        simp only [Event.apply, Event.subject, Function.update_self]
        exact (Occupant.epoch_of_not_multisig henabled).symm
    | cancelled m t =>
        rcases henabled with ⟨p, hp, -⟩
        simp only [Event.apply, Event.subject, Function.update_self, hp]
        rfl
  · rw [Event.apply_of_ne hm]

theorem epoch_eq_ownerChanges (h : Lawful history) (m : Pubkey) :
    (replay history m).epoch = ownerChanges m history := by
  induction history with
  | nil => rfl
  | cons event history ih =>
      have hold := ih h.2
      have henabled := (lawful_cons.mp h).1
      rw [replay_cons, ownerChanges, List.countP_cons, ← ownerChanges, ← hold]
      cases hchange : event.changesOwnersOf m with
      | false => simpa using epoch_of_enabled history.length henabled hchange
      | true =>
          cases event with
          | ownersChanged m' owners =>
              obtain rfl : m' = m := by simpa [Event.changesOwnersOf] using hchange
              obtain ⟨g, hg⟩ := Occupant.isMultisig_iff.mp henabled
              simp [Event.apply, hg, Occupant.changeOwners, Occupant.epoch]
          | _ => cases hchange

/-- A multisig keeps its nonce and capacity for ever. -/
theorem multisig_of_created {owners : List Pubkey} {nonce : UInt8}
    (h : Lawful (later ++ .multisigCreated m owners nonce :: earlier)) :
    ∃ g, replay (later ++ .multisigCreated m owners nonce :: earlier) m =
        .multisig g ∧ g.nonce = nonce ∧ g.capacity = owners.length := by
  refine lawful_since (I := fun log => ∃ g, replay log m = .multisig g ∧
    g.nonce = nonce ∧ g.capacity = owners.length) ?_ ?_ h
  · refine ⟨⟨owners, nonce, owners.length, 0⟩, ?_, rfl, rfl⟩
    simp [replay_cons, Event.apply]
  · rintro event log - henabled - ⟨g, hg, hnonce, hcapacity⟩
    obtain ⟨g', hg', hnonce', hcapacity', -⟩ :=
      multisig_of_enabled log.length henabled hg
    exact ⟨g', hg', hnonce'.trans hnonce, hcapacity'.trans hcapacity⟩

/-- The multisig of an open proposal is there, and its epoch has not fallen
behind the proposal's. -/
theorem group_of_proposal (hlawful : Lawful history)
    (h : replay history t = .proposal p) :
    ∃ g, replay history p.multisig = .multisig g ∧ p.epoch ≤ g.epoch := by
  induction history generalizing p with
  | nil => simp at h
  | cons event history ih =>
      have hkeep : ∀ q, replay history t = .proposal q → ∃ g,
          replay (event :: history) q.multisig = .multisig g ∧ q.epoch ≤ g.epoch := by
        intro q hq
        obtain ⟨g, hg, hle⟩ := ih hlawful.2 hq
        obtain ⟨g', hg', -, -, hle', -⟩ :=
          multisig_of_enabled history.length hlawful.1 hg
        exact ⟨g', hg', Nat.le_trans hle hle'⟩
      rw [replay_cons] at h
      rcases Event.apply_eq_proposal h with ⟨rfl, hepoch, -⟩ | ⟨_, _, q, hq, -, rfl⟩ | ⟨hp, -⟩
      · have henabled := (lawful_cons.mp hlawful).1
        obtain ⟨g, hg⟩ := Occupant.isMultisig_iff.mp henabled.1
        obtain ⟨g', hg', -, -, hle, -⟩ := multisig_of_enabled history.length henabled hg
        rw [hg, Occupant.epoch] at hepoch
        exact ⟨g', hg', by omega⟩
      · exact hkeep q hq
      · exact hkeep p hp

theorem epoch_le_of_proposal (hlawful : Lawful history) (h : replay history t = .proposal p)
    (hm : p.multisig = m) (hg : replay history m = .multisig g) : p.epoch ≤ g.epoch := by
  obtain ⟨g', hg', hle⟩ := group_of_proposal hlawful h
  rw [hm] at hg'
  obtain rfl := Occupant.multisig.inj (hg'.symm.trans hg)
  exact hle

/-- An owner change after a proposal leaves the proposal behind for ever. -/
theorem epoch_lt_of_changed {owners : List Pubkey}
    (hlawful : Lawful (later ++ .ownersChanged m owners :: earlier))
    (h : replay (later ++ .ownersChanged m owners :: earlier) t = .proposal p)
    (hm : p.multisig = m) (hbirth : p.birth < earlier.length) :
    ∃ g, replay (later ++ .ownersChanged m owners :: earlier) m = .multisig g ∧
      p.epoch < g.epoch := by
  refine lawful_since (I := fun log => ∀ p, replay log t = .proposal p →
    p.multisig = m → p.birth < earlier.length →
    ∃ g, replay log m = .multisig g ∧ p.epoch < g.epoch) ?_ ?_ hlawful p h hm hbirth
  · intro p h hm hbirth
    have hold := lawful_of_append hlawful
    have hp : replay earlier t = .proposal p := by
      rw [replay_cons] at h
      rcases Event.apply_eq_proposal h with ⟨hevent, -⟩ | ⟨_, _, _, -, hevent, -⟩ | ⟨hp, -⟩
      · cases hevent
      · cases hevent
      · exact hp
    obtain ⟨g, hg, hle⟩ := group_of_proposal hold.2 hp
    rw [hm] at hg
    obtain ⟨g', hg', -, -, -, hchanged, -⟩ :=
      multisig_of_enabled earlier.length hold.1 hg
    refine ⟨g', hg', ?_⟩
    rw [hchanged (by simp [Event.changesOwnersOf])]
    omega
  · intro event log hlen henabled _ ih p h hm hbirth
    have hkeep : ∀ q, replay log t = .proposal q → q.multisig = m →
        q.birth < earlier.length → ∃ g, replay (event :: log) m = .multisig g ∧
          q.epoch < g.epoch := by
      intro q hq hqm hqbirth
      obtain ⟨g, hg, hlt⟩ := ih q hq hqm hqbirth
      obtain ⟨g', hg', -, -, hle, -⟩ :=
        multisig_of_enabled log.length henabled hg
      exact ⟨g', hg', Nat.lt_of_lt_of_le hlt hle⟩
    rw [replay_cons] at h
    rcases Event.apply_eq_proposal h with ⟨-, -, hnew⟩ | ⟨_, _, q, hq, -, rfl⟩ | ⟨hp, -⟩
    · simp only [List.length_cons] at hlen
      omega
    · exact hkeep q hq hm hbirth
    · exact hkeep p hp hm hbirth

/-- As long as nothing closes it, an address holds what was proposed there. -/
theorem proposal_of_proposed {signers : List Pubkey}
    {instructions : List TransactionInstructionData}
    (h : Lawful (later ++ .proposed m t signers instructions :: earlier))
    (hopen : ∀ event ∈ later, event.closes t = false) :
    ∃ p, replay (later ++ .proposed m t signers instructions :: earlier) t =
        .proposal p ∧ p.multisig = m ∧ p.instructions = instructions ∧
      p.birth = earlier.length := by
  refine lawful_since (I := fun log => ∃ p, replay log t = .proposal p ∧
    p.multisig = m ∧ p.instructions = instructions ∧ p.birth = earlier.length) ?_ ?_ h
  · exact ⟨_, by simp [replay_cons, Event.apply]; rfl, rfl, rfl, rfl⟩
  · rintro event log - henabled hmem ⟨p, hp, hm, hinstructions, hbirth⟩
    have hnot := hopen event hmem
    by_cases ht : t = event.subject
    · subst ht
      cases event with
      | multisigCreated m' owners nonce =>
          rw [Event.subject, show replay log m' = .vacant from henabled] at hp
          cases hp
      | ownersChanged m' owners =>
          have hmultisig : (replay log m').isMultisig = true := henabled
          rw [Event.subject] at hp
          simp [hp, Occupant.isMultisig] at hmultisig
      | thresholdChanged m' => exact ⟨p, hp, hm, hinstructions, hbirth⟩
      | proposed m' t' signers' instructions' =>
          rw [Event.subject, show replay log t' = .vacant from henabled.2] at hp
          cases hp
      | approved m' t' signers' =>
          rw [Event.subject] at hp ⊢
          exact ⟨{ p with approvals := signers' ++ p.approvals },
            by simp [replay_cons, Event.apply, hp, Occupant.approve], hm,
            hinstructions, hbirth⟩
      | executed m' t' birth => simp [Event.closes, Event.subject] at hnot
      | cancelled m' t' => simp [Event.closes, Event.subject] at hnot
    · exact ⟨p, by rw [replay_cons, Event.apply_of_ne ht, hp], hm, hinstructions, hbirth⟩

/-- What was proposed before an owner change and is still open is behind its multisig. -/
theorem stale_of_changed {mid older : List Event} {owners signers : List Pubkey}
    {instructions : List TransactionInstructionData}
    (h : Lawful (later ++ .ownersChanged m owners ::
      (mid ++ .proposed m t signers instructions :: older)))
    (hopen : ∀ event ∈ later ++ mid, event.closes t = false) :
    ∃ p g, replay (later ++ .ownersChanged m owners ::
        (mid ++ .proposed m t signers instructions :: older)) t = .proposal p ∧
      p.multisig = m ∧
      replay (later ++ .ownersChanged m owners ::
        (mid ++ .proposed m t signers instructions :: older)) m = .multisig g ∧
      p.epoch < g.epoch := by
  have hproposed := h
  rw [List.append_cons, ← List.append_assoc] at hproposed
  have hstill : ∀ event ∈ later ++ [.ownersChanged m owners] ++ mid,
      event.closes t = false := by
    intro event hmem
    simp only [List.mem_append, List.mem_singleton] at hmem hopen
    rcases hmem with (hmem | rfl) | hmem
    · exact hopen event (.inl hmem)
    · rfl
    · exact hopen event (.inr hmem)
  obtain ⟨p, hp, hm, -, hbirth⟩ := proposal_of_proposed hproposed hstill
  rw [List.append_assoc, ← List.append_cons] at hp
  have holder : p.birth < (mid ++ .proposed m t signers instructions :: older).length := by
    rw [hbirth, List.length_append, List.length_cons]
    omega
  obtain ⟨g, hg, hlt⟩ := epoch_lt_of_changed h hp hm holder
  exact ⟨p, g, hp, hm, hg, hlt⟩

end LawfulHistories

end MultisigNative.System
