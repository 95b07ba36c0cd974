import MultisigNative.Library.Voting
import MultisigNative.Properties.Epochs

/-!
What the accounts of this program stand for: committees of keys and their motions.  Of
each committee and each motion the account stores one value, in which nothing is left
open: the padding is zeros, and the flags are those of the supporters.
-/

namespace MultisigNative.Specification

open Library.Voting
open Solana
open State
open Instructions
open Processor
open MultisigNative.System
open MultisigNative.Properties

abbrev Council := Committee Pubkey UInt8

abbrev Petition := Motion Pubkey Pubkey TransactionInstructionData

abbrev Entry := Item Pubkey Pubkey UInt8 TransactionInstructionData

abbrev Board := Assembly Pubkey Pubkey UInt8 TransactionInstructionData

abbrev Deed := Act Pubkey Pubkey UInt8 TransactionInstructionData

/-- The value that the account of a committee stores. -/
def multisigOf (c : Council) : Multisig where
  owners := c.roster
  threshold := UInt8.ofNat c.quorum
  nonce := c.charter
  ownerSetSeqno := UInt32.ofNat c.epoch
  padding := List.replicate (PUBKEY_BYTES * (c.capacity - c.roster.length)) 0

/-- The value that the account of a motion stores. -/
def transactionOf (m : Petition) : Transaction where
  multisig := m.committee
  instructions := m.payload
  signers := m.ballot
  ownerSetSeqno := UInt32.ofNat m.epoch

/-- The account of this program stores the entry, and nothing but zeros where there is
none. -/
def Stores (rt : Runtime) (account : Account) : Entry → Prop
  | .vacant => account.owner = rt.programId → Zeroed account
  | .committee c => account.owner = rt.programId ∧ 0 < account.lamports ∧
      Multisig.checkedDeserialize account.data = .ok (multisigOf c)
  | .motion m => account.owner = rt.programId ∧ 0 < account.lamports ∧
      Transaction.checkedDeserialize account.data = .ok (transactionOf m)

/-- What the history knows of the entry.  Quorums are bytes. -/
def Matches : Occupant → Entry → Prop
  | .vacant, .vacant => True
  | .multisig g, .committee c =>
      g = ⟨c.roster, c.charter, c.capacity, c.epoch⟩ ∧ c.quorum < 256
  | .proposal p, .motion m =>
      p.multisig = m.committee ∧ p.instructions = m.payload ∧ p.epoch = m.epoch
  | _, _ => False

/-- The world stands for the board. -/
structure Mirrors (rt : Runtime) (w : World) (s : Board) : Prop where
  represents : Represents rt w
  few : ∀ m, ownerChanges m w.history < 2 ^ 32
  matched : ∀ k, Matches (w.registry k) (s.item k)
  stores : ∀ k, Stores rt (w.ledger k) (s.item k)
  coherent : s.Coherent

theorem Stores.kept {rt : Runtime} {account account' : Account} {entry : Entry}
    (h : Stores rt account entry) (hkept : Kept rt account account') :
    Stores rt account' entry := by
  cases entry with
  | vacant => exact hkept.zeroed h
  | committee c =>
      obtain ⟨howner, hfunded, hdata⟩ := h
      obtain ⟨howner', hdata', hle⟩ := hkept.owned howner hfunded
      exact ⟨howner', UInt64.lt_of_lt_of_le hfunded hle, by rw [hdata', hdata]⟩
  | motion m =>
      obtain ⟨howner, hfunded, hdata⟩ := h
      obtain ⟨howner', hdata', hle⟩ := hkept.owned howner hfunded
      exact ⟨howner', UInt64.lt_of_lt_of_le hfunded hle, by rw [hdata', hdata]⟩

section Matches

variable {occupant : Occupant} {entry : Entry}

theorem Matches.vacant_iff (h : Matches occupant entry) :
    occupant = .vacant ↔ entry = .vacant := by
  cases occupant <;> cases entry <;> simp_all [Matches]

theorem Matches.committee {g : Group} (h : Matches (.multisig g) entry) :
    ∃ c : Council, entry = .committee c ∧ g = ⟨c.roster, c.charter, c.capacity, c.epoch⟩ ∧
      c.quorum < 256 := by
  cases entry with
  | committee c => exact ⟨c, rfl, h⟩
  | vacant => exact absurd h id
  | motion m => exact absurd h id

theorem Matches.motion {p : Proposal} (h : Matches (.proposal p) entry) :
    ∃ m : Petition, entry = .motion m ∧ p.multisig = m.committee ∧
      p.instructions = m.payload ∧ p.epoch = m.epoch := by
  cases entry with
  | motion m => exact ⟨m, rfl, h⟩
  | vacant => exact absurd h id
  | committee c => exact absurd h id

theorem Matches.not_committee (h : Matches occupant entry)
    (hoccupant : occupant.isMultisig = false) (c : Council) : entry ≠ .committee c := by
  rintro rfl
  cases occupant with
  | multisig g => cases hoccupant
  | vacant => exact h
  | proposal p => exact h

end Matches

namespace Mirrors

variable {rt : Runtime} {w : World} {s : Board} (h : Mirrors rt w s)
include h

theorem item_vacant {k : Pubkey} (hk : w.registry k = .vacant) : s.item k = .vacant :=
  (h.matched k).vacant_iff.mp hk

/-- A multisig that was taken in its role is a committee, and its value is the one that
the committee stores. -/
theorem committee_of_holds {k : Pubkey} {g : Group} {multisig : Multisig}
    (hg : w.registry k = .multisig g)
    (hholds : HoldsMultisig rt k (w.ledger k) g multisig) :
    ∃ c : Council, s.item k = .committee c ∧ multisig = multisigOf c ∧
      g = ⟨c.roster, c.charter, c.capacity, c.epoch⟩ ∧ c.quorum < 256 := by
  have hmatched := h.matched k
  rw [hg] at hmatched
  obtain ⟨c, hc, hgroup, hquorum⟩ := hmatched.committee
  have hstores := h.stores k
  rw [hc] at hstores
  have hdecodes := hstores.2.2
  rw [hholds.decodes] at hdecodes
  exact ⟨c, hc, Except.ok.inj hdecodes, hgroup, hquorum⟩

theorem motion_of_holds {k : Pubkey} {p : Proposal} {transaction : Transaction}
    (hp : w.registry k = .proposal p)
    (hholds : HoldsProposal rt (w.ledger k) p transaction) :
    ∃ m : Petition, s.item k = .motion m ∧ transaction = transactionOf m ∧
      p.multisig = m.committee ∧ p.instructions = m.payload ∧ p.epoch = m.epoch := by
  have hmatched := h.matched k
  rw [hp] at hmatched
  obtain ⟨m, hm, hproposal⟩ := hmatched.motion
  have hstores := h.stores k
  rw [hm] at hstores
  have hdecodes := hstores.2.2
  rw [hholds.decodes] at hdecodes
  exact ⟨m, hm, Except.ok.inj hdecodes, hproposal⟩

end Mirrors

end MultisigNative.Specification
