import MultisigNative.System.Machine

/-!
The size and the balance of an occupied account, in every run: the size stays as it was
when the account was created, and the balance never falls below what this size asks for.
-/

namespace MultisigNative.System

open Library.Transition
open Solana
open State
open Instructions
open Processor

/-- The account is no larger than accounts may be, and need not pay rent. -/
structure Exempt (rt : Runtime) (account : Account) : Prop where
  size_le : account.data.length ≤ maxDataLength
  balance_le : rt.minimumBalance account.data.length ≤ account.lamports

/-- The account has kept its size and has not been debited. -/
structure Preserved (old new : Account) : Prop where
  size_eq : new.data.length = old.data.length
  balance_le : old.lamports ≤ new.lamports

theorem Exempt.preserved {rt : Runtime} {old new : Account} (h : Exempt rt old)
    (hsame : Preserved old new) : Exempt rt new where
  size_le := hsame.size_eq ▸ h.size_le
  balance_le := by
    rw [hsame.size_eq]
    exact UInt64.le_trans h.balance_le hsame.balance_le

section Steps

variable {rt : Runtime} {w w' : World} {label : Label rt} {k : Pubkey}

theorem preserved_writeData {L : Ledger} {data : Library.Borsh.Bytes}
    (h : data.length = (L k).data.length) : Preserved (L k) (writeData L k data k) where
  size_eq := by rw [writeData_self, h]
  balance_le := by rw [writeData_self]; exact UInt64.le_refl _

/-- An account that the system program has created is as large as was asked for. -/
theorem exempt_of_initialised {α : Type} {f : Library.Borsh.Format α} {value : α}
    {payer account : AccountInfo} {len : Nat} {L L' : Ledger} {u : Unit}
    (hlen : (f.encode value).length = len)
    (h : createAndSerialize rt f value len payer account rt.programId L = .ok u L') :
    Exempt rt (L' account.key) := by
  obtain ⟨-, hinit⟩ := initialised_of_createAndSerialize hlen h
  obtain ⟨mid, hcreated, -⟩ := apply_of_createAndSerialize h
  rw [hinit.account_eq]
  exact ⟨hlen ▸ hcreated.space_le, UInt64.le_refl _⟩

/-- A step leaves an occupied account as large as it was and does not debit it, unless it
vacates the address; and an account that it creates is exempt. -/
theorem preserved_or_exempt (hoccupied : Occupied rt w) (h : perform rt w label = some w')
    (hk : w'.registry k ≠ .vacant) :
    (w.registry k ≠ .vacant ∧ Preserved (w.ledger k) (w'.ledger k)) ∨
      (w.registry k = .vacant ∧ Exempt rt (w'.ledger k)) := by
  have heffect := perform_effect h
  by_cases hsubject : label.subject = some k
  · have hclosed : ∀ {L : Ledger} {event : Event}, event.closes k = true →
        w' = ⟨L, event :: w.history⟩ → w'.registry k = .vacant := by
      rintro L event hcloses rfl
      rw [World.registry_cons]
      cases event <;> simp [Event.closes] at hcloses <;> simp [Event.apply, hcloses]
    cases heffect with
    | idle => cases hsubject
    | «foreign» hforeign => cases hsubject
    | started hvalidate => cases hsubject
    | @created m s payer system rest data L' hvalid hfits hinit =>
        obtain rfl := Option.some.inj hsubject
        obtain ⟨L'', hrun, -, hw⟩ := (perform_call_eq_some_iff (by simp)).mp h
        obtain rfl := congrArg World.ledger hw
        rw [runHandler_createMultisig, createMultisig_eq_ok_iff] at hrun
        obtain ⟨_, _, _, _, _, haccounts, -, hcreate⟩ := hrun
        cases haccounts
        exact .inr ⟨hoccupied.vacant_of_unused hinit.unused,
          exempt_of_initialised (Multisig.format_encode_length _) hcreate⟩
    | @configured m s rest instruction multisig written event hsigned hchange hfits =>
        obtain rfl : m.key = k := by cases hchange <;> exact Option.some.inj hsubject
        refine .inl ⟨hoccupied.signed_ne_vacant hsigned hchange, preserved_writeData ?_⟩
        rw [hsigned.data, Multisig.format_encode_length, Multisig.format_encode_length,
          hchange.len_eq hsigned.fits]
    | @proposed m t proposer payer system rest data multisig i L' hvalid hfits hinit =>
        obtain rfl := Option.some.inj hsubject
        obtain ⟨L'', hrun, -, hw⟩ := (perform_call_eq_some_iff (by simp)).mp h
        obtain rfl := congrArg World.ledger hw
        rw [runHandler_proposeTransaction, proposeTransaction_eq_ok_iff] at hrun
        obtain ⟨_, _, _, _, _, _, _, _, haccounts, -, hcreate⟩ := hrun
        cases haccounts
        exact .inr ⟨hoccupied.vacant_of_unused hinit.unused,
          exempt_of_initialised (Transaction.format_encode_length _) hcreate⟩
    | @approved m t approver rest multisig transaction i hvalid =>
        obtain rfl := Option.some.inj hsubject
        refine .inl ⟨(hoccupied.approved_ne_vacant hvalid).2, preserved_writeData ?_⟩
        rw [hvalid.data, Transaction.format_encode_length, Transaction.format_encode_length,
          withSigner_len]
    | cancelled hvalid hclose =>
        obtain rfl := Option.some.inj hsubject
        exact absurd (hclosed (by simp [Event.closes]) rfl) hk
    | closed hclose howner =>
        obtain rfl := Option.some.inj hsubject
        exact absurd (hclosed (by simp [Event.closes]) rfl) hk
  · obtain ⟨hkept, hsame, -⟩ := heffect.frame hsubject
    rw [hsame] at hk
    obtain ⟨howner, hfunded⟩ := (occupies_of_ne_vacant hk).mp (hoccupied.occupies k)
    obtain ⟨-, hdata, hle⟩ := hkept.owned howner hfunded
    exact .inl ⟨hk, congrArg List.length hdata, hle⟩

end Steps

/-- Every occupied account is exempt. -/
structure Rented (rt : Runtime) (w : World) : Prop where
  occupied : Occupied rt w
  exempt : ∀ k, w.registry k ≠ .vacant → Exempt rt (w.ledger k)

namespace Rented

variable {rt : Runtime} {w w' : World} {label : Label rt}

theorem of_initial (h : w.Initial rt) : Rented rt w where
  occupied := .of_initial h
  exempt k hk := absurd (h.vacant k) hk

theorem perform (h : Rented rt w) (hperform : perform rt w label = some w') :
    Rented rt w' where
  occupied := h.occupied.perform hperform
  exempt k hk := by
    rcases preserved_or_exempt h.occupied hperform hk with ⟨hold, hsame⟩ | ⟨-, hexempt⟩
    · exact (h.exempt k hold).preserved hsame
    · exact hexempt

end Rented

theorem rented_of_reachable {rt : Runtime} {allowed : Config rt → Action → Prop}
    {c : Config rt} (h : Reachable Config.Initial step allowed c) :
    Rented rt c.world ∧ Rented rt c.committed := by
  have hworlds : Reachable (World.Initial rt) (System.perform rt) (fun _ _ => True) c.world ∧
      Reachable (World.Initial rt) (System.perform rt) (fun _ _ => True) c.committed :=
    world_of_reachable (fun _ _ _ _ _ _ => trivial) h
  have hrented : ∀ {w : World},
      Reachable (World.Initial rt) (System.perform rt) (fun _ _ => True) w → Rented rt w :=
    fun hw => hw.invariant (fun _ => .of_initial) fun _ _ _ _ hI _ hperform => hI.perform hperform
  exact ⟨hrented hworlds.1, hrented hworlds.2⟩

end MultisigNative.System
