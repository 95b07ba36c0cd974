import MultisigNative.Properties.Cancellation
import MultisigNative.System.Rent

/-!
The lamports of the program's accounts: what is open never has to pay rent, and no
handler makes or loses a lamport.
-/

namespace MultisigNative.Properties

open Library.Transition
open Solana
open State
open Instructions
open Processor
open MultisigNative.System
open LocalRuntime

/-- Whoever calls what with which accounts: the account of every multisig and of every open
proposal belongs to the program, has a size that is allowed and the balance that exempts
this size from rent; and no step changes its size or debits it, as long as it is not closed
or rolled back. -/
theorem accounts_stay_exempt {rt : Runtime} {c : Config rt}
    (h : Reachable Config.Initial step (fun _ _ => True) c) {k : Pubkey}
    (hk : c.world.registry k ≠ .vacant) :
    (c.world.ledger k).owner = rt.programId ∧
      (c.world.ledger k).data.length ≤ maxDataLength ∧
      rt.minimumBalance (c.world.ledger k).data.length ≤ (c.world.ledger k).lamports ∧
      ∀ action c', step c action = some c' → action ≠ .rollback →
        c'.world.registry k ≠ .vacant →
        (c'.world.ledger k).data.length = (c.world.ledger k).data.length ∧
          (c.world.ledger k).lamports ≤ (c'.world.ledger k).lamports := by
  have hrented := (rented_of_reachable h).1
  have hexempt := hrented.exempt k hk
  refine ⟨((occupies_of_ne_vacant hk).mp (hrented.occupied.occupies k)).1, hexempt.size_le,
    hexempt.balance_le, ?_⟩
  intro action c' hstep hrollback hk'
  rcases step_cases hstep with ⟨label, -, hperform, -⟩ | ⟨-, -, rfl⟩ | ⟨rfl, -⟩
  · rcases preserved_or_exempt hrented.occupied hperform hk' with ⟨-, hsame⟩ | ⟨hvacant, -⟩
    · exact ⟨hsame.size_eq, hsame.balance_le⟩
    · exact absurd hvacant hk
  · exact ⟨rfl, UInt64.le_refl _⟩
  · exact absurd rfl hrollback

theorem accounts_stay_exempt_sample :
    (sampleConfig.world.ledger (keyOf 30)).owner = localRuntime.programId ∧
      localRuntime.minimumBalance (sampleConfig.world.ledger (keyOf 30)).data.length ≤
        (sampleConfig.world.ledger (keyOf 30)).lamports := by
  obtain ⟨howner, -, hbalance, -⟩ := accounts_stay_exempt (k := keyOf 30)
    (sampleConfig_rolesKept.mono fun _ _ _ => trivial) (by decide +kernel)
  exact ⟨howner, hbalance⟩

section Totals

variable {rt : Runtime} {S : Finset Pubkey} {L L' : Ledger}

/-- The lamports of the accounts in `S` together. -/
def total (S : Finset Pubkey) (L : Ledger) : Nat := ∑ k ∈ S, (L k).lamports.toNat

/-- The accounts whose lamports a step may move. -/
def movesBetween {rt : Runtime} : Label rt → List Pubkey
  | .call _ accounts => accounts.map fun info => info.key
  | .close e => [e.validated.transactionAccount.key, e.validated.refundee.key]
  | .foreign updates => updates.map Prod.fst
  | _ => []

/-- No other program does anything, and all accounts that are passed are in `S`. -/
def staysWithin (S : Finset Pubkey) (label : Label rt) : Bool :=
  (match label with
    | .foreign _ => false
    | _ => true) && (movesBetween label).all fun k => decide (k ∈ S)

theorem total_eq_of_lamports (h : ∀ k, (L' k).lamports = (L k).lamports) :
    total S L' = total S L :=
  Finset.sum_congr rfl fun k _ => by rw [h k]

theorem total_eq_of_emptied {t refundee : Pubkey} (h : Emptied t refundee L L')
    (hne : refundee ≠ t) (ht : t ∈ S) (hr : refundee ∈ S) : total S L' = total S L :=
  h.sum_lamports hne ht hr

/-- What the payer is debited is what the new account holds. -/
theorem total_eq_of_created {payer account : AccountInfo} {lamports : UInt64} {space : Nat}
    {owner : Pubkey} (h : AccountCreated payer account lamports space owner L L')
    (hp : payer.key ∈ S) (ha : account.key ∈ S) : total S L' = total S L := by
  have hmem : payer.key ∈ S.erase account.key := Finset.mem_erase.mpr ⟨h.payer_ne, hp⟩
  have hrest : ∑ k ∈ (S.erase account.key).erase payer.key, (L' k).lamports.toNat =
      ∑ k ∈ (S.erase account.key).erase payer.key, (L k).lamports.toNat := by
    refine Finset.sum_congr rfl ?_
    intro k hk
    rw [Finset.mem_erase, Finset.mem_erase] at hk
    rw [h.apply_of_ne hk.1 hk.2.1]
  have hpayer : (L' payer.key).lamports.toNat =
      (L payer.key).lamports.toNat - lamports.toNat := by
    rw [h.apply_payer]
    exact UInt64.toNat_sub_of_le _ _ h.payer_lamports
  have hle := UInt64.le_iff_toNat_le.mp h.payer_lamports
  have hunused : (L account.key).lamports.toNat = 0 := by
    rw [h.unused]
    rfl
  have haccount : (L' account.key).lamports = lamports := by rw [h.apply_account]
  rw [total, total, ← Finset.add_sum_erase S _ ha,
    ← Finset.add_sum_erase (S.erase account.key) _ hmem, hrest, hpayer, haccount,
    ← Finset.add_sum_erase S (fun k => (L k).lamports.toNat) ha,
    ← Finset.add_sum_erase (S.erase account.key) (fun k => (L k).lamports.toNat) hmem, hunused]
  omega

theorem total_eq_of_createAndSerialize {α : Type} {f : Library.Borsh.Format α} {value : α}
    {payer account : AccountInfo} {len : Nat} {u : Unit}
    (h : createAndSerialize rt f value len payer account rt.programId L = .ok u L')
    (hp : payer.key ∈ S) (ha : account.key ∈ S) : total S L' = total S L := by
  obtain ⟨_, mid, hcreate, hserialize⟩ := Library.StateError.bind_eq_ok_iff.mp h
  obtain ⟨-, -, rfl⟩ := serializeInto_eq_ok_iff.mp hserialize
  refine (total_eq_of_lamports fun k => ?_).trans
    (total_eq_of_created (rt.accountCreated _ _ _ _ _ _ hcreate) hp ha)
  by_cases hk : k = account.key
  · subst hk
    rw [Function.update_self]
  · rw [Function.update_of_ne hk]

theorem total_writeData (S : Finset Pubkey) (L : Ledger) (key : Pubkey)
    (data : Library.Borsh.Bytes) : total S (writeData L key data) = total S L :=
  total_eq_of_lamports fun k => writeData_lamports key k data

end Totals

section Steps

variable {rt : Runtime} {S : Finset Pubkey} {w w' : World} {label : Label rt}

/-- One step of this program moves lamports between the accounts that it is passed. -/
theorem total_perform (h : perform rt w label = some w')
    (hwithin : staysWithin S label = true) : total S w'.ledger = total S w.ledger := by
  simp only [staysWithin, Bool.and_eq_true, List.all_eq_true, decide_eq_true_eq] at hwithin
  rcases hwithin with ⟨hown, hmem⟩
  cases perform_effect h with
  | idle => rfl
  | started hvalidate => rfl
  | «foreign» hforeign => cases hown
  | @created m s payer system rest data L' hvalid hfits hinit =>
      obtain ⟨L'', hrun, -, hw⟩ := (perform_call_eq_some_iff (by simp)).mp h
      obtain rfl := congrArg World.ledger hw
      rw [runHandler_createMultisig, createMultisig_eq_ok_iff] at hrun
      obtain ⟨_, _, _, _, _, haccounts, -, hcreate⟩ := hrun
      cases haccounts
      exact total_eq_of_createAndSerialize hcreate (hmem _ (by simp [movesBetween]))
        (hmem _ (by simp [movesBetween]))
  | configured hsigned hchange hfits => exact total_writeData S _ _ _
  | @proposed m t proposer payer system rest data multisig i L' hvalid hfits hinit =>
      obtain ⟨L'', hrun, -, hw⟩ := (perform_call_eq_some_iff (by simp)).mp h
      obtain rfl := congrArg World.ledger hw
      rw [runHandler_proposeTransaction, proposeTransaction_eq_ok_iff] at hrun
      obtain ⟨_, _, _, _, _, _, _, _, haccounts, -, hcreate⟩ := hrun
      cases haccounts
      exact total_eq_of_createAndSerialize hcreate (hmem _ (by simp [movesBetween]))
        (hmem _ (by simp [movesBetween]))
  | approved hvalid => exact total_writeData S _ _ _
  | @cancelled m t refundee executor rest multisig transaction L' hvalid hclose =>
      obtain ⟨L'', hrun, -, hw⟩ := (perform_call_eq_some_iff (by simp)).mp h
      obtain rfl := congrArg World.ledger hw
      have hcancel : cancelTransaction rt.programId
          (m :: t :: refundee :: executor :: rest) w.ledger = .ok () L' := hrun
      obtain ⟨_, _, _, _, _, _, _, haccounts, -, hcloses⟩ :=
        cancelTransaction_eq_ok_iff.mp hcancel
      cases haccounts
      exact total_eq_of_emptied (emptied_of_closeAccount hvalid.refundee_ne hcloses)
        hvalid.refundee_ne (hmem _ (by simp [movesBetween])) (hmem _ (by simp [movesBetween]))
  | @closed e L' hclose howner =>
      simp only [System.perform] at h
      split at h
      · rename_i hcloses
        split at h
        · obtain rfl := congrArg World.ledger (Option.some.inj h)
          exact total_eq_of_emptied (emptied_of_closeAccount e.refundee_ne hcloses)
            e.refundee_ne (hmem _ (by simp [movesBetween])) (hmem _ (by simp [movesBetween]))
        · cases h
      · cases h

end Steps

/-- In every run of calls of this program among the accounts of `S`, nested and rolled back
ones included, these accounts have as many lamports together as in the beginning. -/
theorem lamports_conserved {rt : Runtime} {start c : Config rt} (hstart : start.Initial)
    {S : Finset Pubkey} (h : Reachable (fun c => c = start) step
      (fun c action => planned c action (staysWithin S) = true) c) :
    total S c.world.ledger = total S start.world.ledger := by
  refine (h.invariant (I := fun c => total S c.world.ledger = total S start.world.ledger ∧
    total S c.committed.ledger = total S start.world.ledger) ?_ ?_).1
  · rintro c rfl
    exact ⟨rfl, by rw [hstart.committed]⟩
  · rintro c action c' - ⟨hworld, hcommitted⟩ hwithin hstep
    rcases step_cases hstep with ⟨label, hplan, hperform, hsame⟩ | ⟨-, -, rfl⟩ | ⟨-, rfl⟩
    · rw [planned, hplan, Option.all_some] at hwithin
      rw [hsame]
      exact ⟨(total_perform hperform hwithin).trans hworld, hcommitted⟩
    · exact ⟨hworld, hworld⟩
    · exact ⟨hcommitted, hcommitted⟩

section LocalRuns

/-- The accounts of the sample run. -/
def sampleAccounts : Finset Pubkey :=
  {keyOf 20, samplePda, keyOf 11, systemProgram, keyOf 30, keyOf 12}

def conservedSample : Config localRuntime :=
  (anyRun [keyOf 11] (fun c action => planned c action (staysWithin sampleAccounts))
    (sampleActions [⟨keyOf 99, [], [1, 2, 3]⟩])).get (by decide +kernel)

/-- The payer has bought the accounts of a multisig and of a proposal. -/
theorem lamports_conserved_sample :
    (conservedSample.world.ledger (keyOf 11)).lamports < 1000000000000 ∧
      total sampleAccounts conservedSample.world.ledger =
        total sampleAccounts (localStart [keyOf 11]).world.ledger :=
  ⟨by decide +kernel, lamports_conserved (localStart_initial _)
    (reachable_of_perform (fun _ _ h => h) (.init rfl) (Option.some_get _).symm)⟩

end LocalRuns

end MultisigNative.Properties
