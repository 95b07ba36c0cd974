import MultisigNative.Properties.Specification

/-!
Multisigs do not interfere with each other: what a multisig and its open transactions
have come to can be told from the calls that concern it.
-/

namespace MultisigNative.Properties

open Library.Simulation
open Library.Voting
open Library.Borsh
open Solana
open State
open Instructions
open Processor
open MultisigNative.System
open MultisigNative.Specification
open LocalRuntime

/-- The intended steps in which an execution that ends closes a proposal of its own
multisig, or none. -/
def orderly {rt : Runtime} (c : Config rt) (action : Action) : Bool :=
  intended c action && planned c action (closesOwn c)

abbrev OrderlyRun (rt : Runtime) : Config rt → List Deed → List Deed → Prop :=
  Journal Config.Initial step (fun c action => orderly c action = true) meaning

/-- The bytes of the account at `k`, if it is the multisig at `m` or an open transaction
of it. -/
def recordOf (w : World) (m k : Pubkey) : Option Bytes :=
  match w.registry k with
  | .vacant => none
  | .multisig _ => if k = m then some (w.ledger k).data else none
  | .proposal p => if p.multisig = m then some (w.ledger k).data else none

/-- The bytes that an entry is stored in. -/
def bytesOf : Entry → Option Bytes
  | .vacant => none
  | .committee c => some (Multisig.format.encode (multisigOf c))
  | .motion m => some (Transaction.format.encode (transactionOf m))

theorem recordOf_eq {rt : Runtime} {w : World} {s : Board} (h : Mirrors rt w s)
    (m k : Pubkey) : recordOf w m k = bytesOf ((s.view m).item k) := by
  have hmatched := h.matched k
  have hstores := h.stores k
  rw [recordOf]
  change _ = bytesOf ((s.item k).seen m k)
  cases hregistry : w.registry k with
  | vacant =>
      rw [hregistry] at hmatched
      rw [hmatched.vacant_iff.mp rfl]
      rfl
  | multisig g =>
      rw [hregistry] at hmatched
      obtain ⟨c, hc, -, -⟩ := hmatched.committee
      rw [hc] at hstores
      obtain ⟨-, hdata⟩ := Multisig.checkedDeserialize_eq_ok_iff.mp hstores.2.2
      simp only [hc, hdata, Item.seen]
      by_cases hk : k = m
      · simp [hk, bytesOf]
      · simp [hk, bytesOf]
  | proposal p =>
      rw [hregistry] at hmatched
      obtain ⟨motion, hmotion, hcommittee, -⟩ := hmatched.motion
      rw [hmotion] at hstores
      obtain ⟨-, hdata⟩ := Transaction.checkedDeserialize_eq_ok_iff.mp hstores.2.2
      simp only [hmotion, hdata, hcommittee, Item.seen]
      by_cases hm : motion.committee = m
      · simp [hm, bytesOf]
      · simp [hm, bytesOf]

theorem simulates_orderly {rt : Runtime} :
    Simulates (Config.Initial : Config rt → Prop) step
      (fun c action => orderly c action = true) meaning OrderlyStep .empty Stands := by
  refine (simulates Stands.of_initial).narrow (fun h => (Bool.and_eq_true_iff.mp h).1) ?_
  intro c action s s' back deed hstands hallowed hmeaning hstep
  obtain ⟨label, hdeed, hcloses⟩ :=
    planned_of_event hmeaning (Bool.and_eq_true_iff.mp hallowed).2
  exact ⟨hstep, hstands.world.orderly hdeed hcloses⟩

/-- Two runs with the same calls that concern a multisig, in the same order, leave the same
bytes in it and in its open transactions, whatever else happens in either. -/
theorem multisigs_independent {rt : Runtime} {c₁ c₂ : Config rt}
    {deeds₁ kept₁ deeds₂ kept₂ : List Deed} (h₁ : OrderlyRun rt c₁ deeds₁ kept₁)
    (h₂ : OrderlyRun rt c₂ deeds₂ kept₂) {m : Pubkey}
    (hsame : deeds₁.filter (fun deed => deed.committee = m) =
      deeds₂.filter fun deed => deed.committee = m) (k : Pubkey) :
    recordOf c₁.world m k = recordOf c₂.world m k := by
  obtain ⟨s₁, _, hrun₁, -, hstands₁⟩ := simulates_orderly.runs h₁
  obtain ⟨s₂, _, hrun₂, -, hstands₂⟩ := simulates_orderly.runs h₂
  rw [recordOf_eq hstands₁.world, recordOf_eq hstands₂.world,
    view_eq_of_runs hrun₁ hrun₂ hsame]

section LocalRuns

def orderlyRun (funded : List Pubkey) (actions : List Action) :
    Option (Config localRuntime × List Deed × List Deed) :=
  record step orderly meaning (localStart funded) [] [] actions

/-- The address that signs for the multisig at key 21, of nonce 6. -/
def otherPda : Pubkey := ⟨(keyOf 21).bytes.take 30 ++ [pdaMark, 6], rfl⟩

/-- Owners of the sample multisig have another one at key 21. -/
def otherActions : List Action :=
  [localCall [signer (keyOf 21), readonly otherPda, signer (keyOf 11),
      readonly systemProgram] (.createMultisig ⟨[keyOf 12, keyOf 11], 1, 6⟩),
    localCall [readonly (keyOf 21), signer (keyOf 31), signer (keyOf 11),
      signer (keyOf 11), readonly systemProgram] (.proposeTransaction ⟨[storedNote]⟩)]

theorem orderlyRun_lowering : ∃ c, orderlyRun [keyOf 11] loweringActions =
    some (c, loweringDeeds, loweringDeeds.drop 3) := by
  have hrun : (orderlyRun [keyOf 11] loweringActions).map Prod.snd =
      some (loweringDeeds, loweringDeeds.drop 3) := by
    decide +kernel
  obtain ⟨⟨c, journal⟩, hrun, hjournal⟩ := Option.map_eq_some_iff.mp hrun
  subst hjournal
  exact ⟨c, hrun⟩

theorem orderlyRun_other : ∃ c deeds kept,
    orderlyRun [keyOf 11] (otherActions ++ loweringActions) = some (c, deeds, kept) ∧
      deeds.filter (fun deed => deed.committee = keyOf 20) = loweringDeeds := by
  have hrun : ((orderlyRun [keyOf 11] (otherActions ++ loweringActions)).map fun result =>
      result.2.1.filter fun deed => deed.committee = keyOf 20) = some loweringDeeds := by
    decide +kernel
  obtain ⟨⟨c, deeds, kept⟩, hrun, hjournal⟩ := Option.map_eq_some_iff.mp hrun
  exact ⟨c, deeds, kept, hrun, hjournal⟩

theorem multisigs_independent_sample : ∃ c₁ c₂ : Config localRuntime,
    orderlyRun [keyOf 11] loweringActions =
        some (c₁, loweringDeeds, loweringDeeds.drop 3) ∧
      (∃ deeds kept, orderlyRun [keyOf 11] (otherActions ++ loweringActions) =
        some (c₂, deeds, kept)) ∧
      ∀ k, recordOf c₁.world (keyOf 20) k = recordOf c₂.world (keyOf 20) k := by
  obtain ⟨c₁, hrun₁⟩ := orderlyRun_lowering
  obtain ⟨c₂, deeds, kept, hrun₂, hsame⟩ := orderlyRun_other
  refine ⟨c₁, c₂, hrun₁, ⟨deeds, kept, hrun₂⟩, ?_⟩
  refine multisigs_independent
    (journal_of_record (fun _ _ h => h) (.init (localStart_initial [keyOf 11])) hrun₁)
    (journal_of_record (fun _ _ h => h) (.init (localStart_initial [keyOf 11])) hrun₂) ?_
  rw [hsame]
  decide +kernel

end LocalRuns

end MultisigNative.Properties
