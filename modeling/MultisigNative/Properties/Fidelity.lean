import MultisigNative.Properties.Quorum
import MultisigNative.System.Refinement

/-!
What is executed is what was proposed: the instructions stored by a proposal
survive everything that happens until it is closed, and `execute_transaction`
makes exactly these calls.
-/

namespace MultisigNative.Properties

open Library.CallLog
open Library.StateError
open Library.Transition
open Solana
open State
open Instructions
open MultisigNative.System
open LocalRuntime

section Calls

variable {rt : Runtime} {environment : List Invocation → Invocation → Handler Unit}
  {accounts : List AccountInfo} {validated : ValidatedAccounts}

/-- The call that a proposed instruction stands for: signed for with the seeds of the
multisig alone, and the multisig's address signs wherever it occurs. -/
def proposedCall (m : Pubkey) (nonce : UInt8) (pda : Pubkey) (accounts : List AccountInfo)
    (ix : TransactionInstructionData) : Invocation where
  instruction :=
    { programId := ix.programId
      accounts := ix.accounts.map fun acc =>
        ⟨acc.pubkey, acc.isSigner || acc.pubkey == pda, acc.isWritable⟩
      data := ix.data }
  accounts := accounts
  signersSeeds := [[m.bytes, [nonce]]]

theorem signPda_toAccountMeta (validated : ValidatedAccounts)
    (acc : TransactionInstructionAccount) :
    ExecuteTransaction.signPda validated acc.toAccountMeta =
      ⟨acc.pubkey, acc.isSigner || acc.pubkey == validated.multisigSigner.key,
        acc.isWritable⟩ := by
  have hmeta : acc.toAccountMeta = ⟨acc.pubkey, acc.isSigner, acc.isWritable⟩ := by
    rcases acc with ⟨pubkey, isSigner, isWritable⟩
    cases isWritable <;> rfl
  rw [hmeta, ExecuteTransaction.signPda]
  by_cases hpda : acc.pubkey = validated.multisigSigner.key
  · simp [hpda]
  · simp [hpda]

/-- The two conversions of the metas and the rewriting of the signer come to one. -/
theorem toInvocation_eq (validated : ValidatedAccounts) (accounts : List AccountInfo)
    (ix : TransactionInstructionData) :
    ExecuteTransaction.toInvocation validated accounts ix =
      proposedCall validated.multisigAccount.key validated.multisig.nonce
        validated.multisigSigner.key accounts ix := by
  simp only [ExecuteTransaction.toInvocation, proposedCall, ExecuteTransaction.signerSeeds,
    TransactionInstructionData.toInstruction, List.map_map]
  congr 2
  apply List.map_congr_left
  intro acc _
  exact signPda_toAccountMeta validated acc

/-- `execute_transaction` on this ledger makes the calls in their order, those up to
the first that fails: then it returns that error and does nothing more.  If none
fails, it closes the transaction account. -/
def MakesCalls (rt : Runtime) (environment : List Invocation → Invocation → Handler Unit)
    (accounts : List AccountInfo) (L : Ledger) (validated : ValidatedAccounts)
    (calls : List Invocation) : Prop :=
  (∃ L', calls.forM (call environment) (L, []) = .ok () (L', calls) ∧
    executeTransaction rt (call environment) rt.programId accounts (L, []) =
      quietly (closeAccount validated.transactionAccount validated.refundee)
        (L', calls)) ∨
  ∃ done failing rest e mid L', calls = done ++ failing :: rest ∧
    done.forM (call environment) (L, []) = .ok () (mid, done) ∧
    environment done failing mid = .error e L' ∧
    executeTransaction rt (call environment) rt.programId accounts (L, []) =
      .error e (L', done ++ [failing])

theorem makesCalls_of_validate {L L' : Ledger}
    (hvalidate : ExecuteTransaction.validate rt rt.programId accounts L = .ok validated L') :
    MakesCalls rt environment accounts L validated (invocations accounts validated) := by
  have hrun : executeTransaction rt (call environment) rt.programId accounts (L, []) = _ :=
    executeTransaction_of_validate hvalidate
  rcases forM_call_cases environment (invocations accounts validated) L [] with
    ⟨L', hall⟩ | ⟨done, failing, rest, e, mid, L', hsplit, hdone, hfails, hall⟩
  · left
    rw [hrun, bind_of_ok hall]
    exact ⟨L', hall, rfl⟩
  · right
    rw [hrun, bind_of_error hall]
    exact ⟨done, failing, rest, e, mid, L', hsplit, hdone, hfails, rfl⟩

end Calls

section Storage

variable {rt : Runtime} {w w' : World} {label : Label rt} {t m : Pubkey}
  {instructions : List TransactionInstructionData}

/-- The account stores a proposal of `m` with these instructions. -/
def Stores (rt : Runtime) (account : Account) (m : Pubkey)
    (instructions : List TransactionInstructionData) : Prop :=
  account.owner = rt.programId ∧ 0 < account.lamports ∧
    ∃ transaction, account.data = Transaction.format.encode transaction ∧
      Transaction.format.fits transaction = true ∧ transaction.multisig = m ∧
      transaction.instructions = instructions

/-- The step does not take the account at `t` as a multisig. -/
def takenAsTransaction (t : Pubkey) (label : Label rt) : Bool :=
  labelMultisig label != some t

theorem Stores.ne_unused {account : Account} (h : Stores rt account m instructions) :
    account ≠ Account.unused := by
  rintro rfl
  exact rt.programId_ne h.1.symm

/-- A step that neither takes it as a multisig nor closes it leaves what an account
stores. -/
theorem stores_effect (h : Stores rt (w.ledger t) m instructions)
    (heffect : Effect rt w label w') (hrole : takenAsTransaction t label = true)
    (hopen : ∀ event, w'.history = event :: w.history → event.closes t = false) :
    Stores rt (w'.ledger t) m instructions := by
  by_cases ht : label.subject = some t
  · cases heffect with
    | idle => cases ht
    | «foreign» hforeign => cases ht
    | started hvalidate => cases ht
    | created hvalid hfits hinit =>
        obtain rfl := Option.some.inj ht
        exact absurd hinit.unused h.ne_unused
    | @configured m' s rest instruction multisig written event hsigned hchange hfits =>
        obtain rfl : m'.key = t := by cases hchange <;> exact Option.some.inj ht
        cases hchange <;> simp [takenAsTransaction, labelMultisig, multisigArg] at hrole
    | proposed hvalid hfits hinit =>
        obtain rfl := Option.some.inj ht
        exact absurd hinit.unused h.ne_unused
    | @approved m' t' approver rest multisig transaction i hvalid =>
        obtain rfl := Option.some.inj ht
        rcases h with ⟨howner, hfunded, stored, hdata, hfits, hm, hinstructions⟩
        obtain rfl : transaction = stored := Transaction.format.encode_injective hvalid.fits
          hfits (hvalid.data.symm.trans hdata)
        simp only [writeData_self]
        exact ⟨howner, hfunded, withSigner transaction i, rfl,
          (withSigner_fits transaction i).trans hfits, hm, hinstructions⟩
    | cancelled hvalid hclose =>
        obtain rfl := Option.some.inj ht
        have hnot := hopen _ rfl
        simp [Event.closes] at hnot
    | closed hclose howner =>
        obtain rfl := Option.some.inj ht
        have hnot := hopen _ rfl
        simp [Event.closes] at hnot
  · rcases h with ⟨howner, hfunded, transaction, hdata, hstored⟩
    obtain ⟨howner', hdata', hle⟩ := (heffect.frame ht).1.owned howner hfunded
    exact ⟨howner', UInt64.lt_of_lt_of_le hfunded hle, transaction, hdata'.trans hdata,
      hstored⟩

theorem stores_proposed {signers : List Pubkey} (heffect : Effect rt w label w')
    (hhistory : w'.history = .proposed m t signers instructions :: w.history) :
    Stores rt (w'.ledger t) m instructions := by
  have hgrown : w'.history ≠ w.history := by
    intro hsame
    have hlen := congrArg List.length (hsame.symm.trans hhistory)
    simp at hlen
  cases heffect with
  | idle => exact absurd rfl hgrown
  | «foreign» hforeign => exact absurd rfl hgrown
  | started hvalidate => exact absurd rfl hgrown
  | configured hsigned hchange hfits =>
      obtain ⟨hevent, -⟩ := List.cons.inj hhistory
      cases hchange <;> cases hevent
  | proposed hvalid hfits hinit =>
      obtain ⟨hevent, -⟩ := List.cons.inj hhistory
      cases hevent
      refine ⟨?_, ?_, _, ?_, hfits, rfl, rfl⟩ <;> simp only [hinit.account_eq]
      exact rt.minimumBalance_pos _
  | _ =>
      obtain ⟨hevent, -⟩ := List.cons.inj hhistory
      cases hevent

/-- What the last proposal at `t` submitted is stored there until it is closed. -/
def StoresProposed (rt : Runtime) (t : Pubkey) (w : World) : Prop :=
  ∀ later earlier m signers instructions,
    w.history = later ++ .proposed m t signers instructions :: earlier →
    (∀ event ∈ later, event.closes t = false) → Stores rt (w.ledger t) m instructions

theorem storesProposed_effect (h : StoresProposed rt t w) (heffect : Effect rt w label w')
    (hrole : takenAsTransaction t label = true) : StoresProposed rt t w' := by
  intro later earlier m signers instructions hhistory hopen
  have hold : ∀ later', w.history = later' ++ .proposed m t signers instructions :: earlier →
      (∀ event ∈ later', event.closes t = false) →
      (∀ event, w'.history = event :: w.history → event.closes t = false) →
      Stores rt (w'.ledger t) m instructions := fun later' hw hlater hevent =>
    stores_effect (h later' earlier m signers instructions hw hlater) heffect hrole hevent
  have hgrown : w'.history = w.history ∨ ∃ event, w'.history = event :: w.history := by
    cases heffect with
    | idle => exact .inl rfl
    | «foreign» hforeign => exact .inl rfl
    | started hvalidate => exact .inl rfl
    | _ => exact .inr ⟨_, rfl⟩
  rcases hgrown with hsame | ⟨event, hevent⟩
  · refine hold later (hsame.symm.trans hhistory) hopen ?_
    intro event hevent
    have hlen := congrArg List.length (hsame.symm.trans hevent)
    simp at hlen
  · rw [hevent] at hhistory
    cases later with
    | cons first later =>
        obtain ⟨rfl, hw⟩ := List.cons.inj hhistory
        refine hold later hw (fun event hmem => hopen event (List.mem_cons_of_mem _ hmem)) ?_
        intro event' hevent'
        obtain rfl := (List.cons.inj (hevent.symm.trans hevent')).1
        exact hopen event (List.mem_cons_self ..)
    | nil =>
        obtain ⟨rfl, rfl⟩ := List.cons.inj hhistory
        exact stores_proposed heffect hevent

/-- The configurations of the runs that never take the account at `t` as a multisig. -/
def AsTransactionConfig (rt : Runtime) (t : Pubkey) : Config rt → Prop :=
  Reachable Config.Initial step fun c action => planned c action (takenAsTransaction t) = true

theorem storesProposed_of_config {c : Config rt} (h : AsTransactionConfig rt t c) :
    StoresProposed rt t c.world := by
  have hworld : Reachable (World.Initial rt) (perform rt)
      (fun _ label => takenAsTransaction t label = true) c.world := by
    refine (world_of_reachable ?_ h).1
    intro c action label stack hallowed hplan
    rwa [planned, hplan, Option.all_some] at hallowed
  refine hworld.invariant (I := StoresProposed rt t) ?_ ?_
  · intro w hinit later earlier m signers instructions hhistory
    rw [hinit.history] at hhistory
    simp at hhistory
  · intro w label w' _ hstores hrole hperform
    exact storesProposed_effect hstores (perform_effect hperform) hrole

end Storage

/-- Whatever happens to a proposal before it is closed, an execution of it makes
exactly the calls that were proposed, in their order, up to the first that fails;
then it fails as well and does not close the account. -/
theorem executed_as_proposed {rt : Runtime} {t : Pubkey} {c : Config rt}
    (h : AsTransactionConfig rt t c) {later earlier : List Event} {m : Pubkey}
    {signers : List Pubkey} {instructions : List TransactionInstructionData}
    (hproposed : c.world.history = later ++ .proposed m t signers instructions :: earlier)
    (hopen : ∀ event ∈ later, event.closes t = false) {accounts : List AccountInfo}
    {validated : ValidatedAccounts} {L : Ledger}
    (hvalidate : ExecuteTransaction.validate rt rt.programId accounts c.world.ledger =
      .ok validated L) (ht : validated.transactionAccount.key = t)
    (environment : List Invocation → Invocation → Handler Unit) :
    ∃ multisig pda, Multisig.checkedDeserialize (c.world.ledger m).data = .ok multisig ∧
      rt.createProgramAddress [m.bytes, [multisig.nonce]] rt.programId = some pda ∧
      MakesCalls rt environment accounts c.world.ledger validated
        (instructions.map (proposedCall m multisig.nonce pda accounts)) := by
  obtain ⟨-, -, stored, hdata, hfits, hm, hinstructions⟩ :=
    storesProposed_of_config h later earlier m signers instructions hproposed hopen
  obtain ⟨executor, rest, -, hvalid, -⟩ :=
    ExecuteTransaction.validate_eq_ok_iff.mp hvalidate
  obtain rfl : validated.transaction = stored := by
    refine Transaction.format.encode_injective hvalid.fits hfits ?_
    rw [← hdata, ← ht]
    exact hvalid.data.symm
  obtain rfl : validated.multisigAccount.key = m := hvalid.multisig_eq.symm.trans hm
  refine ⟨validated.multisig, validated.multisigSigner.key, ?_, hvalid.pda, ?_⟩
  · exact hvalid.multisig_decodes
  · have hcalls : MakesCalls rt environment accounts c.world.ledger validated _ :=
      makesCalls_of_validate hvalidate
    rw [invocations, hinstructions] at hcalls
    have hmap : instructions.map (ExecuteTransaction.toInvocation validated accounts) =
        instructions.map (proposedCall validated.multisigAccount.key
          validated.multisig.nonce validated.multisigSigner.key accounts) :=
      List.map_congr_left fun ix _ => toInvocation_eq validated accounts ix
    rwa [hmap] at hcalls

section LocalRuns

/-- A call for another program that pays from the multisig's address. -/
def sampleTransfer : TransactionInstructionData :=
  ⟨keyOf 99, [⟨samplePda, false, true⟩, ⟨keyOf 12, false, true⟩], [1, 2, 3]⟩

def fidelitySample : Config localRuntime :=
  (anyRun [keyOf 11] (fun c action => planned c action (takenAsTransaction (keyOf 30)))
    (sampleActions [sampleTransfer])).get (by decide +kernel)

theorem fidelitySample_reachable :
    AsTransactionConfig localRuntime (keyOf 30) fidelitySample :=
  reachable_of_perform (fun _ _ h => h) (.init (localStart_initial _))
    (Option.some_get _).symm

theorem executed_as_proposed_sample : ∃ validated L,
    ExecuteTransaction.validate localRuntime localRuntime.programId sampleExecuteAccounts
      fidelitySample.world.ledger = .ok validated L ∧
    ∃ multisig pda,
      Multisig.checkedDeserialize (fidelitySample.world.ledger (keyOf 20)).data =
        .ok multisig ∧
      localRuntime.createProgramAddress [(keyOf 20).bytes, [multisig.nonce]]
        localRuntime.programId = some pda ∧
      MakesCalls localRuntime (fun _ _ => pure ()) sampleExecuteAccounts
        fidelitySample.world.ledger validated
        [proposedCall (keyOf 20) multisig.nonce pda sampleExecuteAccounts
          sampleTransfer] := by
  have hhistory : fidelitySample.world.history =
      [.approved (keyOf 20) (keyOf 30) [keyOf 12]] ++
        .proposed (keyOf 20) (keyOf 30) [keyOf 30, keyOf 11, keyOf 11] [sampleTransfer] ::
          [.multisigCreated (keyOf 20) [keyOf 11, keyOf 12, keyOf 13] 5] := by
    decide +kernel
  obtain ⟨validated, L, hvalidate⟩ := succeeds_eq_true_iff.mp
    (show succeeds (ExecuteTransaction.validate localRuntime localRuntime.programId
      sampleExecuteAccounts) fidelitySample.world.ledger = true by decide +kernel)
  obtain ⟨executor, rest, haccounts, -, -⟩ :=
    ExecuteTransaction.validate_eq_ok_iff.mp hvalidate
  have hkey : validated.transactionAccount.key = keyOf 30 := by
    have hinfo := (List.cons.inj (List.cons.inj (List.cons.inj haccounts).2).2).1
    rw [← hinfo]
    rfl
  exact ⟨validated, L, hvalidate, executed_as_proposed fidelitySample_reachable hhistory
    (by decide) hvalidate hkey fun _ _ => pure ()⟩

end LocalRuns

end MultisigNative.Properties
