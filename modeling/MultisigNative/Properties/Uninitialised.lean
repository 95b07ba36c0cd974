import MultisigNative.Properties.AtMostOnce

/-!
Accounts of this program that were only allocated.  The system program hands over
accounts that are filled with zeros, and such bytes can decode; still no handler
accepts them.  Only the close at the end of an execution does not look at its
account again.
-/

namespace MultisigNative.Properties

open Library.StateError
open Library.Transition
open Solana
open State
open Instructions
open Processor
open MultisigNative.System
open LocalRuntime

section Positions

/-- The index at which an instruction takes its transaction account. -/
def transactionPosition : MultisigInstruction → Option Nat
  | .proposeTransaction _ => some 1
  | .approveTransaction => some 1
  | .executeTransaction => some 2
  | .cancelTransaction => some 1
  | _ => none

/-- The key is passed as the multisig account, which all instructions take first, or
as the transaction account. -/
def PassedAs (k : Pubkey) (instruction : MultisigInstruction)
    (accounts : List AccountInfo) : Prop :=
  ∃ info, info.key = k ∧
    (accounts[0]? = some info ∨
      ∃ i, transactionPosition instruction = some i ∧ accounts[i]? = some info)

variable {k : Pubkey} {instruction : MultisigInstruction}

theorem passedAs_first {m : AccountInfo} {rest : List AccountInfo}
    (hposition : transactionPosition instruction = none)
    (h : PassedAs k instruction (m :: rest)) : m.key = k := by
  obtain ⟨info, rfl, hfirst | ⟨i, hi, -⟩⟩ := h
  · exact congrArg AccountInfo.key (Option.some.inj hfirst)
  · rw [hposition] at hi
    cases hi

theorem passedAs_transaction {m t : AccountInfo} {rest : List AccountInfo} {i : Nat}
    (hposition : transactionPosition instruction = some i)
    (ht : (m :: rest)[i]? = some t) (h : PassedAs k instruction (m :: rest)) :
    m.key = k ∨ t.key = k := by
  obtain ⟨info, rfl, hfirst | ⟨j, hj, hinfo⟩⟩ := h
  · exact .inl (congrArg AccountInfo.key (Option.some.inj hfirst))
  · obtain rfl := Option.some.inj (hj.symm.trans hposition)
    exact .inr (congrArg AccountInfo.key (Option.some.inj (ht.symm.trans hinfo)))

end Positions

section States

variable {rt : Runtime}

/-- The account was allocated for this program and is filled with zeros. -/
def Uninitialised (rt : Runtime) (account : Account) : Prop :=
  account.owner = rt.programId ∧ Zeroed account

/-- No multisig and no proposal is filled with zeros. -/
theorem vacant_of_uninitialised {w : World} (h : Represents rt w) {k : Pubkey}
    (hk : Uninitialised rt (w.ledger k)) : w.registry k = .vacant := by
  rcases hk with ⟨-, hzeros⟩
  rw [Zeroed] at hzeros
  cases ho : w.registry k with
  | vacant => rfl
  | multisig g =>
      exfalso
      obtain ⟨m, hm⟩ := h.held.exists_multisig ho
      rw [hm.data] at hzeros
      have howners := (Multisig.owners_eq_nil_of_zeros hm.fits hzeros).1
      exact hm.ne_nil (hm.owners.symm.trans howners)
  | proposal p =>
      exfalso
      obtain ⟨t, ht⟩ := h.held.exists_transaction ho
      obtain ⟨g, hg, -⟩ := group_of_proposal h.lawful ho
      obtain ⟨m, hm⟩ := h.held.exists_multisig hg
      rw [ht.data] at hzeros
      have hsystem := Transaction.multisig_eq_of_zeros hzeros
      rw [ht.multisig] at hsystem
      apply h.held.occupied.system_ne_program
      rw [← hsystem]
      exact hm.owner

/-- What an instruction succeeds with was not only allocated. -/
theorem not_passed_of_effect {w w' : World} (h : Occupied rt w) {k : Pubkey}
    (howner : (w.ledger k).owner = rt.programId) (hk : w.registry k = .vacant)
    {instruction : MultisigInstruction} {accounts : List AccountInfo}
    (heffect : Effect rt w (.call instruction accounts) w') :
    ¬ PassedAs k instruction accounts := by
  have hunused : ∀ {key : Pubkey}, w.ledger key = Account.unused → key ≠ k := by
    rintro key hkey rfl
    rw [hkey] at howner
    exact rt.programId_ne howner.symm
  have hoccupied : ∀ {key : Pubkey}, w.registry key ≠ .vacant → key ≠ k := by
    rintro key hkey rfl
    exact hkey hk
  intro hpassed
  cases heffect with
  | created hvalid hfits hinit => exact hunused hinit.unused (passedAs_first rfl hpassed)
  | configured hsigned hchange hfits =>
      refine hoccupied (h.signed_ne_vacant hsigned hchange) (passedAs_first ?_ hpassed)
      cases hchange <;> rfl
  | proposed hvalid hfits hinit =>
      rcases passedAs_transaction rfl rfl hpassed with hm | ht
      · exact hoccupied (h.proposer_ne_vacant hvalid) hm
      · exact hunused hinit.unused ht
  | approved hvalid =>
      obtain ⟨hm, ht⟩ := h.approved_ne_vacant hvalid
      rcases passedAs_transaction rfl rfl hpassed with heq | heq
      · exact hoccupied hm heq
      · exact hoccupied ht heq
  | cancelled hvalid hclose =>
      obtain ⟨hm, ht⟩ := h.cancelled_ne_vacant hvalid
      rcases passedAs_transaction rfl rfl hpassed with heq | heq
      · exact hoccupied hm heq
      · exact hoccupied ht heq

/-- No handler succeeds with such an account, whatever its invocations do. -/
theorem rejected_of_uninitialised {w : World} (h : Occupied rt w) {k : Pubkey}
    (howner : (w.ledger k).owner = rt.programId) (hk : w.registry k = .vacant)
    (environment : Invocation → Handler Unit) {instruction : MultisigInstruction}
    {accounts : List AccountInfo} (hpassed : PassedAs k instruction accounts) (L' : Ledger) :
    callHandler rt environment rt.programId accounts instruction w.ledger ≠ .ok () L' := by
  intro hrun
  by_cases hne : instruction = .executeTransaction
  · subst hne
    obtain ⟨validated, L, hvalidate, -⟩ := bind_eq_ok_iff.mp hrun
    obtain ⟨executor, rest, rfl, hvalid, -⟩ :=
      ExecuteTransaction.validate_eq_ok_iff.mp hvalidate
    obtain ⟨hm, ht⟩ := h.executed_ne_vacant hvalid
    rcases passedAs_transaction rfl rfl hpassed with heq | heq
    · exact hm (heq ▸ hk)
    · exact ht (heq ▸ hk)
  · have hhandler : runHandler rt instruction accounts w.ledger = .ok () L' := by
      rw [← hrun]
      cases instruction with
      | executeTransaction => exact absurd rfl hne
      | _ => rfl
    exact not_passed_of_effect h howner hk (runHandler_effect hne hhandler) hpassed

/-- A step is not about such an account unless it closes one at the end of an
execution. -/
theorem subject_ne_of_uninitialised {w w' : World} (h : Occupied rt w) {k : Pubkey}
    (howner : (w.ledger k).owner = rt.programId) (hk : w.registry k = .vacant)
    {label : Label rt} (heffect : Effect rt w label w')
    (hclose : ∀ e, label = .close e → e.validated.transactionAccount.key ≠ k) :
    label.subject ≠ some k := by
  intro hsubject
  have hnot := fun instruction accounts (hlabel : label = .call instruction accounts) =>
    not_passed_of_effect h howner hk (hlabel ▸ heffect)
  cases heffect with
  | idle => cases hsubject
  | «foreign» hforeign => cases hsubject
  | started hvalidate => cases hsubject
  | created hvalid hfits hinit =>
      exact hnot _ _ rfl ⟨_, Option.some.inj hsubject, .inl rfl⟩
  | @configured m s rest instruction multisig written event hsigned hchange hfits =>
      refine hnot _ _ rfl ⟨m, ?_, .inl rfl⟩
      cases hchange <;> exact Option.some.inj hsubject
  | proposed hvalid hfits hinit =>
      exact hnot _ _ rfl ⟨_, Option.some.inj hsubject, .inr ⟨1, rfl, rfl⟩⟩
  | approved hvalid =>
      exact hnot _ _ rfl ⟨_, Option.some.inj hsubject, .inr ⟨1, rfl, rfl⟩⟩
  | cancelled hvalid hclosed =>
      exact hnot _ _ rfl ⟨_, Option.some.inj hsubject, .inr ⟨1, rfl, rfl⟩⟩
  | closed hclosed _ => exact hclose _ rfl (Option.some.inj hsubject)

end States

section Runs

variable {rt : Runtime}

/-- An execution does not come to its close while its transaction account is one that
was only allocated. -/
def closesInitialised (w : World) : Label rt → Bool
  | .close e =>
      let account := w.ledger e.validated.transactionAccount.key
      !(account.owner == rt.programId && account.data.all (· == 0))
  | _ => true

theorem closes_ne_of_uninitialised {w : World} {label : Label rt} {k : Pubkey}
    (hcondition : closesInitialised w label = true)
    (hk : Uninitialised rt (w.ledger k)) :
    ∀ e, label = .close e → e.validated.transactionAccount.key ≠ k := by
  rintro e rfl rfl
  rcases hk with ⟨howner, hzeros⟩
  have hall : (w.ledger e.validated.transactionAccount.key).data.all (· == 0) = true := by
    simpa [List.all_eq_true, Zeroed] using hzeros
  simp [closesInitialised, howner, hall] at hcondition

/-- What the program can do with an account, in one state of a run, if that was only
allocated: nothing. -/
structure Inert (c : Config rt) (k : Pubkey) : Prop where
  rejected : ∀ (environment : Invocation → Handler Unit) instruction accounts L',
    PassedAs k instruction accounts →
    callHandler rt environment rt.programId accounts instruction c.world.ledger ≠ .ok () L'
  ownerless : ∀ m, Multisig.checkedDeserialize (c.world.ledger k).data = .ok m →
    m.owners = []
  unsigned : ∀ nonce p,
    rt.createProgramAddress [k.bytes, [nonce]] rt.programId = some p →
    (∀ frame ∈ c.stack, isSignerIn frame.accounts p = false) ∧
      (∀ e ∈ executions c.stack, ¬ e.SignsFor p) ∧
      ∀ action instruction accounts stack,
        plan c action = some (.call instruction accounts, stack) →
        isSignerIn accounts p = false
  untouched : ∀ label w', perform rt c.world label = some w' →
    (∀ updates, label ≠ .foreign updates) →
    (∀ e, label = .close e → e.validated.transactionAccount.key ≠ k) →
    (w'.ledger k).owner = rt.programId ∧ (w'.ledger k).data = (c.world.ledger k).data ∧
      (c.world.ledger k).lamports ≤ (w'.ledger k).lamports

/-- The executions that run are of multisigs, so none signs for the address that
belongs to a vacant key. -/
theorem not_signsFor_of_vacant {c : Config rt} (h : RolesKeptConfig rt c) {k p : Pubkey}
    {nonce : UInt8} (hk : c.world.registry k = .vacant)
    (hp : rt.createProgramAddress [k.bytes, [nonce]] rt.programId = some p) :
    ∀ e ∈ executions c.stack, ¬ e.SignsFor p := by
  intro e he hsigns
  have hmultisig := execution_isMultisig h he
  rw [hsigns.key_eq hp, hk] at hmultisig
  cases hmultisig

theorem isSignerIn_eq_false {accounts : List AccountInfo} {key : Pubkey}
    (h : ∀ info ∈ accounts, info.key = key → info.isSigner ≠ true) :
    isSignerIn accounts key = false := by
  rw [← Bool.not_eq_true, isSignerIn_iff]
  rintro ⟨info, hmem, hkey, hsigner⟩
  exact h info hmem hkey hsigner

theorem inert_of_uninitialised {c : Config rt} (h : RolesKeptConfig rt c) {k : Pubkey}
    (hk : Uninitialised rt (c.world.ledger k)) : Inert c k := by
  have hrepresents := represents_of_config h
  have hoccupied := hrepresents.held.occupied
  have hvacant := vacant_of_uninitialised hrepresents hk
  constructor
  · intro environment instruction accounts L' hpassed
    exact rejected_of_uninitialised hoccupied hk.1 hvacant environment hpassed L'
  · intro m hm
    obtain ⟨hfits, hdata⟩ := Multisig.checkedDeserialize_eq_ok_iff.mp hm
    have hzeros := hk.2
    rw [Zeroed, hdata] at hzeros
    exact (Multisig.owners_eq_nil_of_zeros hfits hzeros).1
  · intro nonce p hp
    have hpda := rt.pdaProgram_of_createProgramAddress _ _ _ hp
    have hconfined := confined_of_reachable h
    have hnone := not_signsFor_of_vacant h hvacant hp
    refine ⟨?_, hnone, ?_⟩
    · intro frame hframe
      rw [← Bool.not_eq_true]
      intro hsigner
      obtain ⟨granter, hgranter, e, rfl, hsigns⟩ :=
        hconfined.granted_of_mem hframe ⟨hsigner, hpda⟩
      exact hnone e (mem_executions_iff.mpr hgranter) hsigns
    · intro action instruction accounts stack hplan
      apply isSignerIn_eq_false
      rintro info hmem rfl hsigner
      obtain ⟨e, he, hsigns⟩ :=
        signer_granted (plans_of_plan hplan) hconfined hmem hsigner hpda
      exact hnone e he hsigns
  · intro label w' hperform hprogram hclose
    have heffect := perform_effect hperform
    have hsubject := subject_ne_of_uninitialised hoccupied hk.1 hvacant heffect hclose
    rcases heffect.untouched hsubject hk.1 with ⟨updates, hupdates⟩ | hsame
    · exact absurd hupdates (hprogram updates)
    · exact hsame

/-- What a run has left of an account that was only allocated when it started. -/
structure LeftAlone (c d : Config rt) (k : Pubkey) : Prop where
  owner : (d.world.ledger k).owner = rt.programId
  data : (d.world.ledger k).data = (c.world.ledger k).data
  lamports : (c.world.ledger k).lamports ≤ (d.world.ledger k).lamports

theorem LeftAlone.uninitialised {c d : Config rt} {k : Pubkey} (h : LeftAlone c d k)
    (hk : Uninitialised rt (c.world.ledger k)) : Uninitialised rt (d.world.ledger k) := by
  refine ⟨h.owner, ?_⟩
  intro b hb
  rw [h.data] at hb
  exact hk.2 b hb

theorem leftAlone_step {c c' d : Config rt} {action : Action} {k : Pubkey}
    (h : Represents rt d.world) (hk : Uninitialised rt (c.world.ledger k))
    (hpos : 0 < (c.world.ledger k).lamports) (hleft : LeftAlone c d k)
    (hforward : action ≠ .rollback) (hstep : step d action = some c')
    (hclose : ∀ e stack, plan d action = some (.close e, stack) →
      e.validated.transactionAccount.key ≠ k) : LeftAlone c c' k := by
  rcases step_cases hstep with ⟨label, hplan, hperform, -⟩ | ⟨-, -, rfl⟩ | ⟨rfl, -⟩
  · have heffect := perform_effect hperform
    have hvacant := vacant_of_uninitialised h (hleft.uninitialised hk)
    have hsubject := subject_ne_of_uninitialised h.held.occupied hleft.owner hvacant
      heffect (by rintro e rfl; exact hclose e _ hplan)
    obtain ⟨howner, hdata, hle⟩ := (heffect.frame hsubject).1.owned hleft.owner
      (UInt64.lt_of_lt_of_le hpos hleft.lamports)
    exact ⟨howner, hdata.trans hleft.data, UInt64.le_trans hleft.lamports hle⟩
  · exact ⟨hleft.owner, hleft.data, hleft.lamports⟩
  · exact absurd rfl hforward

/-- A step that takes every account in its role, closes no multisig at the end of an
execution and is not the rollback of the transaction. -/
def Onward (c : Config rt) (action : Action) : Prop :=
  keepsRoles c action = true ∧ action ≠ .rollback

/-- No execution of an account that was only allocated is running, if none was running
when the account was allocated. -/
theorem not_executed_step {c c' : Config rt} {action : Action} {k : Pubkey}
    (h : Represents rt c.world) (hk : Uninitialised rt (c.world.ledger k))
    (hnone : ∀ e ∈ executions c.stack, e.validated.transactionAccount.key ≠ k)
    (hstep : step c action = some c') :
    ∀ e ∈ executions c'.stack, e.validated.transactionAccount.key ≠ k := by
  intro e he
  rcases step_cases hstep with ⟨label, hplan, -, -⟩ | ⟨-, -, rfl⟩ | ⟨-, rfl⟩
  · rcases executions_of_plans (plans_of_plan hplan) he with
      ⟨e₀, he₀, -, hvalidated, -⟩ | ⟨-, hvalidate, -⟩
    · rw [hvalidated]
      exact hnone e₀ he₀
    · obtain ⟨executor, rest, -, hvalid, -⟩ :=
        ExecuteTransaction.validate_eq_ok_iff.mp hvalidate
      rintro rfl
      exact (h.held.occupied.executed_ne_vacant hvalid).2 (vacant_of_uninitialised h hk)
  · exact hnone e he
  · cases he

/-- An account of this program that is filled with zeros is inert, and it stays so
in every run in which no execution comes to its close while such an account is in the
place of its transaction account.  That needs no assumption where no execution
of the address was running when the account was allocated. -/
theorem uninitialised_inert {c : Config rt} (h : RolesKeptConfig rt c) {k : Pubkey}
    (hk : Uninitialised rt (c.world.ledger k)) :
    Inert c k ∧
    (∀ d, 0 < (c.world.ledger k).lamports →
      Reachable (fun s => s = c) step (fun s action => Onward s action ∧
        planned s action (closesInitialised s.world) = true) d →
      LeftAlone c d k ∧ Inert d k) ∧
    ∀ d, 0 < (c.world.ledger k).lamports →
      (∀ e ∈ executions c.stack, e.validated.transactionAccount.key ≠ k) →
      Reachable (fun s => s = c) step Onward d → LeftAlone c d k ∧ Inert d k := by
  have hstart : LeftAlone c c k := ⟨hk.1, rfl, UInt64.le_refl _⟩
  have hinert : ∀ {d : Config rt}, RolesKeptConfig rt d → LeftAlone c d k → Inert d k :=
    fun hd hleft => inert_of_uninitialised hd (hleft.uninitialised hk)
  refine ⟨inert_of_uninitialised h hk, ?_, ?_⟩
  · intro d hpos hrun
    have hlast : RolesKeptConfig rt d ∧ LeftAlone c d k := by
      refine hrun.invariant (I := fun s => RolesKeptConfig rt s ∧ LeftAlone c s k) ?_ ?_
      · rintro s rfl
        exact ⟨h, hstart⟩
      · rintro s action s' - ⟨hrole, hleft⟩ ⟨⟨hok, hforward⟩, hcondition⟩ hstep
        refine ⟨.next hrole hok hstep, leftAlone_step (represents_of_config hrole) hk hpos
          hleft hforward hstep ?_⟩
        intro e stack hplan
        rw [planned, hplan, Option.all_some] at hcondition
        exact closes_ne_of_uninitialised hcondition (hleft.uninitialised hk) e rfl
    exact ⟨hlast.2, hinert hlast.1 hlast.2⟩
  · intro d hpos hnone hrun
    have hlast : RolesKeptConfig rt d ∧ LeftAlone c d k ∧
        ∀ e ∈ executions d.stack, e.validated.transactionAccount.key ≠ k := by
      refine hrun.invariant (I := fun s => RolesKeptConfig rt s ∧ LeftAlone c s k ∧
        ∀ e ∈ executions s.stack, e.validated.transactionAccount.key ≠ k) ?_ ?_
      · rintro s rfl
        exact ⟨h, hstart, hnone⟩
      · rintro s action s' - ⟨hrole, hleft, hothers⟩ ⟨hok, hforward⟩ hstep
        have hrepresents := represents_of_config hrole
        refine ⟨.next hrole hok hstep, leftAlone_step hrepresents hk hpos hleft hforward
          hstep ?_, not_executed_step hrepresents (hleft.uninitialised hk) hothers hstep⟩
        intro e stack hplan
        cases plans_of_plan hplan with
        | call _ _ henters => cases henters
        | invoke _ _ _ henters => cases henters
        | finish hstack hdone =>
            refine hothers e ?_
            rw [hstack, executions_execution]
            exact List.mem_cons_self ..
    exact ⟨hlast.2.1, hinert hlast.1 hlast.2.1⟩

/-- Conversely, an execution that closes such an account takes it from the program. -/
theorem taken_of_closed {c c' : Config rt} {action : Action} {e : Execution rt}
    {stack : List (Frame rt)} (hplan : plan c action = some (.close e, stack))
    (hcondition : closesInitialised c.world (.close e) = false)
    (hstep : step c action = some c') :
    Uninitialised rt (c.world.ledger e.validated.transactionAccount.key) ∧
      c'.world.ledger e.validated.transactionAccount.key = Account.unused := by
  constructor
  · simp only [closesInitialised, Bool.not_eq_false', Bool.and_eq_true, beq_iff_eq,
      List.all_eq_true] at hcondition
    exact hcondition
  · exact unused_of_closed hplan hstep

end Runs

section LocalRuns

/-- Zeros for this program, as many as a multisig without owners and padding takes. -/
def allocated (space : Nat) : Account :=
  ⟨localRuntime.minimumBalance space, localRuntime.programId, List.replicate space 0⟩

def onward (c : Config localRuntime) : Action → Bool
  | .rollback => false
  | action => keepsRoles c action && planned c action (closesInitialised c.world)

theorem onward_iff {c : Config localRuntime} {action : Action}
    (h : onward c action = true) :
    Onward c action ∧ planned c action (closesInitialised c.world) = true := by
  cases action with
  | rollback => cases h
  | _ =>
      simp only [onward, Bool.and_eq_true] at h
      refine ⟨⟨h.1, ?_⟩, h.2⟩
      intro heq
      cases heq

/-- Key 40 was allocated. -/
def allocatedSample : Config localRuntime :=
  (localRun [keyOf 11] [.foreign [(keyOf 40, allocated 14)], .commit]).get
    (by decide +kernel)

/-- Then the sample proposal was made. -/
def allocatedRun : Config localRuntime :=
  (Library.Transition.perform step onward allocatedSample
    (sampleActions [storedNote])).get (by decide +kernel)

theorem uninitialised_inert_sample :
    Uninitialised localRuntime (allocatedSample.world.ledger (keyOf 40)) ∧
      Inert allocatedSample (keyOf 40) ∧ LeftAlone allocatedSample allocatedRun (keyOf 40) ∧
      Inert allocatedRun (keyOf 40) := by
  have hrole : RolesKeptConfig localRuntime allocatedSample :=
    rolesKept_of_localRun (Option.some_get _).symm
  have hk : Uninitialised localRuntime (allocatedSample.world.ledger (keyOf 40)) := by
    refine ⟨by decide +kernel, ?_⟩
    rw [Zeroed]
    decide +kernel
  obtain ⟨hinert, hruns, hunused⟩ := uninitialised_inert hrole hk
  have hpos : 0 < (allocatedSample.world.ledger (keyOf 40)).lamports := by decide +kernel
  have hrun : Reachable (fun s => s = allocatedSample) step (fun s action =>
      Onward s action ∧ planned s action (closesInitialised s.world) = true)
      allocatedRun :=
    reachable_of_perform (fun _ _ => onward_iff) (.init rfl) (Option.some_get _).symm
  obtain ⟨hleft, -⟩ := hruns allocatedRun hpos hrun
  have hempty : executions allocatedSample.stack = [] := by
    rw [show allocatedSample.stack = [] from List.isEmpty_iff.mp (by decide +kernel)]
    rfl
  refine ⟨hk, hinert, hleft, ?_⟩
  refine (hunused allocatedRun hpos ?_ (hrun.mono fun _ _ h => h.1)).2
  intro e he
  rw [hempty] at he
  cases he

/-- Cancels the proposal at 30 and has the system program allocate 30 once more. -/
def reallocating : List TransactionInstructionData :=
  [storedCall [readonly (keyOf 20), writable (keyOf 30), writable (keyOf 11),
      signer (keyOf 11)] .cancelTransaction,
    { programId := systemProgram
      accounts := [⟨keyOf 11, true, true⟩, ⟨keyOf 30, true, true⟩]
      data := [0, 0, 0, 0, 128, 113, 14, 0, 0, 0, 0, 0, 8, 0, 0, 0, 0, 0, 0, 0] ++
        localRuntime.programId.bytes }]

def reallocatingActions : List Action :=
  [localCall [signer (keyOf 20), readonly samplePda, signer (keyOf 11),
      readonly systemProgram] (.createMultisig ⟨[keyOf 11], 1, 5⟩),
    localCall (proposeAccounts (keyOf 30)) (.proposeTransaction ⟨reallocating⟩),
    .commit,
    localCall (doublingAccounts (keyOf 30)) .executeTransaction,
    .invoke, .invoke,
    .foreign [(keyOf 11, ⟨999997842400, systemProgram, []⟩), (keyOf 30, allocated 8)],
    .leave]

def reallocatedSample : Config localRuntime :=
  (localRun [keyOf 11] reallocatingActions).get (by decide +kernel)

/-- The execution of that proposal closes the account that was allocated. -/
theorem uninitialised_closed : RolesKeptConfig localRuntime reallocatedSample ∧
    Uninitialised localRuntime (reallocatedSample.world.ledger (keyOf 30)) ∧
    reallocatedSample.world.ledger (keyOf 30) = allocated 8 ∧
    keepsRoles reallocatedSample .finish = true ∧
    ∃ c', step reallocatedSample .finish = some c' ∧ c'.stack.isEmpty = true ∧
      c'.world.ledger (keyOf 30) = Account.unused := by
  have haccount : reallocatedSample.world.ledger (keyOf 30) = allocated 8 := by
    decide +kernel
  refine ⟨rolesKept_of_localRun (Option.some_get _).symm, ?_, haccount, ?_, ?_⟩
  · rw [haccount]
    exact ⟨rfl, fun b hb => List.eq_of_mem_replicate hb⟩
  · decide +kernel
  · have hstep : ((step reallocatedSample .finish).any fun c' =>
        c'.stack.isEmpty && c'.world.ledger (keyOf 30) == Account.unused) = true := by
      decide +kernel
    obtain ⟨c', hc', hresult⟩ := (Option.any_eq_true _ _).mp hstep
    rw [Bool.and_eq_true] at hresult
    exact ⟨c', hc', hresult.1, eq_of_beq hresult.2⟩

end LocalRuns

end MultisigNative.Properties
