import MultisigNative.System.Machine

/-!
What is enough for the machine to go on: one rule for each action.
-/

namespace MultisigNative.System

open Library.Borsh
open Solana
open State
open Instructions
open Processor

variable {rt : Runtime} {c : Config rt} {w : World} {stack rest : List (Frame rt)}
  {accounts : List AccountInfo} {data : Bytes} {action : Action} {label : Label rt}
  {e : Execution rt}

section Entering

theorem mayEnter_nil {programId : Pubkey} (h : 0 < rt.maxStackHeight) :
    mayEnter ([] : List (Frame rt)) programId = true := by
  simp [mayEnter, h]

/-- The program may call itself as long as there is room on the stack. -/
theorem mayEnter_self (h : rest.length + 1 < rt.maxStackHeight) :
    mayEnter (.execution e :: rest) rt.programId = true := by
  simp [mayEnter, h, Frame.programId]

theorem enter_handler {instruction : MultisigInstruction}
    (henter : mayEnter stack rt.programId = true)
    (hdecode : MultisigInstruction.format.tryFromSlice data = some instruction)
    (hne : instruction ≠ .executeTransaction)
    (hroom : createsAccount instruction = true → stack.length + 1 < rt.maxStackHeight) :
    enter w stack rt.programId accounts data = some (.call instruction accounts, stack) := by
  have hcreates : (createsAccount instruction &&
      decide (rt.maxStackHeight ≤ stack.length + 1)) = false := by
    cases hc : createsAccount instruction with
    | false => rfl
    | true => simpa using hroom hc
  simp only [enter, henter, Bool.not_true, Bool.false_eq_true, if_false, dif_pos, hdecode]
  cases instruction with
  | executeTransaction => exact absurd rfl hne
  | _ => simp only [hcreates, Bool.false_eq_true, if_false]

theorem enter_execution {validated : ValidatedAccounts}
    (henter : mayEnter stack rt.programId = true)
    (hdecode : MultisigInstruction.format.tryFromSlice data = some .executeTransaction)
    (hvalidate : ExecuteTransaction.validate rt rt.programId accounts w.ledger =
      .ok validated w.ledger) :
    ∃ e : Execution rt, e.accounts = accounts ∧ e.validated = validated ∧
      e.remaining = validated.transaction.instructions ∧
      enter w stack rt.programId accounts data =
        some (.start accounts, .execution e :: stack) := by
  simp only [enter, henter, Bool.not_true, Bool.false_eq_true, if_false, dif_pos, hdecode]
  split
  · rename_i validated' L hvalidate'
    rw [hvalidate'] at hvalidate
    obtain ⟨rfl, -⟩ := EStateM.Result.ok.inj hvalidate
    exact ⟨_, rfl, rfl, rfl, rfl⟩
  · rename_i hvalidate'
    rw [hvalidate'] at hvalidate
    cases hvalidate

/-- An execution is all that such a call can start. -/
theorem execution_of_enter {stack' : List (Frame rt)}
    (hdecode : MultisigInstruction.format.tryFromSlice data = some .executeTransaction)
    (h : enter w stack rt.programId accounts data = some (label, stack')) :
    ∃ e : Execution rt, label = .start accounts ∧ stack' = .execution e :: stack ∧
      e.accounts = accounts ∧
      ExecuteTransaction.validate rt rt.programId accounts w.ledger = .ok e.validated w.ledger ∧
      e.remaining = e.validated.transaction.instructions := by
  simp only [enter, dif_pos, hdecode] at h
  split at h
  · cases h
  · split at h
    · rename_i validated L hvalidate
      obtain ⟨_, _, _, _, rfl⟩ := ExecuteTransaction.validate_eq_ok_iff.mp hvalidate
      simp only [Option.some.injEq, Prod.mk.injEq] at h
      rcases h with ⟨rfl, rfl⟩
      exact ⟨_, rfl, rfl, rfl, hvalidate, rfl⟩
    · cases h

/-- The runtime lets a call of this program through: there is room for it on the stack, and
the program can read what is asked of it. -/
structure Admitted (stack : List (Frame rt)) (data : Bytes)
    (instruction : MultisigInstruction) : Prop where
  enters : mayEnter stack rt.programId = true
  decodes : MultisigInstruction.format.tryFromSlice data = some instruction
  room : createsAccount instruction = true → stack.length + 1 < rt.maxStackHeight

/-- Such a call goes on to the step that the instruction comes to. -/
theorem enter_of_perform {instruction : MultisigInstruction} {w' : World}
    (h : Admitted stack data instruction)
    (hperform : perform rt w (labelOf accounts instruction) = some w') :
    ∃ stack', enter w stack rt.programId accounts data =
      some (labelOf accounts instruction, stack') := by
  by_cases hexecute : instruction = .executeTransaction
  · subst hexecute
    simp only [labelOf, perform] at hperform
    split at hperform
    · rename_i validated L hvalidate
      obtain ⟨_, _, _, _, rfl⟩ := ExecuteTransaction.validate_eq_ok_iff.mp hvalidate
      obtain ⟨e, -, -, -, henter⟩ := enter_execution h.enters h.decodes hvalidate
      exact ⟨_, henter⟩
    · cases hperform
  · refine ⟨stack, ?_⟩
    rw [enter_handler h.enters h.decodes hexecute h.room]
    cases instruction with
    | executeTransaction => exact absurd rfl hexecute
    | _ => rfl

/-- It comes to no other step. -/
theorem label_of_enter {instruction : MultisigInstruction} {stack' : List (Frame rt)}
    (hdecode : MultisigInstruction.format.tryFromSlice data = some instruction)
    (h : enter w stack rt.programId accounts data = some (label, stack')) :
    label = labelOf accounts instruction := by
  by_cases hexecute : instruction = .executeTransaction
  · subst hexecute
    obtain ⟨_, hlabel, -⟩ := execution_of_enter hdecode h
    exact hlabel
  · have hhandler : label = .call instruction accounts := by
      simp only [enter, dif_pos, hdecode] at h
      split at h
      · cases h
      · cases instruction with
        | executeTransaction => exact absurd rfl hexecute
        | _ =>
            split at h
            · cases h
            · exact (Prod.mk.inj (Option.some.inj h)).1.symm
    rw [hhandler]
    cases instruction with
    | executeTransaction => exact absurd rfl hexecute
    | _ => rfl

end Entering

section Planning

theorem plan_call_eq {programId : Pubkey}
    (hcaller : ∀ e, c.stack.head? ≠ some (.execution e))
    (hpass : accounts.all (mayPass c.stack.head? []) = true) :
    plan c (.call programId accounts data) =
      enter c.world c.stack programId accounts data := by
  simp only [plan]
  split
  · rename_i e rest hstack
    exact absurd (by rw [hstack, List.head?_cons]) (hcaller e)
  · rw [hpass, if_pos rfl]

theorem plan_call {programId : Pubkey} (hstack : c.stack = [])
    (hpass : accounts.all (@mayPass rt none []) = true)
    (henter : enter c.world [] programId accounts data = some (label, stack)) :
    plan c (.call programId accounts data) = some (label, stack) := by
  rw [plan_call_eq (by simp [hstack]) (by rwa [hstack]), hstack, henter]

theorem plan_invoke_eq {ix : TransactionInstructionData}
    {remaining : List TransactionInstructionData} {invocation : Invocation}
    (hstack : c.stack = .execution e :: rest) (hremaining : e.remaining = ix :: remaining)
    (hinvocation : ExecuteTransaction.toInvocation e.validated e.accounts ix = invocation)
    (hpass : (calleeInfos invocation.instruction.accounts).all
      (mayPass (some (.execution e)) invocation.signersSeeds) = true) :
    plan c .invoke = enter c.world (.execution { e with remaining := remaining } :: rest)
      invocation.instruction.programId (calleeInfos invocation.instruction.accounts)
      invocation.instruction.data := by
  subst hinvocation
  simp only [plan, hstack, hremaining, hpass, if_true]

theorem plan_invoke {ix : TransactionInstructionData}
    {remaining : List TransactionInstructionData} {invocation : Invocation}
    (hstack : c.stack = .execution e :: rest) (hremaining : e.remaining = ix :: remaining)
    (hinvocation : ExecuteTransaction.toInvocation e.validated e.accounts ix = invocation)
    (hpass : (calleeInfos invocation.instruction.accounts).all
      (mayPass (some (.execution e)) invocation.signersSeeds) = true)
    (henter : enter c.world (.execution { e with remaining := remaining } :: rest)
      invocation.instruction.programId (calleeInfos invocation.instruction.accounts)
      invocation.instruction.data = some (label, stack)) :
    plan c .invoke = some (label, stack) := by
  rw [plan_invoke_eq hstack hremaining hinvocation hpass, henter]

theorem plan_finish (hstack : c.stack = .execution e :: rest) (hremaining : e.remaining = []) :
    plan c .finish = some (.close e, rest) := by
  simp [plan, hstack, hremaining]

end Planning

theorem step_of_plan (hplan : plan c action = some (label, stack))
    (hperform : perform rt c.world label = some w) :
    step c action = some ⟨w, stack, c.committed⟩ := by
  cases action with
  | commit => cases hplan
  | rollback => cases hplan
  | _ => simp [step, hplan, hperform]

section Asking

/-- The runtime passes the action on to this program, which will perform the step or
refuse it. -/
inductive Asks (c : Config rt) : Action → Label rt → Prop
  | call {accounts : List AccountInfo} {data : Bytes} {instruction : MultisigInstruction}
      (hcaller : ∀ e, c.stack.head? ≠ some (.execution e))
      (hpass : accounts.all (mayPass c.stack.head? []) = true)
      (hadmitted : Admitted c.stack data instruction) :
      Asks c (.call rt.programId accounts data) (labelOf accounts instruction)
  | invoke {e : Execution rt} {rest : List (Frame rt)} {ix : TransactionInstructionData}
      {remaining : List TransactionInstructionData} {invocation : Invocation}
      {instruction : MultisigInstruction}
      (hstack : c.stack = .execution e :: rest) (hremaining : e.remaining = ix :: remaining)
      (hinvocation : ExecuteTransaction.toInvocation e.validated e.accounts ix = invocation)
      (hpass : (calleeInfos invocation.instruction.accounts).all
        (mayPass (some (.execution e)) invocation.signersSeeds) = true)
      (hprogram : invocation.instruction.programId = rt.programId)
      (hadmitted : Admitted (.execution { e with remaining := remaining } :: rest)
        invocation.instruction.data instruction) :
      Asks c .invoke (labelOf (calleeInfos invocation.instruction.accounts) instruction)
  | finish {e : Execution rt} {rest : List (Frame rt)}
      (hstack : c.stack = .execution e :: rest) (hremaining : e.remaining = []) :
      Asks c .finish (.close e)

/-- The action succeeds if the step does. -/
theorem step_of_asks (h : Asks c action label) (hperform : perform rt c.world label = some w) :
    ∃ stack, step c action = some ⟨w, stack, c.committed⟩ := by
  cases h with
  | call hcaller hpass hadmitted =>
      obtain ⟨stack, henter⟩ := enter_of_perform hadmitted hperform
      exact ⟨stack, step_of_plan ((plan_call_eq hcaller hpass).trans henter) hperform⟩
  | invoke hstack hremaining hinvocation hpass hprogram hadmitted =>
      obtain ⟨stack, henter⟩ := enter_of_perform hadmitted hperform
      rw [← hprogram] at henter
      exact ⟨stack, step_of_plan (plan_invoke hstack hremaining hinvocation hpass henter)
        hperform⟩
  | @finish e rest hstack hremaining =>
      exact ⟨rest, step_of_plan (plan_finish hstack hremaining) hperform⟩

/-- It succeeds only so. -/
theorem plan_of_asks {c' : Config rt} (h : Asks c action label)
    (hstep : step c action = some c') :
    plan c action = some (label, c'.stack) ∧ perform rt c.world label = some c'.world ∧
      c'.committed = c.committed := by
  have hlabel : ∀ {label' stack}, plan c action = some (label', stack) → label' = label := by
    intro label' stack hplan
    cases h with
    | call hcaller hpass hadmitted =>
        rw [plan_call_eq hcaller hpass] at hplan
        exact label_of_enter hadmitted.decodes hplan
    | invoke hstack hremaining hinvocation hpass hprogram hadmitted =>
        rw [plan_invoke_eq hstack hremaining hinvocation hpass, hprogram] at hplan
        exact label_of_enter hadmitted.decodes hplan
    | finish hstack hremaining =>
        rw [plan_finish hstack hremaining] at hplan
        exact (Prod.mk.inj (Option.some.inj hplan)).1.symm
  rcases step_cases hstep with ⟨label', hplan, hperform, hcommitted⟩ | ⟨rfl, -⟩ | ⟨rfl, -⟩
  · obtain rfl := hlabel hplan
    exact ⟨hplan, hperform, hcommitted⟩
  · cases h
  · cases h

end Asking

section Performing

variable {m s : AccountInfo} {multisig written : Multisig} {event : Event}
  {instruction : MultisigInstruction}

/-- A multisig is created if the arguments pass and the system program creates the
account. -/
theorem perform_create {data : CreateMultisigInstruction} {payer system : AccountInfo}
    (hvalid : CreateMultisig.Valid rt rt.programId m s system data)
    (hfits : Multisig.format.fits (CreateMultisig.newMultisig data) = true)
    (hcreate : ∃ L', rt.createAccount payer m
      (rt.minimumBalance (CreateMultisig.newMultisig data).len)
      (CreateMultisig.newMultisig data).len rt.programId w.ledger = .ok () L')
    (infos : List AccountInfo) :
    ∃ w', perform rt w (.call (.createMultisig data) (m :: s :: payer :: system :: infos)) =
      some w' := by
  rcases hcreate with ⟨mid, hmid⟩
  obtain ⟨L', hL'⟩ :=
    createAndSerialize_of_created (Multisig.format_encode_length _) hfits hmid
  refine ⟨_, (perform_call_eq_some_iff (by simp)).mpr ⟨L', ?_, ?_, rfl⟩⟩
  · rw [runHandler_createMultisig, createMultisig_eq_ok_iff]
    exact ⟨m, s, payer, system, infos, rfl, hvalid, hL'⟩
  · rw [createsAccount, Bool.true_or]

/-- A change fits the bytes that there are. -/
theorem written_fits {key : Pubkey}
    (hchange : Reconfigures key multisig instruction written event)
    (hfits : Multisig.format.fits multisig = true) (hshort : multisig.len < 2 ^ 32) :
    Multisig.format.fits written = true := by
  cases hchange with
  | setOwners howners => exact withOwners_fits hfits howners.capacity hshort
  | changeThreshold hthreshold =>
      rw [Multisig.format_fits_iff]
      exact (Multisig.format_fits_iff multisig).mp hfits
  | setOwnersAndChangeThreshold howners hthreshold =>
      rw [Multisig.format_fits_iff]
      exact (Multisig.format_fits_iff _).mp (withOwners_fits hfits howners.capacity hshort)

/-- A change that is accepted and signed for is made. -/
theorem perform_change (hsigned : SignedMultisig rt rt.programId w.ledger m s multisig)
    (hwritable : m.isWritable = true)
    (hchange : Reconfigures m.key multisig instruction written event)
    (hfits : Multisig.format.fits written = true) (infos : List AccountInfo) :
    perform rt w (.call instruction (m :: s :: infos)) =
      some ⟨writeData w.ledger m.key (Multisig.format.encode written), event :: w.history⟩ := by
  have hallowed : effectAllowed rt (m :: s :: infos) w.ledger
      (writeData w.ledger m.key (Multisig.format.encode written)) = true :=
    effectAllowed_update hsigned.owner (by simp [isWritableIn, hwritable]) _
  have hshort : ∀ {owners : List Pubkey}, Multisig.format.fits (withOwners multisig owners) =
      true → 32 * owners.length < 2 ^ 64 := by
    intro owners hnew
    have hlt := ((Multisig.format_fits_iff _).mp hnew).1
    rw [withOwners_owners] at hlt
    omega
  cases hchange with
  | @setOwners data howners =>
      refine (perform_call_eq_some_iff (by simp)).mpr ⟨_, ?_, by simp [hallowed], rfl⟩
      exact setOwners_of_accepted hsigned ((validateOwners_eq_ok_iff hsigned.fits
        (hshort hfits)).mpr ⟨howners.nodup, howners.ne_nil, howners.capacity⟩)
        howners.capacity hfits infos
  | @changeThreshold data hthreshold =>
      refine (perform_call_eq_some_iff (by simp)).mpr ⟨_, ?_, by simp [hallowed], rfl⟩
      exact changeThreshold_of_accepted hsigned (validateThreshold_eq_ok_iff.mpr hthreshold) infos
  | @setOwnersAndChangeThreshold data howners hthreshold =>
      have hnew : Multisig.format.fits (withOwners multisig data.owners) = true := by
        rw [Multisig.format_fits_iff]
        exact (Multisig.format_fits_iff _).mp hfits
      refine (perform_call_eq_some_iff (by simp)).mpr ⟨_, ?_, by simp [hallowed], rfl⟩
      have hrun : setOwnersAndChangeThreshold rt rt.programId (m :: s :: infos) data w.ledger =
          .ok () _ := setOwnersAndChangeThreshold_of_accepted hsigned
        ((validateOwners_eq_ok_iff hsigned.fits (hshort hnew)).mpr
          ⟨howners.nodup, howners.ne_nil, howners.capacity⟩)
        (validateThreshold_eq_ok_iff.mpr hthreshold) howners.capacity hnew infos
      rw [writeData_writeData] at hrun
      exact hrun

/-- Closing succeeds if there is room for the refund, and the account is still this
program's or nothing is left of it. -/
theorem perform_close
    (howner : (w.ledger e.validated.transactionAccount.key).owner = rt.programId ∨
      w.ledger e.validated.transactionAccount.key = Account.unused)
    (hsum : (w.ledger e.validated.refundee.key).lamports.toNat +
      (w.ledger e.validated.transactionAccount.key).lamports.toNat < 2 ^ 64) :
    ∃ L', Closed e.validated.transactionAccount e.validated.refundee w.ledger L' ∧
      perform rt w (.close e) = some ⟨L', .executed e.validated.multisigAccount.key
        e.validated.transactionAccount.key e.birth :: w.history⟩ := by
  have hne := e.refundee_ne
  obtain ⟨L', hclose⟩ : ∃ L', closeAccount e.validated.transactionAccount
      e.validated.refundee w.ledger = .ok () L' :=
    ⟨_, (closeAccount_eq_ok_iff hne).mpr ⟨hsum, rfl⟩⟩
  have hclosed := closed_of_closeAccount hne hclose
  obtain ⟨_, executor, hvalid⟩ := e.valid
  have hallowed : effectAllowed rt [e.validated.transactionAccount, e.validated.refundee]
      w.ledger L' = true := by
    simp only [effectAllowed, List.all_cons, List.all_nil, Bool.and_true, Bool.and_eq_true]
    constructor
    · rcases howner with howner | hunused
      · simp [changeAllowed, isWritableIn, hvalid.isWritable, howner]
      · simp [changeAllowed, hclosed.account_eq, hunused]
    · simp [changeAllowed, isWritableIn, hvalid.refundee_isWritable, hclosed.owner_eq _ hne,
        hclosed.data_eq _ hne, hclosed.lamports_le _ hne]
  exact ⟨L', hclosed, by simp [System.perform, hclose, hallowed]⟩

end Performing

/-- Perform actions as long as they keep the roles. -/
abbrev run (c : Config rt) (actions : List Action) : Option (Config rt) :=
  Library.Transition.perform step keepsRoles c actions

theorem run_cons (hplan : plan c action = some (label, stack))
    (hrole : label.keepsRoles c.world.registry = true)
    (hperform : perform rt c.world label = some w) (actions : List Action) :
    run c (action :: actions) = run ⟨w, stack, c.committed⟩ actions := by
  have hrole' : keepsRoles c action = true := by
    rwa [keepsRoles, planned, hplan, Option.all_some]
  simp only [run, Library.Transition.perform, hrole', if_true, step_of_plan hplan hperform,
    Option.bind_some]

end MultisigNative.System
