import MultisigNative.System.Approvals

/-!
The whole system: a stack of running programs over the world.  A call that
fails, of whatever program, rolls the whole transaction back.
-/

namespace MultisigNative.System

open Library.Borsh
open Library.Transition
open Solana
open State
open Instructions
open Processor

/-- A running program: another one, or an `execute_transaction` of this one. -/
inductive Frame (rt : Runtime)
  | foreign (programId : Pubkey) (accounts : List AccountInfo)
      (ne : programId ≠ rt.programId)
  | execution (execution : Execution rt)

namespace Frame

variable {rt : Runtime}

def programId : Frame rt → Pubkey
  | .foreign programId _ _ => programId
  | .execution _ => rt.programId

def accounts : Frame rt → List AccountInfo
  | .foreign _ accounts _ => accounts
  | .execution e => e.accounts

/-- The addresses that a program signs for when it invokes another with seeds. -/
def signsFor (signersSeeds : List (List Bytes)) (key : Pubkey) : Frame rt → Bool
  | .foreign programId _ _ => rt.pdaProgram key == some programId
  | .execution _ => signersSeeds.any fun seeds =>
      rt.createProgramAddress seeds rt.programId == some key

end Frame

/-- `committed` is the world to which a failure rolls back. -/
structure Config (rt : Runtime) where
  world : World
  stack : List (Frame rt)
  committed : World

/-- `call` is a top-level instruction or an invocation by another program,
`invoke` the next stored instruction of the execution on top of the stack. -/
inductive Action
  | call (programId : Pubkey) (accounts : List AccountInfo) (data : Bytes)
  | invoke
  | finish
  | leave
  | foreign (updates : List (Pubkey × Account))
  | commit
  | rollback

def isSignerIn (accounts : List AccountInfo) (key : Pubkey) : Bool :=
  accounts.any fun info => info.key == key && info.isSigner

section Plan

variable {rt : Runtime}

/-- May `caller` pass this account?  It must have it, with the privileges it
passes on, or sign for it.  From outside a key signs only if it has a private
key. -/
def mayPass (caller : Option (Frame rt)) (signersSeeds : List (List Bytes))
    (info : AccountInfo) : Bool :=
  match caller with
  | none => !info.isSigner || rt.pdaProgram info.key == none
  | some frame =>
      (frame.accounts.any fun passed => passed.key == info.key) &&
      (!info.isWritable || isWritableIn frame.accounts info.key) &&
      (!info.isSigner || isSignerIn frame.accounts info.key ||
        frame.signsFor signersSeeds info.key)

/-- The stack may not grow beyond its limit, and a program may call itself but
not be called again by another one that it called. -/
def mayEnter (stack : List (Frame rt)) (programId : Pubkey) : Bool :=
  decide (stack.length < rt.maxStackHeight) &&
    match stack with
    | [] => true
    | frame :: rest =>
        frame.programId == programId ||
          !(frame :: rest).any fun running => running.programId == programId

/-- What a call of `programId` does, with the stack it leaves.  The handlers
other than `execute_transaction` return at once; those that create an account
need room on the stack for the system program. -/
def enter (w : World) (stack : List (Frame rt)) (programId : Pubkey)
    (accounts : List AccountInfo) (data : Bytes) :
    Option (Label rt × List (Frame rt)) :=
  if !mayEnter stack programId then none
  else if h : programId = rt.programId then
    match MultisigInstruction.format.tryFromSlice data with
    | none => none
    | some .executeTransaction =>
        match hvalidate :
            ExecuteTransaction.validate rt rt.programId accounts w.ledger with
        | .ok validated _ =>
            some (.start accounts, .execution {
              accounts := accounts
              validated := validated
              remaining := validated.transaction.instructions
              birth := (w.registry validated.transactionAccount.key).birth
              accepted := ⟨w.ledger, by
                obtain ⟨_, _, _, _, hL⟩ :=
                  ExecuteTransaction.validate_eq_ok_iff.mp hvalidate
                rw [hvalidate, hL]⟩ } :: stack)
        | .error _ _ => none
    | some instruction =>
        if createsAccount instruction && decide (rt.maxStackHeight ≤ stack.length + 1) then
          none
        else some (.call instruction accounts, stack)
  else some (.idle, .foreign programId accounts h :: stack)

/-- The accounts that an instruction passes; metas of one key share their flags. -/
def calleeInfos (metas : List AccountMeta) : List AccountInfo :=
  metas.map fun acc =>
    { key := acc.pubkey
      isSigner := metas.any fun other => other.pubkey == acc.pubkey && other.isSigner
      isWritable := metas.any fun other =>
        other.pubkey == acc.pubkey && other.isWritable }

def plan (c : Config rt) : Action → Option (Label rt × List (Frame rt))
  | .call programId accounts data =>
      match c.stack with
      | .execution _ :: _ => none
      | stack =>
          if accounts.all (mayPass stack.head? []) then
            enter c.world stack programId accounts data
          else none
  | .invoke =>
      match c.stack with
      | .execution e :: rest =>
          match e.remaining with
          | [] => none
          | ix :: remaining =>
              let invocation := ExecuteTransaction.toInvocation e.validated e.accounts ix
              let accounts := calleeInfos invocation.instruction.accounts
              if accounts.all (mayPass (some (.execution e)) invocation.signersSeeds) then
                enter c.world (.execution { e with remaining := remaining } :: rest)
                  invocation.instruction.programId accounts invocation.instruction.data
              else none
      | _ => none
  | .finish =>
      match c.stack with
      | .execution e :: rest => if e.remaining = [] then some (.close e, rest) else none
      | _ => none
  | .leave =>
      match c.stack with
      | .foreign _ _ _ :: rest => some (.idle, rest)
      | _ => none
  | .foreign updates =>
      match c.stack with
      | [] => some (.foreign updates, [])
      | .foreign programId accounts ne :: rest =>
          if updates.all fun update => isWritableIn accounts update.1 then
            some (.foreign updates, .foreign programId accounts ne :: rest)
          else none
      | .execution _ :: _ => none
  | .commit => none
  | .rollback => none

def step (c : Config rt) : Action → Option (Config rt)
  | .commit => if c.stack.isEmpty then some { c with committed := c.world } else none
  | .rollback => some ⟨c.committed, [], c.committed⟩
  | action =>
      (plan c action).bind fun planned =>
        (perform rt c.world planned.1).map fun w => ⟨w, planned.2, c.committed⟩

/-- What entering a program comes to: another program is pushed, an execution
starts, or a handler runs to its end. -/
inductive Enters (w : World) (stack : List (Frame rt)) (accounts : List AccountInfo) :
    Label rt → List (Frame rt) → Prop
  | foreign {programId : Pubkey} (ne : programId ≠ rt.programId) :
      Enters w stack accounts .idle (.foreign programId accounts ne :: stack)
  | execution {e : Execution rt} (haccounts : e.accounts = accounts)
      (hvalidate : ExecuteTransaction.validate rt rt.programId accounts w.ledger =
        .ok e.validated w.ledger)
      (hremaining : e.remaining = e.validated.transaction.instructions)
      (hbirth : e.birth = (w.registry e.validated.transactionAccount.key).birth) :
      Enters w stack accounts (.start accounts) (.execution e :: stack)
  | handler {instruction : MultisigInstruction} :
      Enters w stack accounts (.call instruction accounts) stack

theorem enters_of_enter {w : World} {stack stack' : List (Frame rt)}
    {programId : Pubkey} {accounts : List AccountInfo} {data : Bytes} {label : Label rt}
    (h : enter w stack programId accounts data = some (label, stack')) :
    Enters w stack accounts label stack' := by
  simp only [enter] at h
  split at h
  · cases h
  · split at h
    · split at h
      · cases h
      · split at h
        · rename_i validated L hvalidate
          obtain ⟨_, _, _, _, rfl⟩ := ExecuteTransaction.validate_eq_ok_iff.mp hvalidate
          simp only [Option.some.injEq, Prod.mk.injEq] at h
          rcases h with ⟨rfl, rfl⟩
          exact .execution rfl hvalidate rfl rfl
        · cases h
      · split at h
        · cases h
        · simp only [Option.some.injEq, Prod.mk.injEq] at h
          rcases h with ⟨rfl, rfl⟩
          exact .handler
    · simp only [Option.some.injEq, Prod.mk.injEq] at h
      rcases h with ⟨rfl, rfl⟩
      exact .foreign _

/-- What an action comes to, with the checks it passed. -/
inductive Plans (c : Config rt) : Action → Label rt → List (Frame rt) → Prop
  | call {programId : Pubkey} {accounts : List AccountInfo} {data : Bytes}
      {label : Label rt} {stack : List (Frame rt)}
      (hpass : ∀ info ∈ accounts, mayPass c.stack.head? [] info = true)
      (hcaller : ∀ e, c.stack.head? ≠ some (.execution e))
      (henters : Enters c.world c.stack accounts label stack) :
      Plans c (.call programId accounts data) label stack
  | invoke {e : Execution rt} {ix : TransactionInstructionData}
      {remaining : List TransactionInstructionData} {rest stack : List (Frame rt)}
      {accounts : List AccountInfo} {label : Label rt}
      (hstack : c.stack = .execution e :: rest) (hremaining : e.remaining = ix :: remaining)
      (hpass : ∀ info ∈ accounts, mayPass (some (.execution e))
        [ExecuteTransaction.signerSeeds e.validated] info = true)
      (henters : Enters c.world (.execution { e with remaining := remaining } :: rest)
        accounts label stack) :
      Plans c .invoke label stack
  | finish {e : Execution rt} {rest : List (Frame rt)}
      (hstack : c.stack = .execution e :: rest) (hdone : e.remaining = []) :
      Plans c .finish (.close e) rest
  | leave {programId : Pubkey} {accounts : List AccountInfo}
      {ne : programId ≠ rt.programId} {rest : List (Frame rt)}
      (hstack : c.stack = .foreign programId accounts ne :: rest) :
      Plans c .leave .idle rest
  | foreign {updates : List (Pubkey × Account)}
      (hcaller : ∀ e, c.stack.head? ≠ some (.execution e)) :
      Plans c (.foreign updates) (.foreign updates) c.stack

theorem plans_of_plan {c : Config rt} {action : Action} {label : Label rt}
    {stack : List (Frame rt)} (h : plan c action = some (label, stack)) :
    Plans c action label stack := by
  cases action with
  | call programId accounts data =>
      simp only [plan] at h
      split at h
      · cases h
      · rename_i hstack
        split at h
        · rename_i hpass
          refine .call (List.all_eq_true.mp hpass) ?_ (enters_of_enter h)
          intro e he
          cases hc : c.stack with
          | nil => simp [hc] at he
          | cons frame rest =>
              rw [hc, List.head?_cons, Option.some.injEq] at he
              exact hstack e rest (by rw [hc, he])
        · cases h
  | invoke =>
      simp only [plan] at h
      split at h
      · rename_i e rest hstack
        split at h
        · cases h
        · rename_i ix remaining hremaining
          split at h
          · rename_i hpass
            exact .invoke hstack hremaining (List.all_eq_true.mp hpass) (enters_of_enter h)
          · cases h
      · cases h
  | finish =>
      simp only [plan] at h
      split at h
      · rename_i e rest hstack
        split at h
        · rename_i hdone
          simp only [Option.some.injEq, Prod.mk.injEq] at h
          rcases h with ⟨rfl, rfl⟩
          exact .finish hstack hdone
        · cases h
      · cases h
  | leave =>
      simp only [plan] at h
      split at h
      · rename_i programId accounts ne rest hstack
        simp only [Option.some.injEq, Prod.mk.injEq] at h
        rcases h with ⟨rfl, rfl⟩
        exact .leave hstack
      · cases h
  | «foreign» updates =>
      have hstack : label = .foreign updates ∧ stack = c.stack ∧
          ∀ e, c.stack.head? ≠ some (.execution e) := by
        simp only [plan] at h
        split at h
        · rename_i hstack
          simp only [Option.some.injEq, Prod.mk.injEq] at h
          exact ⟨h.1.symm, by rw [hstack, h.2], by simp [hstack]⟩
        · rename_i hstack
          split at h
          · simp only [Option.some.injEq, Prod.mk.injEq] at h
            exact ⟨h.1.symm, by rw [hstack, h.2], by simp [hstack]⟩
          · cases h
        · cases h
      rcases hstack with ⟨rfl, rfl, hcaller⟩
      exact .foreign hcaller
  | commit => cases h
  | rollback => cases h

/-- A step performs what its action comes to, commits, or rolls back. -/
theorem step_cases {c c' : Config rt} {action : Action} (h : step c action = some c') :
    (∃ label, plan c action = some (label, c'.stack) ∧
        perform rt c.world label = some c'.world ∧ c'.committed = c.committed) ∨
      (action = .commit ∧ c.stack = [] ∧ c' = { c with committed := c.world }) ∨
      (action = .rollback ∧ c' = ⟨c.committed, [], c.committed⟩) := by
  have hplan : ∀ a, (plan c a).bind (fun planned =>
      (perform rt c.world planned.1).map fun w => ⟨w, planned.2, c.committed⟩) =
        some c' →
      ∃ label, plan c a = some (label, c'.stack) ∧
        perform rt c.world label = some c'.world ∧ c'.committed = c.committed := by
    intro a ha
    obtain ⟨⟨label, stack⟩, hlabel, hmap⟩ := Option.bind_eq_some_iff.mp ha
    obtain ⟨w, hw, rfl⟩ := Option.map_eq_some_iff.mp hmap
    exact ⟨label, hlabel, hw, rfl⟩
  cases action with
  | commit =>
      simp only [step, Option.ite_none_right_eq_some, List.isEmpty_iff,
        Option.some.injEq] at h
      exact .inr (.inl ⟨rfl, h.1, h.2.symm⟩)
  | rollback => exact .inr (.inr ⟨rfl, (Option.some.inj h).symm⟩)
  | call programId accounts data => exact .inl (hplan _ h)
  | invoke => exact .inl (hplan _ h)
  | finish => exact .inl (hplan _ h)
  | leave => exact .inl (hplan _ h)
  | «foreign» updates => exact .inl (hplan _ h)

/-- The end of an execution leaves nothing at its transaction account, whatever is there. -/
theorem unused_of_closed {c c' : Config rt} {action : Action} {e : Execution rt}
    {stack : List (Frame rt)} (hplan : plan c action = some (.close e, stack))
    (hstep : step c action = some c') :
    c'.world.ledger e.validated.transactionAccount.key = Account.unused := by
  rcases step_cases hstep with ⟨label, hplan', hperform, -⟩ | ⟨rfl, -⟩ | ⟨rfl, -⟩
  · obtain ⟨rfl, rfl⟩ := Prod.mk.inj (Option.some.inj (hplan'.symm.trans hplan))
    generalize c'.world = w' at hperform ⊢
    cases perform_effect hperform with
    | closed hclose _ => exact hclose.account_eq
  · cases hplan
  · cases hplan

end Plan

section Runs

variable {rt : Runtime}

/-- Between two transactions, nothing having happened yet. -/
structure Config.Initial (c : Config rt) : Prop where
  stack : c.stack = []
  committed : c.committed = c.world
  world : c.world.Initial rt

/-- Test what an action would do to the world. -/
def planned (c : Config rt) (action : Action) (ok : Label rt → Bool) : Bool :=
  (plan c action).all fun p => ok p.1

/-- Every account that a call takes is in the role it was created in. -/
def takenInRole (c : Config rt) (action : Action) : Bool :=
  planned c action (Label.inRole c.world.registry)

/-- And no multisig is closed at the end of an execution. -/
def keepsRoles (c : Config rt) (action : Action) : Bool :=
  planned c action (Label.keepsRoles c.world.registry)

/-- The worlds of a run are reached by the steps that it performs. -/
theorem world_of_reachable {allowed : Config rt → Action → Prop}
    {ok : World → Label rt → Prop}
    (hallowed : ∀ c action label stack, allowed c action →
      plan c action = some (label, stack) → ok c.world label)
    {c : Config rt} (h : Reachable Config.Initial step allowed c) :
    Reachable (World.Initial rt) (perform rt) ok c.world ∧
      Reachable (World.Initial rt) (perform rt) ok c.committed := by
  refine h.invariant (I := fun c => Reachable (World.Initial rt) (perform rt) ok c.world ∧
    Reachable (World.Initial rt) (perform rt) ok c.committed) ?_ ?_
  · intro c hinit
    rw [hinit.committed]
    exact ⟨.init hinit.world, .init hinit.world⟩
  · rintro c action c' - ⟨hworld, hcommitted⟩ hok hstep
    rcases step_cases hstep with ⟨label, hplan, hperform, hsame⟩ | ⟨-, -, rfl⟩ | ⟨-, rfl⟩
    · rw [hsame]
      exact ⟨hworld.next (hallowed c action label _ hok hplan) hperform, hcommitted⟩
    · exact ⟨hworld, hworld⟩
    · exact ⟨hcommitted, hcommitted⟩

/-- The configurations of the runs in which each call takes every account in its role. -/
def InRoleConfig (rt : Runtime) : Config rt → Prop :=
  Reachable Config.Initial step fun c action => takenInRole c action = true

/-- Those of the runs in which, moreover, no execution closes a multisig at its end. -/
def RolesKeptConfig (rt : Runtime) : Config rt → Prop :=
  Reachable Config.Initial step fun c action => keepsRoles c action = true

theorem inRole_of_taken {c : Config rt} {action : Action} {label : Label rt}
    {stack : List (Frame rt)} (h : takenInRole c action = true)
    (hplan : plan c action = some (label, stack)) :
    label.inRole c.world.registry = true := by
  rwa [takenInRole, planned, hplan, Option.all_some] at h

theorem keepsRoles_of_planned {c : Config rt} {action : Action} {label : Label rt}
    {stack : List (Frame rt)} (h : keepsRoles c action = true)
    (hplan : plan c action = some (label, stack)) :
    label.keepsRoles c.world.registry = true := by
  rwa [keepsRoles, planned, hplan, Option.all_some] at h

theorem takenInRole_of_keepsRoles {c : Config rt} {action : Action}
    (h : keepsRoles c action = true) : takenInRole c action = true := by
  cases hplan : plan c action with
  | none => rw [takenInRole, planned, hplan, Option.all_none]
  | some p =>
      rw [takenInRole, planned, hplan, Option.all_some]
      exact Label.inRole_of_keepsRoles (keepsRoles_of_planned h hplan)

theorem RolesKeptConfig.inRole {c : Config rt} (h : RolesKeptConfig rt c) :
    InRoleConfig rt c :=
  h.mono fun _ _ => takenInRole_of_keepsRoles

theorem held_of_config {c : Config rt} (h : InRoleConfig rt c) : Held rt c.world :=
  held_of_inRole (world_of_reachable (fun _ _ _ _ => inRole_of_taken) h).1

theorem rolesKeptWorld_of_config {c : Config rt} (h : RolesKeptConfig rt c) :
    RolesKeptWorld rt c.world ∧ RolesKeptWorld rt c.committed :=
  world_of_reachable (fun _ _ _ _ => keepsRoles_of_planned) h

theorem represents_of_config {c : Config rt} (h : RolesKeptConfig rt c) :
    Represents rt c.world :=
  represents_of_rolesKept (rolesKeptWorld_of_config h).1

end Runs

end MultisigNative.System
