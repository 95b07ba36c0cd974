import MultisigNative.Library.Authority
import MultisigNative.System.Machine

/-!
Where the signature of a multisig's address comes from: only a running
execution that was accepted for this multisig can have produced it.
-/

namespace MultisigNative.System

open Library.Borsh
open Library.Authority
open Library.Transition
open Solana
open Instructions
open Processor

variable {rt : Runtime}

def executions (stack : List (Frame rt)) : List (Execution rt) :=
  stack.filterMap fun frame =>
    match frame with
    | .foreign _ _ _ => none
    | .execution e => some e

@[simp] theorem executions_nil : executions ([] : List (Frame rt)) = [] := rfl

@[simp] theorem executions_foreign (programId : Pubkey) (accounts : List AccountInfo)
    (ne : programId ≠ rt.programId) (rest : List (Frame rt)) :
    executions (.foreign programId accounts ne :: rest) = executions rest := rfl

@[simp] theorem executions_execution (e : Execution rt) (rest : List (Frame rt)) :
    executions (.execution e :: rest) = e :: executions rest := rfl

theorem mem_executions_iff {stack : List (Frame rt)} {e : Execution rt} :
    e ∈ executions stack ↔ Frame.execution e ∈ stack := by
  induction stack with
  | nil => simp
  | cons frame rest ih =>
      cases frame with
      | «foreign» programId accounts ne => simp [ih]
      | execution e' => simp [ih]

/-- A frame holds the signature of an address derived from this program. -/
def Frame.HoldsSignature (frame : Frame rt) (key : Pubkey) : Prop :=
  isSignerIn frame.accounts key = true ∧ rt.pdaProgram key = some rt.programId

def Execution.SignsFor (e : Execution rt) (key : Pubkey) : Prop :=
  rt.createProgramAddress (ExecuteTransaction.signerSeeds e.validated) rt.programId =
    some key

def Frame.GrantsSignature (frame : Frame rt) (key : Pubkey) : Prop :=
  ∃ e, frame = .execution e ∧ e.SignsFor key

/-- The runtime's check of what a caller passes confines these signatures. -/
theorem passes_of_mayPass {caller : Option (Frame rt)} {seeds : List (List Bytes)}
    {info : AccountInfo} (h : mayPass caller seeds info = true)
    (hseeds : ∀ e, caller = some (.execution e) →
      seeds = [ExecuteTransaction.signerSeeds e.validated])
    (hsigner : info.isSigner = true)
    (hpda : rt.pdaProgram info.key = some rt.programId) :
    Passes Frame.HoldsSignature Frame.GrantsSignature caller info.key := by
  cases caller with
  | none => simp [mayPass, hsigner, hpda] at h
  | some frame =>
      simp only [mayPass, hsigner, Bool.not_true, Bool.false_or, Bool.and_eq_true,
        Bool.or_eq_true] at h
      refine ⟨frame, rfl, ?_⟩
      rcases h.2 with hholds | hsigns
      · exact .inl ⟨hholds, hpda⟩
      · right
        cases frame with
        | «foreign» programId accounts ne =>
            simp only [Frame.signsFor, hpda, beq_iff_eq, Option.some.injEq] at hsigns
            exact absurd hsigns.symm ne
        | execution e =>
            refine ⟨e, rfl, ?_⟩
            simpa [hseeds e rfl, Frame.signsFor, Execution.SignsFor] using hsigns

/-- All signatures of this program's addresses on the stack are confined. -/
def ConfinedStack (stack : List (Frame rt)) : Prop :=
  Confined Frame.HoldsSignature Frame.GrantsSignature stack

theorem isSignerIn_iff {accounts : List AccountInfo} {key : Pubkey} :
    isSignerIn accounts key = true ↔
      ∃ info ∈ accounts, info.key = key ∧ info.isSigner = true := by
  simp [isSignerIn]

theorem confined_of_enters {w : World} {stack stack' : List (Frame rt)}
    {accounts : List AccountInfo} {label : Label rt}
    (h : Enters w stack accounts label stack') (hconfined : ConfinedStack stack)
    (hpass : ∀ info ∈ accounts, info.isSigner = true →
      rt.pdaProgram info.key = some rt.programId →
      Passes Frame.HoldsSignature Frame.GrantsSignature stack.head? info.key) :
    ConfinedStack stack' := by
  have hpush : ∀ frame : Frame rt, frame.accounts = accounts →
      ConfinedStack (frame :: stack) := by
    intro frame haccounts
    refine hconfined.push ?_
    rintro key ⟨hsigner, hpda⟩
    rw [haccounts] at hsigner
    obtain ⟨info, hmem, rfl, hflag⟩ := isSignerIn_iff.mp hsigner
    exact hpass info hmem hflag hpda
  cases h with
  | «foreign» ne => exact hpush _ rfl
  | execution haccounts hvalidate hremaining hbirth => exact hpush _ haccounts
  | handler => exact hconfined

theorem confined_of_plans {c : Config rt} {action : Action} {label : Label rt}
    {stack : List (Frame rt)} (h : Plans c action label stack)
    (hconfined : ConfinedStack c.stack) : ConfinedStack stack := by
  cases h with
  | call hpass hcaller henters =>
      refine confined_of_enters henters hconfined ?_
      intro info hmem hsigner hpda
      refine passes_of_mayPass (hpass info hmem) ?_ hsigner hpda
      intro e he
      exact absurd he (hcaller e)
  | @invoke e ix remaining rest stack accounts label hstack hremaining hpass henters =>
      rw [hstack] at hconfined
      have htop : ConfinedStack
          (.execution { e with remaining := remaining } :: rest) :=
        hconfined.replace fun _ hk => hk
      refine confined_of_enters henters htop ?_
      intro info hmem hsigner hpda
      obtain ⟨frame, hframe, hfrom⟩ := passes_of_mayPass (hpass info hmem)
        (by rintro e' he'; cases he'; rfl) hsigner hpda
      cases hframe
      refine ⟨_, rfl, ?_⟩
      rcases hfrom with hholds | ⟨e', he', hsigns⟩
      · exact .inl hholds
      · cases he'
        exact .inr ⟨_, rfl, hsigns⟩
  | finish hstack hdone =>
      rw [hstack] at hconfined
      exact hconfined.tail
  | leave hstack =>
      rw [hstack] at hconfined
      exact hconfined.tail
  | «foreign» => exact hconfined

theorem confined_of_reachable {allowed : Config rt → Action → Prop} {c : Config rt}
    (h : Reachable Config.Initial step allowed c) : ConfinedStack c.stack := by
  refine h.invariant (I := fun c => ConfinedStack c.stack) ?_ ?_
  · intro c hinit
    rw [hinit.stack]
    trivial
  · intro c action c' _ hconfined _ hstep
    rcases step_cases hstep with ⟨label, hplan, -, -⟩ | ⟨-, -, rfl⟩ | ⟨-, rfl⟩
    · exact confined_of_plans (plans_of_plan hplan) hconfined
    · exact hconfined
    · trivial

/-- A signature that a handler gets for one of this program's addresses comes
from an execution that is running. -/
theorem signer_granted {c : Config rt} {action : Action}
    {instruction : MultisigInstruction} {accounts : List AccountInfo}
    {stack : List (Frame rt)} (h : Plans c action (.call instruction accounts) stack)
    (hconfined : ConfinedStack c.stack) {info : AccountInfo} (hmem : info ∈ accounts)
    (hsigner : info.isSigner = true)
    (hpda : rt.pdaProgram info.key = some rt.programId) :
    ∃ e ∈ executions c.stack, e.SignsFor info.key := by
  have hpasses : Passes Frame.HoldsSignature Frame.GrantsSignature c.stack.head?
      info.key := by
    generalize hlabel : Label.call instruction accounts = label at h
    cases h with
    | call hpass hcaller henters =>
        cases henters <;> cases hlabel
        refine passes_of_mayPass (hpass info hmem) ?_ hsigner hpda
        intro e he
        exact absurd he (hcaller e)
    | invoke hstack hremaining hpass henters =>
        cases henters <;> cases hlabel
        rw [hstack]
        exact passes_of_mayPass (hpass info hmem)
          (by rintro e' he'; cases he'; rfl) hsigner hpda
    | finish => cases hlabel
    | leave => cases hlabel
    | «foreign» => cases hlabel
  obtain ⟨frame, hframe, e, rfl, hsigns⟩ := hconfined.granted hpasses
  exact ⟨e, mem_executions_iff.mpr hframe, hsigns⟩

/-- The multisig of an execution whose seeds give the address of a multisig. -/
theorem Execution.SignsFor.key_eq {e : Execution rt} {k p : Pubkey} {nonce : UInt8}
    (h : e.SignsFor p)
    (hp : rt.createProgramAddress [k.bytes, [nonce]] rt.programId = some p) :
    e.validated.multisigAccount.key = k :=
  (rt.createProgramAddress_injective _ _ _ _ _ h hp).1

section Started

/-- The execution started in a world of the run, taking accounts in their roles. -/
def Started (w : World) (e : Execution rt) : Prop :=
  ∃ w₀, RolesKeptWorld rt w₀ ∧ w₀.history <:+ w.history ∧
    argsInRole w₀.registry .executeTransaction e.accounts = true ∧
    ExecuteTransaction.validate rt rt.programId e.accounts w₀.ledger =
      .ok e.validated w₀.ledger

theorem history_suffix {w w' : World} {label : Label rt}
    (h : perform rt w label = some w') : w.history <:+ w'.history := by
  cases perform_effect h with
  | idle => exact List.suffix_refl _
  | «foreign» => exact List.suffix_refl _
  | started => exact List.suffix_refl _
  | created => exact List.suffix_cons _ _
  | configured => exact List.suffix_cons _ _
  | proposed => exact List.suffix_cons _ _
  | approved => exact List.suffix_cons _ _
  | cancelled => exact List.suffix_cons _ _
  | closed => exact List.suffix_cons _ _

/-- The executions after a step are those before it, and the one it starts. -/
theorem executions_of_plans {c : Config rt} {action : Action} {label : Label rt}
    {stack : List (Frame rt)} (h : Plans c action label stack) {e : Execution rt}
    (he : e ∈ executions stack) :
    (∃ e₀ ∈ executions c.stack, e.accounts = e₀.accounts ∧
        e.validated = e₀.validated ∧ e.birth = e₀.birth) ∨
      (label = .start e.accounts ∧
        ExecuteTransaction.validate rt rt.programId e.accounts c.world.ledger =
          .ok e.validated c.world.ledger ∧
        e.birth = (c.world.registry e.validated.transactionAccount.key).birth) := by
  have hold : ∀ {e : Execution rt}, e ∈ executions c.stack →
      ∃ e₀ ∈ executions c.stack, e.accounts = e₀.accounts ∧
        e.validated = e₀.validated ∧ e.birth = e₀.birth :=
    fun {e} he => ⟨e, he, rfl, rfl, rfl⟩
  have hentered : ∀ {under : List (Frame rt)} {accounts : List AccountInfo},
      (∀ e ∈ executions under, ∃ e₀ ∈ executions c.stack, e.accounts = e₀.accounts ∧
        e.validated = e₀.validated ∧ e.birth = e₀.birth) →
      Enters c.world under accounts label stack →
      (∃ e₀ ∈ executions c.stack, e.accounts = e₀.accounts ∧
        e.validated = e₀.validated ∧ e.birth = e₀.birth) ∨
      (label = .start e.accounts ∧
        ExecuteTransaction.validate rt rt.programId e.accounts c.world.ledger =
          .ok e.validated c.world.ledger ∧
        e.birth = (c.world.registry e.validated.transactionAccount.key).birth) := by
    intro under accounts hunder henters
    cases henters with
    | «foreign» ne => exact .inl (hunder e he)
    | @execution e' haccounts hvalidate hremaining hbirth =>
        rw [executions_execution, List.mem_cons] at he
        rcases he with rfl | he
        · subst haccounts
          exact .inr ⟨rfl, hvalidate, hbirth⟩
        · exact .inl (hunder e he)
    | handler => exact .inl (hunder e he)
  cases h with
  | call hpass hcaller henters => exact hentered (fun e he => hold he) henters
  | @invoke e₀ ix remaining rest stack accounts label hstack hremaining hpass henters =>
      refine hentered ?_ henters
      intro e he
      rw [executions_execution, List.mem_cons] at he
      rw [hstack, executions_execution]
      rcases he with rfl | he
      · exact ⟨e₀, List.mem_cons_self .., rfl, rfl, rfl⟩
      · exact ⟨e, List.mem_cons_of_mem _ he, rfl, rfl, rfl⟩
  | finish hstack hdone =>
      left
      refine hold ?_
      rw [hstack, executions_execution]
      exact List.mem_cons_of_mem _ he
  | leave hstack =>
      left
      refine hold ?_
      rw [hstack, executions_foreign]
      exact he
  | «foreign» => exact .inl (hold he)

theorem started_of_config {c : Config rt} (h : RolesKeptConfig rt c) :
    ∀ e ∈ executions c.stack, Started c.world e := by
  refine h.invariant (I := fun c => ∀ e ∈ executions c.stack, Started c.world e) ?_ ?_
  · intro c hinit e he
    rw [hinit.stack] at he
    cases he
  · intro c action c' hreach hstarted hrole hstep e he
    rcases step_cases hstep with ⟨label, hplan, hperform, -⟩ | ⟨-, -, rfl⟩ | ⟨-, rfl⟩
    · have hsuffix := history_suffix hperform
      rcases executions_of_plans (plans_of_plan hplan) he with
        ⟨e₀, he₀, haccounts, hvalidated, -⟩ | ⟨hlabel, hvalidate, -⟩
      · obtain ⟨w₀, hw₀, hhistory, hargs, hvalidate⟩ := hstarted e₀ he₀
        rw [← haccounts] at hargs hvalidate
        rw [← hvalidated] at hvalidate
        exact ⟨w₀, hw₀, hhistory.trans hsuffix, hargs, hvalidate⟩
      · have hargs := Label.inRole_of_keepsRoles (keepsRoles_of_planned hrole hplan)
        rw [hlabel] at hargs
        exact ⟨c.world, (rolesKeptWorld_of_config hreach).1, hsuffix, hargs, hvalidate⟩
    · exact hstarted e he
    · cases he

theorem isMultisig_of_suffix {earlier later : List Event} (hlawful : Lawful later)
    (hsuffix : earlier <:+ later) {m : Pubkey}
    (h : (replay earlier m).isMultisig = true) : (replay later m).isMultisig = true := by
  rcases hsuffix with ⟨since, rfl⟩
  refine lawful_since (I := fun log => (replay log m).isMultisig = true) h ?_ hlawful
  intro event log _ henabled _ hm
  obtain ⟨g, hg⟩ := Occupant.isMultisig_iff.mp hm
  obtain ⟨g', hg', -⟩ := multisig_of_enabled log.length henabled hg
  rw [replay_cons, hg', Occupant.isMultisig]

/-- Every execution that is running is of a multisig. -/
theorem execution_isMultisig {c : Config rt} (h : RolesKeptConfig rt c) {e : Execution rt}
    (he : e ∈ executions c.stack) :
    (c.world.registry e.validated.multisigAccount.key).isMultisig = true := by
  obtain ⟨w₀, hw₀, hsuffix, hargs, hvalidate⟩ := started_of_config h e he
  obtain ⟨g, -, hg, -⟩ := (represents_of_rolesKept hw₀).held.executed hargs hvalidate
  refine isMultisig_of_suffix (represents_of_config h).lawful hsuffix ?_
  rw [show replay w₀.history e.validated.multisigAccount.key = _ from hg]
  rfl

end Started

end MultisigNative.System
