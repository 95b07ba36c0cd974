import MultisigNative.Library.VotingSafety
import MultisigNative.Specification.Refinement
import MultisigNative.System.Authority

/-!
The whole system simulates the board: nested executions, other programs and rolled back
transactions included.
-/

namespace MultisigNative.Specification

open Library.Simulation
open Library.Voting
open Solana
open Instructions
open Processor
open MultisigNative.System
open MultisigNative.Properties

variable {rt : Runtime} {c c' : Config rt} {action : Action} {label : Label rt}

/-- Accounts are taken in their roles, no execution closes a multisig at its end, no
counter of owner changes wraps, and `set_owners` gets fewer than 256 owners. -/
def intended (c : Config rt) (action : Action) : Bool :=
  keepsRoles c action && planned c action (sparesCounter c.world) &&
    planned c action clampsExactly

/-- What a step of the machine is to the board. -/
def meaning (c : Config rt) : Action → Meaning Deed
  | .commit => .commit
  | .rollback => .rollback
  | action => .shown ((plan c action).bind fun p => deedOf p.1)

/-- The motions whose executions are on the stack. -/
def docket (stack : List (Frame rt)) : List (Pubkey × Pubkey) :=
  (executions stack).map fun e =>
    (e.validated.multisigAccount.key, e.validated.transactionAccount.key)

theorem docket_of_enters {w : World} {stack stack' : List (Frame rt)}
    {accounts : List AccountInfo} (h : Enters w stack accounts label stack') :
    runningAfter (docket stack) label = docket stack' := by
  cases h with
  | «foreign» ne => rfl
  | handler => rfl
  | execution haccounts hvalidate hremaining hbirth =>
      obtain ⟨executor, rest, rfl, -, -⟩ :=
        ExecuteTransaction.validate_eq_ok_iff.mp hvalidate
      rfl

theorem docket_of_plans {stack : List (Frame rt)} (h : Plans c action label stack) :
    runningAfter (docket c.stack) label = docket stack := by
  cases h with
  | call hpass hcaller henters => exact docket_of_enters henters
  | invoke hstack hremaining hpass henters =>
      rw [hstack, ← docket_of_enters henters]
      rfl
  | finish hstack hdone =>
      rw [hstack]
      rfl
  | leave hstack =>
      rw [hstack]
      rfl
  | «foreign» hcaller => rfl

/-- Only the handlers that reconfigure do so, and they checked who signed. -/
theorem signed_of_configureDeed {w w' : World} {instruction : MultisigInstruction}
    {m : AccountInfo} {rest : List AccountInfo}
    (h : Effect rt w (.call instruction (m :: rest)) w')
    (hdeed : configureDeed m.key instruction ≠ none) :
    ∃ s multisig, s ∈ m :: rest ∧ SignedMultisig rt rt.programId w.ledger m s multisig := by
  cases h with
  | configured hsigned hchange hfits => exact ⟨_, _, by simp, hsigned⟩
  | created => exact absurd rfl hdeed
  | proposed => exact absurd rfl hdeed
  | approved => exact absurd rfl hdeed
  | cancelled => exact absurd rfl hdeed

/-- The machine keeps to what the board asks of a step. -/
theorem licensed_of_plans {w' : World} {stack : List (Frame rt)} {s : Board}
    (h : Plans c action label stack) (hconfined : ConfinedStack c.stack)
    (hrunning : s.running = docket c.stack) (heffect : Effect rt c.world label w') :
    Licensed s label := by
  have hreconfigures : ∀ {instruction : MultisigInstruction} {m : AccountInfo}
      {rest : List AccountInfo}, label = .call instruction (m :: rest) →
      Licensed s (.call instruction (m :: rest) : Label rt) := by
    rintro instruction m rest rfl hdeed
    obtain ⟨s₀, multisig, hmem, hsigned⟩ := signed_of_configureDeed heffect hdeed
    obtain ⟨e, he, hsigns⟩ := signer_granted h hconfined hmem hsigned.isSigner
      (rt.pdaProgram_of_createProgramAddress _ _ _ hsigned.pda)
    refine ⟨e.validated.transactionAccount.key, ?_⟩
    rw [hrunning, ← hsigns.key_eq hsigned.pda]
    exact List.mem_map_of_mem he
  cases label with
  | idle => trivial
  | «foreign» updates => trivial
  | start accounts => trivial
  | call instruction accounts =>
      cases accounts with
      | nil => trivial
      | cons m rest => exact hreconfigures rfl
  | close e =>
      have hstack : c.stack = .execution e :: stack := by
        generalize hlabel : Label.close e = label at h
        cases h with
        | finish hstack hdone =>
            cases hlabel
            exact hstack
        | call hpass hcaller henters => cases henters <;> cases hlabel
        | invoke hstack hremaining hpass henters => cases henters <;> cases hlabel
        | leave hstack => cases hlabel
        | «foreign» hcaller => cases hlabel
      rw [Licensed, hrunning, hstack]
      rfl

/-- A configuration stands for one board, and the world to which it may go back for
another. -/
structure Stands (c : Config rt) (s back : Board) : Prop where
  world : Mirrors rt c.world s
  committed : Mirrors rt c.committed back
  running : s.running = docket c.stack
  idle : back.running = []
  confined : ConfinedStack c.stack

theorem Mirrors.of_initial {w : World} (h : w.Initial rt) : Mirrors rt w .empty where
  represents := .of_initial h
  few m := by
    rw [h.history]
    exact Nat.two_pow_pos 32
  matched k := by
    rw [h.vacant k]
    trivial
  stores k := h.zeroed k
  coherent := Assembly.coherent_empty

/-- The steps that are neither a commit nor a rollback. -/
theorem Stands.perform {s back : Board} (h : Stands c s back)
    (hintended : intended c action = true) {stack : List (Frame rt)} {w' : World}
    {committed : World} (hcommitted : committed = c.committed)
    (hplan : plan c action = some (label, stack))
    (hperform : perform rt c.world label = some w') :
    (deedOf label = none ∧ Stands ⟨w', stack, committed⟩ s back) ∨
      ∃ (deed : Deed) (s' : Board), deedOf label = some deed ∧ Step s deed s' ∧
        Stands ⟨w', stack, committed⟩ s' back := by
  subst hcommitted
  have hplans := plans_of_plan hplan
  have heffect := perform_effect hperform
  simp only [intended, keepsRoles, planned, hplan, Option.all_some, Bool.and_eq_true]
    at hintended
  rcases h.world.effect heffect hintended.1 hintended.2
      (licensed_of_plans hplans h.confined h.running heffect) with
    ⟨hdeed, hsame, hmirrors⟩ | ⟨deed, s', hdeed, hstep, hrunning, hmirrors⟩
  · refine .inl ⟨hdeed, hmirrors, h.committed, ?_, h.idle,
      confined_of_plans hplans h.confined⟩
    rw [← hsame, h.running]
    exact docket_of_plans hplans
  · refine .inr ⟨deed, s', hdeed, hstep, hmirrors, h.committed, ?_, h.idle,
      confined_of_plans hplans h.confined⟩
    rw [hrunning, h.running]
    exact docket_of_plans hplans

/-- The cases of a step, with what each is to the board. -/
theorem meaning_cases (h : step c action = some c') :
    (∃ label, plan c action = some (label, c'.stack) ∧
        perform rt c.world label = some c'.world ∧ c'.committed = c.committed ∧
        meaning c action = .shown (deedOf label)) ∨
      (meaning c action = .commit ∧ c.stack = [] ∧ c' = { c with committed := c.world }) ∨
      (meaning c action = .rollback ∧ c' = ⟨c.committed, [], c.committed⟩) := by
  rcases step_cases h with ⟨label, hplan, hperform, hcommitted⟩ | ⟨rfl, hc⟩ | ⟨rfl, hc⟩
  · refine .inl ⟨label, hplan, hperform, hcommitted, ?_⟩
    cases action with
    | commit => cases hplan
    | rollback => cases hplan
    | _ => simp only [meaning, hplan, Option.bind_some]
  · exact .inr (.inl ⟨rfl, hc⟩)
  · exact .inr (.inr ⟨rfl, hc⟩)

theorem Stands.of_initial (h : c.Initial) : Stands c .empty .empty where
  world := .of_initial h.world
  committed := h.committed ▸ .of_initial h.world
  running := by
    rw [h.stack]
    rfl
  idle := rfl
  confined := by
    rw [h.stack]
    trivial

/-- The machine simulates the board, from wherever it starts between two transactions. -/
theorem simulates {initial : Config rt → Prop} {start : Board}
    (hinit : ∀ {c}, initial c → Stands c start start) :
    Simulates initial step (fun c action => intended c action = true) meaning Step start
      Stands where
  init := hinit
  silent := by
    intro c action c' s back h hintended hstep hsilent
    rcases meaning_cases hstep with
      ⟨label, hplan, hperform, hcommitted, hmeaning⟩ | ⟨hmeaning, -⟩ | ⟨hmeaning, -⟩
    · have hnone : deedOf label = none := by simpa [hmeaning] using hsilent
      rcases h.perform hintended hcommitted hplan hperform with ⟨-, hstands⟩ | ⟨_, _, hsome, -⟩
      · exact hstands
      · rw [hnone] at hsome
        cases hsome
    · simp [hmeaning] at hsilent
    · simp [hmeaning] at hsilent
  event := by
    intro c action c' s back deed h hintended hstep hevent
    rcases meaning_cases hstep with
      ⟨label, hplan, hperform, hcommitted, hmeaning⟩ | ⟨hmeaning, -⟩ | ⟨hmeaning, -⟩
    · have hsome : deedOf label = some deed := by simpa [hmeaning] using hevent
      rcases h.perform hintended hcommitted hplan hperform with
        ⟨hnone, -⟩ | ⟨deed', s', hdeed, hs, hstands⟩
      · rw [hsome] at hnone
        cases hnone
      · obtain rfl := Option.some.inj (hdeed.symm.trans hsome)
        exact ⟨s', hs, hstands⟩
    · simp [hmeaning] at hevent
    · simp [hmeaning] at hevent
  commit := by
    intro c action c' s back h hintended hstep hcommit
    rcases meaning_cases hstep with
      ⟨label, -, -, -, hmeaning⟩ | ⟨-, hstack, rfl⟩ | ⟨hmeaning, -⟩
    · simp [hmeaning] at hcommit
    · refine ⟨h.world, h.world, h.running, ?_, h.confined⟩
      rw [h.running, hstack]
      rfl
    · simp [hmeaning] at hcommit
  rollback := by
    intro c action c' s back h hintended hstep hrollback
    rcases meaning_cases hstep with
      ⟨label, -, -, -, hmeaning⟩ | ⟨hmeaning, -⟩ | ⟨-, rfl⟩
    · simp [hmeaning] at hrollback
    · simp [hmeaning] at hrollback
    · exact ⟨h.committed, h.committed, h.idle, h.idle, trivial⟩

/-- What was tested of the step holds of the deed that it comes to. -/
theorem planned_of_event {deed : Deed} {ok : Label rt → Bool}
    (hmeaning : meaning c action = .event deed) (hok : planned c action ok = true) :
    ∃ label, deedOf label = some deed ∧ ok label = true := by
  have hplanned : (plan c action).bind (fun p => deedOf p.1) = some deed := by
    cases action with
    | commit => cases hmeaning
    | rollback => cases hmeaning
    | _ => simpa [meaning] using hmeaning
  obtain ⟨⟨label, stack⟩, hplan, hdeed⟩ := Option.bind_eq_some_iff.mp hplanned
  rw [planned, hplan, Option.all_some] at hok
  exact ⟨label, hdeed, hok⟩

/-- An execution that ends closes a proposal of its own multisig, or none. -/
def closesOwn (c : Config rt) : Label rt → Bool
  | .close e =>
      match c.world.registry e.validated.transactionAccount.key with
      | .proposal p => p.multisig == e.validated.multisigAccount.key
      | _ => true
  | _ => true

theorem deedOf_eq_finish {a t : Pubkey} (h : deedOf label = some (.finish a t)) :
    ∃ e, label = .close e ∧ e.validated.multisigAccount.key = a ∧
      e.validated.transactionAccount.key = t := by
  unfold deedOf at h
  split at h
  case h_5 =>
    unfold configureDeed at h
    split at h <;> cases h
  case h_7 e =>
    simp only [Option.some.injEq, Act.finish.injEq] at h
    exact ⟨e, rfl, h⟩
  all_goals cases h

theorem Mirrors.orderly {s : Board} {deed : Deed} (h : Mirrors rt c.world s)
    (hdeed : deedOf label = some deed) (hcloses : closesOwn c label = true) :
    Orderly s deed := by
  cases deed with
  | finish a t =>
      intro m hm
      obtain ⟨e, rfl, rfl, rfl⟩ := deedOf_eq_finish hdeed
      have hmatched := h.matched e.validated.transactionAccount.key
      rw [hm] at hmatched
      rw [closesOwn] at hcloses
      cases hregistry : c.world.registry e.validated.transactionAccount.key with
      | proposal p =>
          rw [hregistry] at hmatched hcloses
          exact hmatched.1.symm.trans (beq_iff_eq.mp hcloses)
      | vacant =>
          rw [hregistry] at hmatched
          exact absurd hmatched id
      | multisig g =>
          rw [hregistry] at hmatched
          exact absurd hmatched id
  | _ => trivial

end MultisigNative.Specification
