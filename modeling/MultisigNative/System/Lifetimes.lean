import MultisigNative.System.Authority

/-!
Which proposal an execution is of.  The birth of a proposal is the position of
its event in the history, so it names one proposal at one address, and closing
that address is final for it.
-/

namespace MultisigNative.System

open Solana
open Instructions

/-- The event before which there were `time` others. -/
def eventAt (history : List Event) (time : Nat) : Option Event := history.reverse[time]?

theorem eventAt_of_lt {event : Event} {history : List Event} {time : Nat}
    (h : time < history.length) : eventAt (event :: history) time = eventAt history time := by
  rw [eventAt, List.reverse_cons, List.getElem?_append_left (by simpa using h), eventAt]

theorem eventAt_length (event : Event) (history : List Event) :
    eventAt (event :: history) history.length = some event := by
  simp [eventAt]

theorem lt_of_eventAt {event : Event} {history : List Event} {time : Nat}
    (h : eventAt history time = some event) : time < history.length := by
  rw [← List.length_reverse]
  exact (List.getElem?_eq_some_iff.mp h).1

/-- The proposal of this birth was made at `t`. -/
def ProposedAt (t : Pubkey) (birth : Nat) (history : List Event) : Prop :=
  ∃ m signers instructions,
    eventAt history birth = some (.proposed m t signers instructions)

theorem ProposedAt.cons {t : Pubkey} {birth : Nat} {history : List Event}
    (h : ProposedAt t birth history) (event : Event) :
    ProposedAt t birth (event :: history) := by
  rcases h with ⟨m, signers, instructions, hevent⟩
  exact ⟨m, signers, instructions, (eventAt_of_lt (lt_of_eventAt hevent)).trans hevent⟩

theorem ProposedAt.suffix {t : Pubkey} {birth : Nat} {earlier history : List Event}
    (h : ProposedAt t birth earlier) (hsuffix : earlier <:+ history) :
    ProposedAt t birth history := by
  rcases hsuffix with ⟨later, rfl⟩
  induction later with
  | nil => exact h
  | cons event later ih => exact ih.cons event

theorem ProposedAt.unique {t t' : Pubkey} {birth : Nat} {history : List Event}
    (h : ProposedAt t birth history) (h' : ProposedAt t' birth history) : t = t' := by
  rcases h with ⟨m, signers, instructions, hevent⟩
  rcases h' with ⟨m', signers', instructions', hevent'⟩
  cases hevent.symm.trans hevent'
  rfl

/-- An open proposal is as it was proposed, at the time of its birth. -/
theorem eventAt_of_replay {history : List Event} {t : Pubkey} {p : Proposal}
    (h : replay history t = .proposal p) :
    ∃ signers, eventAt history p.birth =
      some (.proposed p.multisig t signers p.instructions) := by
  induction history generalizing p with
  | nil => simp at h
  | cons event history ih =>
      have hold : ∀ q, replay history t = .proposal q → ∃ signers,
          eventAt (event :: history) q.birth =
            some (.proposed q.multisig t signers q.instructions) := by
        intro q hq
        obtain ⟨signers, hevent⟩ := ih hq
        exact ⟨signers, (eventAt_of_lt (birth_lt_of_replay hq)).trans hevent⟩
      rw [replay_cons] at h
      rcases Event.apply_eq_proposal h with ⟨rfl, -, hbirth⟩ | ⟨_, _, q, hq, -, rfl⟩ | ⟨hp, -⟩
      · rw [hbirth]
        exact ⟨p.approvals, eventAt_length _ _⟩
      · exact hold q hq
      · exact hold p hp

theorem proposedAt_of_replay {history : List Event} {t : Pubkey} {p : Proposal}
    (h : replay history t = .proposal p) : ProposedAt t p.birth history := by
  obtain ⟨signers, hevent⟩ := eventAt_of_replay h
  exact ⟨p.multisig, signers, p.instructions, hevent⟩

theorem Event.apply_of_closes (event : Event) (time : Nat) (r : Registry) {t : Pubkey}
    (h : event.closes t = true) : event.subject = t ∧ event.apply time r t = .vacant := by
  cases event with
  | executed m t' birth =>
      obtain rfl : t' = t := by simpa [closes] using h
      exact ⟨rfl, by simp [apply]⟩
  | cancelled m t' =>
      obtain rfl : t' = t := by simpa [closes] using h
      exact ⟨rfl, by simp [apply]⟩
  | _ => cases h

/-- Once its address was closed, a proposal is nowhere open again. -/
theorem birth_ne_of_closed {later earlier : List Event} {event : Event} {t k : Pubkey}
    {birth : Nat} {p : Proposal} (hproposed : ProposedAt t birth earlier)
    (hcloses : event.closes t = true)
    (h : replay (later ++ event :: earlier) k = .proposal p) : p.birth ≠ birth := by
  induction later generalizing p with
  | nil =>
      rintro rfl
      obtain ⟨hsubject, hvacant⟩ :=
        event.apply_of_closes earlier.length (replay earlier) hcloses
      rw [List.nil_append, replay_cons] at h
      by_cases hk : k = t
      · rw [hk, hvacant] at h
        cases h
      · rw [Event.apply_of_ne (by rwa [hsubject])] at h
        exact hk ((proposedAt_of_replay h).unique hproposed)
  | cons next later ih =>
      rw [List.cons_append, replay_cons] at h
      rcases Event.apply_eq_proposal h with ⟨-, -, hnew⟩ | ⟨_, _, q, hq, -, rfl⟩ | ⟨hp, -⟩
      · rcases hproposed with ⟨_, _, _, hevent⟩
        have hlt := lt_of_eventAt hevent
        rw [hnew, List.length_append, List.length_cons]
        omega
      · exact ih (p := q) hq
      · exact ih hp

/-- Does the event end an execution of the proposal of this birth? -/
def Event.executes (birth : Nat) : Event → Bool
  | .executed _ _ birth' => birth' == some birth
  | _ => false

/-- How often the proposal of this birth was run through to its end. -/
def executedCount (birth : Nat) (history : List Event) : Nat :=
  history.countP (Event.executes birth)

section Births

variable {rt : Runtime}

/-- The proposals that are being executed, the latest start first. -/
def births (stack : List (Frame rt)) : List (Option Nat) :=
  (executions stack).map Execution.birth

@[simp] theorem births_foreign (programId : Pubkey) (accounts : List AccountInfo)
    (ne : programId ≠ rt.programId) (rest : List (Frame rt)) :
    births (.foreign programId accounts ne :: rest) = births rest := by
  rw [births, executions_foreign, births]

@[simp] theorem births_execution (e : Execution rt) (rest : List (Frame rt)) :
    births (.execution e :: rest) = e.birth :: births rest := by
  rw [births, executions_execution, List.map_cons, births]

/-- Neither the start nor the end of an execution. -/
def Label.quiet : Label rt → Bool
  | .start _ => false
  | .close _ => false
  | _ => true

/-- How a step changes the running executions: it starts one, it ends the latest,
or it leaves them as they are. -/
theorem births_of_plans {c : Config rt} {action : Action} {label : Label rt}
    {stack : List (Frame rt)} (h : Plans c action label stack) :
    (∃ accounts validated, label = .start accounts ∧
        ExecuteTransaction.validate rt rt.programId accounts c.world.ledger =
          .ok validated c.world.ledger ∧
        births stack =
          (c.world.registry validated.transactionAccount.key).birth :: births c.stack) ∨
      (∃ e ∈ executions c.stack, label = .close e ∧
        births c.stack = e.birth :: births stack) ∨
      (label.quiet = true ∧ births stack = births c.stack) := by
  have hentered : ∀ {under : List (Frame rt)} {accounts : List AccountInfo},
      births under = births c.stack → Enters c.world under accounts label stack →
      (∃ accounts validated, label = .start accounts ∧
        ExecuteTransaction.validate rt rt.programId accounts c.world.ledger =
          .ok validated c.world.ledger ∧
        births stack =
          (c.world.registry validated.transactionAccount.key).birth :: births c.stack) ∨
      (∃ e ∈ executions c.stack, label = .close e ∧
        births c.stack = e.birth :: births stack) ∨
      (label.quiet = true ∧ births stack = births c.stack) := by
    intro under accounts hunder henters
    cases henters with
    | «foreign» ne =>
        refine .inr (.inr ⟨rfl, ?_⟩)
        rw [births_foreign, hunder]
    | @execution e haccounts hvalidate hremaining hbirth =>
        refine .inl ⟨accounts, e.validated, rfl, hvalidate, ?_⟩
        rw [births_execution, hbirth, hunder]
    | handler => exact .inr (.inr ⟨rfl, hunder⟩)
  cases h with
  | call hpass hcaller henters => exact hentered (Eq.refl (births c.stack)) henters
  | invoke hstack hremaining hpass henters =>
      refine hentered ?_ henters
      rw [hstack, births_execution, births_execution]
  | @finish e rest hstack hdone =>
      refine .inr (.inl ⟨e, ?_, rfl, ?_⟩)
      · rw [hstack, executions_execution]
        exact List.mem_cons_self ..
      · rw [hstack, births_execution]
  | leave hstack =>
      refine .inr (.inr ⟨rfl, ?_⟩)
      rw [hstack, births_foreign]
  | «foreign» => exact .inr (.inr ⟨rfl, rfl⟩)

theorem executedCount_of_effect {w w' : World} {label : Label rt}
    (h : Effect rt w label w') (hquiet : label.quiet = true) (birth : Nat) :
    executedCount birth w'.history = executedCount birth w.history := by
  cases h with
  | closed hclosed howner => cases hquiet
  | configured hsigned hchange hfits =>
      cases hchange <;> simp [executedCount, Event.executes]
  | _ => simp [executedCount, Event.executes]

theorem history_of_close {w w' : World} {e : Execution rt}
    (h : Effect rt w (.close e) w') :
    w'.history = .executed e.validated.multisigAccount.key
      e.validated.transactionAccount.key e.birth :: w.history := by
  cases h
  rfl

end Births

end MultisigNative.System
