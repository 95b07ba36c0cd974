import MultisigNative.Library.Transition

/-!
Simulation of a specification by a system whose steps belong to transactions.  The
specification knows of no transactions: it sees the events that have not been rolled
back.
-/

namespace MultisigNative.Library.Simulation

open Library.Transition

variable {σ τ α ε : Type}

/-- The runs of a specification from `start`, with their events, the newest first. -/
inductive Runs (spec : τ → ε → τ → Prop) (start : τ) : List ε → τ → Prop
  | nil : Runs spec start [] start
  | cons {events : List ε} {t t' : τ} {event : ε} : Runs spec start events t →
      spec t event t' → Runs spec start (event :: events) t'

namespace Runs

variable {spec spec' : τ → ε → τ → Prop} {start t t' : τ} {events : List ε}

/-- What holds at the start and is kept by every step holds at the end of every run. -/
theorem invariant {I : τ → Prop} (hstart : I start)
    (hstep : ∀ t event t', spec t event t' → I t → I t') (h : Runs spec start events t) :
    I t := by
  induction h with
  | nil => exact hstart
  | cons _ hs ih => exact hstep _ _ _ hs ih

/-- The events of a run fix where it ends, if each event fixes where it leads. -/
theorem unique
    (hdeterministic : ∀ {t event t' t''}, spec t event t' → spec t event t'' → t' = t'')
    (h : Runs spec start events t) (h' : Runs spec start events t') : t = t' := by
  induction h generalizing t' with
  | nil =>
      cases h'
      rfl
  | cons _ hs ih =>
      cases h' with
      | cons hrun hs' =>
          obtain rfl := ih hrun
          exact hdeterministic hs hs'

/-- A view that sees the events satisfying `seen` as steps of `spec'`, and does not
change at the others, sees a run of `spec'`. -/
theorem project {ω : Type} {spec' : ω → ε → ω → Prop} {view : τ → ω} {seen : ε → Bool}
    (hseen : ∀ t event t', spec t event t' → seen event = true →
      spec' (view t) event (view t'))
    (hunseen : ∀ t event t', spec t event t' → seen event = false → view t' = view t)
    (h : Runs spec start events t) :
    Runs spec' (view start) (events.filter seen) (view t) := by
  induction h with
  | nil => exact .nil
  | @cons events t t' event _ hs ih =>
      cases hevent : seen event with
      | true =>
          rw [List.filter_cons_of_pos hevent]
          exact ih.cons (hseen _ _ _ hs hevent)
      | false =>
          rw [List.filter_cons_of_neg (by simp [hevent]), hunseen _ _ _ hs hevent]
          exact ih

end Runs

/-- What a step of the system is to the specification. -/
inductive Meaning (ε : Type)
  | silent
  | event (e : ε)
  | commit
  | rollback

namespace Meaning

/-- A step inside a transaction that shows as one event or not at all. -/
def shown : Option ε → Meaning ε
  | some e => .event e
  | none => .silent

@[simp] theorem shown_eq_event_iff {e : ε} {o : Option ε} :
    shown o = .event e ↔ o = some e := by
  cases o <;> simp [shown]

@[simp] theorem shown_eq_silent_iff {o : Option ε} : shown o = .silent ↔ o = none := by
  cases o <;> simp [shown]

@[simp] theorem shown_ne_commit (o : Option ε) : shown o ≠ .commit := by
  cases o <;> simp [shown]

@[simp] theorem shown_ne_rollback (o : Option ε) : shown o ≠ .rollback := by
  cases o <;> simp [shown]

/-- The events after the step that have not been rolled back. -/
def standing (events kept : List ε) : Meaning ε → List ε
  | .silent => events
  | .event e => e :: events
  | .commit => events
  | .rollback => kept

/-- Those that can no longer be rolled back. -/
def settled (events kept : List ε) : Meaning ε → List ε
  | .commit => events
  | _ => kept

end Meaning

/-- The states of the system, each with the events that have not been rolled back on
the way to it and those of them that can no longer be. -/
inductive Journal (initial : σ → Prop) (step : σ → α → Option σ) (allowed : σ → α → Prop)
    (meaning : σ → α → Meaning ε) : σ → List ε → List ε → Prop
  | init {s : σ} : initial s → Journal initial step allowed meaning s [] []
  | next {s s' : σ} {a : α} {events kept : List ε} :
      Journal initial step allowed meaning s events kept → allowed s a →
      step s a = some s' →
      Journal initial step allowed meaning s' ((meaning s a).standing events kept)
        ((meaning s a).settled events kept)

section Journal

variable {initial : σ → Prop} {step : σ → α → Option σ} {allowed : σ → α → Prop}
  {meaning : σ → α → Meaning ε} {s : σ} {events kept : List ε}

theorem Journal.reachable (h : Journal initial step allowed meaning s events kept) :
    Reachable initial step allowed s := by
  induction h with
  | init h => exact .init h
  | next _ hallowed hs ih => exact ih.next hallowed hs

theorem exists_journal (meaning : σ → α → Meaning ε) (h : Reachable initial step allowed s) :
    ∃ events kept, Journal initial step allowed meaning s events kept := by
  induction h with
  | init h => exact ⟨[], [], .init h⟩
  | next _ hallowed hs ih =>
      rcases ih with ⟨events, kept, hjournal⟩
      exact ⟨_, _, hjournal.next hallowed hs⟩

/-- Take steps in order, each tested by `ok` first, and keep the journal. -/
def record (step : σ → α → Option σ) (ok : σ → α → Bool) (meaning : σ → α → Meaning ε) :
    σ → List ε → List ε → List α → Option (σ × List ε × List ε)
  | s, events, kept, [] => some (s, events, kept)
  | s, events, kept, a :: as =>
      if ok s a then
        (step s a).bind fun s' => record step ok meaning s' ((meaning s a).standing events kept)
          ((meaning s a).settled events kept) as
      else none

theorem journal_of_record {ok : σ → α → Bool} {s' : σ} {events' kept' : List ε} {as : List α}
    (hok : ∀ s a, ok s a = true → allowed s a)
    (h : Journal initial step allowed meaning s events kept)
    (hrecord : record step ok meaning s events kept as = some (s', events', kept')) :
    Journal initial step allowed meaning s' events' kept' := by
  induction as generalizing s events kept with
  | nil =>
      simp only [record, Option.some.injEq, Prod.mk.injEq] at hrecord
      rcases hrecord with ⟨rfl, rfl, rfl⟩
      exact h
  | cons a as ih =>
      simp only [record] at hrecord
      split at hrecord
      · rename_i hallowed
        obtain ⟨mid, hmid, hrest⟩ := Option.bind_eq_some_iff.mp hrecord
        exact ih (h.next (hok s a hallowed) hmid) hrest
      · cases hrecord

/-- A relation between a state of the system, the state of the specification that it
stands for, and the one to which a failure goes back. -/
structure Simulates (initial : σ → Prop) (step : σ → α → Option σ)
    (allowed : σ → α → Prop) (meaning : σ → α → Meaning ε) (spec : τ → ε → τ → Prop)
    (start : τ) (R : σ → τ → τ → Prop) : Prop where
  init : ∀ {s}, initial s → R s start start
  silent : ∀ {s a s' t back}, R s t back → allowed s a → step s a = some s' →
    meaning s a = .silent → R s' t back
  event : ∀ {s a s' t back e}, R s t back → allowed s a → step s a = some s' →
    meaning s a = .event e → ∃ t', spec t e t' ∧ R s' t' back
  commit : ∀ {s a s' t back}, R s t back → allowed s a → step s a = some s' →
    meaning s a = .commit → R s' t t
  rollback : ∀ {s a s' t back}, R s t back → allowed s a → step s a = some s' →
    meaning s a = .rollback → R s' back back

/-- Where the system allows less, the specification can be narrowed accordingly. -/
theorem Simulates.narrow {allowed' : σ → α → Prop} {spec spec' : τ → ε → τ → Prop} {start : τ}
    {R : σ → τ → τ → Prop} (hsim : Simulates initial step allowed meaning spec start R)
    (hallowed : ∀ {s a}, allowed' s a → allowed s a)
    (hspec : ∀ {s a t t' back e}, R s t back → allowed' s a → meaning s a = .event e →
      spec t e t' → spec' t e t') :
    Simulates initial step allowed' meaning spec' start R where
  init := hsim.init
  silent hR ha := hsim.silent hR (hallowed ha)
  event hR ha hs hmeaning := by
    obtain ⟨t', ht', hR'⟩ := hsim.event hR (hallowed ha) hs hmeaning
    exact ⟨t', hspec hR ha hmeaning ht', hR'⟩
  commit hR ha := hsim.commit hR (hallowed ha)
  rollback hR ha := hsim.rollback hR (hallowed ha)

/-- Every run of the system is a run of the specification on the events that have not
been rolled back. -/
theorem Simulates.runs {spec : τ → ε → τ → Prop} {start : τ} {R : σ → τ → τ → Prop}
    (hsim : Simulates initial step allowed meaning spec start R)
    (h : Journal initial step allowed meaning s events kept) :
    ∃ t back, Runs spec start events t ∧ Runs spec start kept back ∧ R s t back := by
  induction h with
  | init h => exact ⟨start, start, .nil, .nil, hsim.init h⟩
  | @next s s' a events kept _ hallowed hs ih =>
      rcases ih with ⟨t, back, hrun, hback, hR⟩
      cases hmeaning : meaning s a with
      | silent => exact ⟨t, back, hrun, hback, hsim.silent hR hallowed hs hmeaning⟩
      | event e =>
          obtain ⟨t', hspec, hR'⟩ := hsim.event hR hallowed hs hmeaning
          exact ⟨t', back, hrun.cons hspec, hback, hR'⟩
      | commit => exact ⟨t, t, hrun, hrun, hsim.commit hR hallowed hs hmeaning⟩
      | rollback => exact ⟨back, back, hback, hback, hsim.rollback hR hallowed hs hmeaning⟩

end Journal

end MultisigNative.Library.Simulation
