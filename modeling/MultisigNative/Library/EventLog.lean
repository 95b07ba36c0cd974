import Mathlib.Init

/-!
States that are rebuilt from a log of events.  A log lists the newest event
first; a lawful log is one in which each event was enabled when it happened.
-/

namespace MultisigNative.Library.EventLog

variable {ε σ : Type}

/-- The state after a log.  `apply` gets the number of events that came before. -/
def replay (apply : Nat → σ → ε → σ) (initial : σ) : List ε → σ
  | [] => initial
  | event :: log => apply log.length (replay apply initial log) event

/-- Every event was enabled in the state that it met. -/
def Lawful (apply : Nat → σ → ε → σ) (initial : σ) (enabled : σ → ε → Prop) :
    List ε → Prop
  | [] => True
  | event :: log =>
      enabled (replay apply initial log) event ∧ Lawful apply initial enabled log

variable {apply : Nat → σ → ε → σ} {initial : σ} {enabled : σ → ε → Prop}

namespace Lawful

theorem of_append {later earlier : List ε}
    (h : Lawful apply initial enabled (later ++ earlier)) :
    Lawful apply initial enabled earlier := by
  induction later with
  | nil => exact h
  | cons event later ih => exact ih h.2

/-- What holds of the empty log and is kept by every enabled event holds of
every lawful log. -/
theorem invariant {I : List ε → Prop} (hnil : I [])
    (hcons : ∀ event log, Lawful apply initial enabled log →
      enabled (replay apply initial log) event → I log → I (event :: log))
    {log : List ε} (h : Lawful apply initial enabled log) : I log := by
  induction log with
  | nil => exact hnil
  | cons event log ih => exact hcons event log h.2 h.1 (ih h.2)

/-- What holds from some point of a lawful log on, and is kept by the events
after it, holds at its end. -/
theorem since {I : List ε → Prop} {later earlier : List ε} (hbase : I earlier)
    (hcons : ∀ event log, earlier.length ≤ log.length →
      Lawful apply initial enabled log → enabled (replay apply initial log) event →
      event ∈ later → I log → I (event :: log))
    (h : Lawful apply initial enabled (later ++ earlier)) : I (later ++ earlier) := by
  induction later with
  | nil => exact hbase
  | cons event later ih =>
      refine hcons event (later ++ earlier) ?_ h.2 h.1 (List.mem_cons_self ..) ?_
      · simp
      · refine ih ?_ h.2
        intro event' log hlen hlog henabled hmem hI
        exact hcons event' log hlen hlog henabled (List.mem_cons_of_mem _ hmem) hI

end Lawful

end MultisigNative.Library.EventLog
