import MultisigNative.Library.StateError

/-!
Programs that make calls to an environment, with a log of the calls made.  The
environment may answer each call by all that was called before.
-/

namespace MultisigNative.Library.CallLog

open Library.StateError

variable {ε σ κ α : Type}

/-- A program in a state, together with the calls it has made so far. -/
abbrev Logged (ε σ κ : Type) := EStateM ε (σ × List κ)

/-- A part of the program that makes no calls. -/
def quietly (x : EStateM ε σ α) : Logged ε σ κ α := fun s =>
  match x s.1 with
  | .ok a t => .ok a (t, s.2)
  | .error e t => .error e (t, s.2)

def call (environment : List κ → κ → EStateM ε σ Unit) (k : κ) : Logged ε σ κ Unit := fun s =>
  match environment s.2 k s.1 with
  | .ok u t => .ok u (t, s.2 ++ [k])
  | .error e t => .error e (t, s.2 ++ [k])

theorem quietly_of_ok {x : EStateM ε σ α} {s t : σ} {a : α} (made : List κ)
    (h : x s = .ok a t) : quietly x (s, made) = .ok a (t, made) := by
  simp only [quietly, h]

/-- Calls in order are all made, or those up to the first that fails. -/
theorem forM_call_cases (environment : List κ → κ → EStateM ε σ Unit) (calls : List κ)
    (s : σ) (made : List κ) :
    (∃ t, calls.forM (call environment) (s, made) = .ok () (t, made ++ calls)) ∨
      ∃ done failing rest e mid t, calls = done ++ failing :: rest ∧
        done.forM (call environment) (s, made) = .ok () (mid, made ++ done) ∧
        environment (made ++ done) failing mid = .error e t ∧
        calls.forM (call environment) (s, made) = .error e (t, made ++ (done ++ [failing])) := by
  induction calls generalizing s made with
  | nil =>
      left
      exact ⟨s, by rw [List.append_nil]; rfl⟩
  | cons k calls ih =>
      have hforM : ∀ (ks : List κ) (s : σ), (k :: ks).forM (call environment) (s, made) =
          (call environment k >>= fun _ => ks.forM (call environment)) (s, made) :=
        fun _ _ => rfl
      cases henv : environment made k s with
      | error e t =>
          right
          refine ⟨[], k, calls, e, s, t, rfl, by rw [List.append_nil]; rfl, ?_, ?_⟩
          · rw [List.append_nil]
            exact henv
          · rw [hforM]
            apply bind_of_error
            simp only [call, henv, List.nil_append]
      | ok u t =>
          have hcall : call environment k (s, made) = .ok u (t, made ++ [k]) := by
            simp only [call, henv]
          rcases ih t (made ++ [k]) with
            ⟨t', hrest⟩ | ⟨done, failing, rest, e, mid, t', rfl, hdone, hfails, hrest⟩
          · left
            refine ⟨t', ?_⟩
            rw [hforM, bind_of_ok hcall, hrest, List.append_assoc, List.singleton_append]
          · right
            refine ⟨k :: done, failing, rest, e, mid, t', rfl, ?_, ?_, ?_⟩
            · rw [hforM, bind_of_ok hcall, hdone, List.append_assoc, List.singleton_append]
            · rw [List.append_cons]
              exact hfails
            · rw [hforM, bind_of_ok hcall, hrest, List.append_assoc, List.singleton_append,
                List.cons_append]

end MultisigNative.Library.CallLog
