import Mathlib.Init

/-!
Inversion rules for programs in `EStateM`: what a successful run of a
sequence, a test, a read or a write says about the state before and after.
-/

namespace MultisigNative.Library.StateError

variable {ε σ α β : Type}

theorem bind_eq_ok_iff {x : EStateM ε σ α} {f : α → EStateM ε σ β} {s t : σ}
    {b : β} :
    (x >>= f) s = .ok b t ↔ ∃ a s', x s = .ok a s' ∧ f a s' = .ok b t := by
  change EStateM.bind x f s = .ok b t ↔ _
  unfold EStateM.bind
  cases x s with
  | ok a s' =>
      constructor
      · intro h
        exact ⟨a, s', rfl, h⟩
      · rintro ⟨a', s'', h, hf⟩
        cases h
        exact hf
  | error e s' => simp

theorem bind_of_ok {x : EStateM ε σ α} {f : α → EStateM ε σ β} {s s' : σ}
    {a : α} (h : x s = .ok a s') : (x >>= f) s = f a s' := by
  change EStateM.bind x f s = _
  simp only [EStateM.bind, h]

theorem bind_of_error {x : EStateM ε σ α} {f : α → EStateM ε σ β} {s s' : σ}
    {e : ε} (h : x s = .error e s') : (x >>= f) s = .error e s' := by
  change EStateM.bind x f s = _
  simp only [EStateM.bind, h]

theorem bind_eq_error_iff {x : EStateM ε σ α} {f : α → EStateM ε σ β} {s t : σ} {e : ε} :
    (x >>= f) s = .error e t ↔
      x s = .error e t ∨ ∃ a s', x s = .ok a s' ∧ f a s' = .error e t := by
  cases hrun : x s with
  | ok a s' =>
      rw [bind_of_ok hrun]
      constructor
      · intro h
        exact .inr ⟨a, s', rfl, h⟩
      · rintro (h | ⟨a', s'', h, hf⟩)
        · cases h
        · cases h
          exact hf
  | error e' s' =>
      rw [bind_of_error hrun]
      simp

@[simp] theorem pure_eq_ok_iff {a b : α} {s t : σ} :
    (pure a : EStateM ε σ α) s = .ok b t ↔ a = b ∧ s = t := by
  change EStateM.Result.ok a s = .ok b t ↔ _
  simp

@[simp] theorem throw_ne_ok {e : ε} {b : α} {s t : σ} :
    (throw e : EStateM ε σ α) s = .ok b t ↔ False := by
  change EStateM.Result.error e s = .ok b t ↔ _
  simp

@[simp] theorem modify_eq_ok_iff {f : σ → σ} {s t : σ} {u : Unit} :
    (modify f : EStateM ε σ Unit) s = .ok u t ↔ f s = t := by
  change EStateM.Result.ok () (f s) = .ok u t ↔ _
  simp

/-- Does a run from this state return a value? -/
def succeeds (x : EStateM ε σ α) (s : σ) : Bool :=
  match x s with
  | .ok _ _ => true
  | .error _ _ => false

theorem succeeds_eq_true_iff {x : EStateM ε σ α} {s : σ} :
    succeeds x s = true ↔ ∃ a t, x s = .ok a t := by
  unfold succeeds
  cases x s with
  | ok a t => simp
  | error e t => simp

/-- Run a pure check inside a stateful program; the state is not touched. -/
def ofExcept {ε' : Type} (wrap : ε' → ε) (x : Except ε' α) : EStateM ε σ α :=
  fun s =>
    match x with
    | .ok a => .ok a s
    | .error e => .error (wrap e) s

@[simp] theorem ofExcept_eq_ok_iff {ε' : Type} {wrap : ε' → ε} {x : Except ε' α}
    {a : α} {s t : σ} :
    ofExcept wrap x s = .ok a t ↔ x = .ok a ∧ s = t := by
  cases x <;> simp [ofExcept]

section Outcomes

variable {x : EStateM ε σ α} {s t : σ} {a : α} {e : ε}

/-- What a run returns, whatever state it leaves. -/
def verdict (x : EStateM ε σ α) (s : σ) : Except ε α :=
  match x s with
  | .ok a _ => .ok a
  | .error e _ => .error e

/-- The state that a run leaves if it succeeds. -/
def ending (x : EStateM ε σ α) (s : σ) : Except ε σ :=
  match x s with
  | .ok _ t => .ok t
  | .error e _ => .error e

theorem verdict_of_ok (h : x s = .ok a t) : verdict x s = .ok a := by
  simp only [verdict, h]

theorem verdict_of_error (h : x s = .error e t) : verdict x s = .error e := by
  simp only [verdict, h]

theorem ending_of_ok (h : x s = .ok a t) : ending x s = .ok t := by
  simp only [ending, h]

theorem ending_of_error (h : x s = .error e t) : ending x s = .error e := by
  simp only [ending, h]

end Outcomes

section Atomic

variable {x : EStateM ε σ α} {f : α → EStateM ε σ β} {s t : σ} {a : α}

/-- A run from this state that fails leaves the state as it was. -/
def Atomic (x : EStateM ε σ α) (s : σ) : Prop := ∀ e t, x s = .error e t → t = s

/-- Neither does a run that succeeds change it. -/
structure ReadsOnly (x : EStateM ε σ α) (s : σ) : Prop where
  atomic : Atomic x s
  eq_of_ok : ∀ a t, x s = .ok a t → t = s

theorem atomic_of_ok (h : x s = .ok a t) : Atomic x s := by
  intro e t' herror
  rw [h] at herror
  cases herror

/-- Only the part of a sequence that writes has to be looked at. -/
theorem Atomic.bind (hx : ReadsOnly x s) (hf : ∀ a, x s = .ok a s → Atomic (f a) s) :
    Atomic (x >>= f) s := by
  intro e t herror
  cases hrun : x s with
  | ok a s' =>
      obtain rfl := hx.eq_of_ok a s' hrun
      rw [bind_of_ok hrun] at herror
      exact hf a hrun e t herror
  | error e' s' =>
      rw [bind_of_error hrun] at herror
      cases herror
      exact hx.atomic e t hrun

theorem ReadsOnly.bind (hx : ReadsOnly x s) (hf : ∀ a, x s = .ok a s → ReadsOnly (f a) s) :
    ReadsOnly (x >>= f) s where
  atomic := Atomic.bind hx fun a hrun => (hf a hrun).atomic
  eq_of_ok := by
    intro b t hok
    obtain ⟨a, s', hrun, hrest⟩ := bind_eq_ok_iff.mp hok
    obtain rfl := hx.eq_of_ok a s' hrun
    exact (hf a hrun).eq_of_ok b t hrest

theorem readsOnly_get (read : σ → α) :
    ReadsOnly (do return read (← get) : EStateM ε σ α) s where
  atomic := atomic_of_ok rfl
  eq_of_ok := by
    intro a t hok
    cases hok
    rfl

theorem readsOnly_ofExcept {ε' : Type} (wrap : ε' → ε) (x : Except ε' α) (s : σ) :
    ReadsOnly (ofExcept wrap x) s where
  atomic := by
    intro e t herror
    cases x with
    | ok a => cases herror
    | error e' =>
        cases herror
        rfl
  eq_of_ok := fun _ _ hok => (ofExcept_eq_ok_iff.mp hok).2.symm

end Atomic

section Checks

variable {x : Except ε α} {f : α → Except ε β}

theorem except_bind_eq_ok_iff {b : β} :
    (x >>= f) = .ok b ↔ ∃ a, x = .ok a ∧ f a = .ok b := by
  cases x with
  | ok a => simp [bind, Except.bind]
  | error e => simp [bind, Except.bind]

@[simp] theorem except_pure_eq_ok_iff {a b : α} :
    (pure a : Except ε α) = .ok b ↔ a = b := by
  simp [pure, Except.pure]

end Checks

end MultisigNative.Library.StateError
