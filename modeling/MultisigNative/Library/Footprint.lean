import Mathlib.Data.Set.Function
import MultisigNative.Library.StateError

/-!
Programs over a store that look at some of its places only.  Two steps of this kind commute
if neither writes what the other looks at.
-/

namespace MultisigNative.Library.Footprint

open Library.StateError

variable {ε K V α β : Type} {S T : Set K}

/-- Where the program succeeds it changes nothing outside these places, and it does the same
wherever they hold the same. -/
structure Local (S : Set K) (x : EStateM ε (K → V) α) : Prop where
  frame : ∀ {s a s'}, x s = .ok a s' → ∀ k ∉ S, s' k = s k
  congr : ∀ {s t a s'}, Set.EqOn s t S → x s = .ok a s' →
    ∃ t', x t = .ok a t' ∧ Set.EqOn s' t' S

namespace Local

/-- A program that does not write. -/
theorem of_readsOnly {x : EStateM ε (K → V) α}
    (hreads : ∀ {s a s'}, x s = .ok a s' → s' = s)
    (hsame : ∀ {s t a}, Set.EqOn s t S → x s = .ok a s → x t = .ok a t) : Local S x where
  frame h k _ := by rw [hreads h]
  congr hst h := by
    obtain rfl := hreads h
    exact ⟨_, hsame hst h, hst⟩

theorem pure (a : α) : Local S (Pure.pure a : EStateM ε (K → V) α) :=
  of_readsOnly (fun h => (pure_eq_ok_iff.mp h).2.symm) fun _ h =>
    pure_eq_ok_iff.mpr ⟨(pure_eq_ok_iff.mp h).1, rfl⟩

theorem throw (e : ε) : Local S (MonadExcept.throw e : EStateM ε (K → V) α) where
  frame h := (throw_ne_ok.mp h).elim
  congr _ h := (throw_ne_ok.mp h).elim

theorem ofExcept {ε' : Type} (wrap : ε' → ε) (x : Except ε' α) :
    Local S (StateError.ofExcept wrap x : EStateM ε (K → V) α) :=
  of_readsOnly (fun h => (ofExcept_eq_ok_iff.mp h).2.symm) fun _ h =>
    ofExcept_eq_ok_iff.mpr ⟨(ofExcept_eq_ok_iff.mp h).1, rfl⟩

theorem read {k : K} (hk : k ∈ S) (g : V → α) :
    Local S (do return g ((← get) k) : EStateM ε (K → V) α) := by
  refine of_readsOnly (fun h => ?_) fun hst h => ?_
  · cases h
    rfl
  · cases h
    change EStateM.Result.ok (g _) _ = _
    rw [hst hk]

theorem update [DecidableEq K] {k : K} (hk : k ∈ S) (g : V → V) :
    Local S (modify fun s => Function.update s k (g (s k)) : EStateM ε (K → V) Unit) where
  frame h k' hk' := by
    obtain rfl := modify_eq_ok_iff.mp h
    rw [Function.update_of_ne]
    rintro rfl
    exact hk' hk
  congr hst h := by
    obtain rfl := modify_eq_ok_iff.mp h
    refine ⟨_, modify_eq_ok_iff.mpr rfl, fun k' hk' => ?_⟩
    by_cases hkk : k' = k
    · subst hkk
      rw [Function.update_self, Function.update_self, hst hk']
    · rw [Function.update_of_ne hkk, Function.update_of_ne hkk, hst hk']

/-- The rest of a sequence need only be local for what its beginning can return. -/
theorem bind {x : EStateM ε (K → V) α} {f : α → EStateM ε (K → V) β} (hx : Local S x)
    (hf : ∀ a, (∃ s s', x s = .ok a s') → Local S (f a)) : Local S (x >>= f) where
  frame h k hk := by
    obtain ⟨a, mid, hrun, hrest⟩ := bind_eq_ok_iff.mp h
    rw [(hf a ⟨_, mid, hrun⟩).frame hrest k hk, hx.frame hrun k hk]
  congr hst h := by
    obtain ⟨a, mid, hrun, hrest⟩ := bind_eq_ok_iff.mp h
    obtain ⟨mid', hrun', hmid⟩ := hx.congr hst hrun
    obtain ⟨t', hrest', ht'⟩ := (hf a ⟨_, mid, hrun⟩).congr hmid hrest
    exact ⟨t', bind_eq_ok_iff.mpr ⟨a, mid', hrun', hrest'⟩, ht'⟩

theorem forM {γ : Type} {f : γ → EStateM ε (K → V) Unit} (items : List γ)
    (hf : ∀ item ∈ items, Local S (f item)) : Local S (items.forM f) := by
  induction items with
  | nil => exact .pure ()
  | cons item items ih =>
      rw [List.forall_mem_cons] at hf
      exact .bind hf.1 fun _ _ => ih hf.2

end Local

section Places

variable {x : EStateM ε (K → V) α}

/-- More places do no harm. -/
theorem Local.mono (hx : Local S x) (hST : S ⊆ T) : Local T x where
  frame h k hk := hx.frame h k fun hS => hk (hST hS)
  congr := by
    intro s t a s' hst h
    obtain ⟨t', ht', hsame⟩ := hx.congr (hst.mono hST) h
    refine ⟨t', ht', fun k hk => ?_⟩
    by_cases hS : k ∈ S
    · exact hsame hS
    · rw [hx.frame h k hS, hx.frame ht' k hS, hst hk]

end Places

/-- A step that always leaves a store and also reports something: it changes nothing outside
these places, and it reports and leaves the same there wherever they hold the same. -/
structure LocalStep (S : Set K) (x : (K → V) → (K → V) × α) : Prop where
  frame : ∀ s, ∀ k ∉ S, (x s).1 k = s k
  congr : ∀ {s t}, Set.EqOn s t S → (x s).2 = (x t).2 ∧ Set.EqOn (x s).1 (x t).1 S

section Commuting

variable {x : (K → V) → (K → V) × α} {y : (K → V) → (K → V) × β}

/-- A step does not notice another one that keeps its places. -/
theorem LocalStep.report_eq (hx : LocalStep S x) (hkept : ∀ s, ∀ k ∈ S, (y s).1 k = s k)
    (s : K → V) : (x (y s).1).2 = (x s).2 :=
  (hx.congr fun k hk => hkept s k hk).1

/-- Steps of which neither writes what the other looks at leave the same in either order. -/
theorem LocalStep.commute (hx : LocalStep S x) (hy : LocalStep T y)
    (hkeeps : ∀ s, ∀ k ∈ T, (x s).1 k = s k) (hkept : ∀ s, ∀ k ∈ S, (y s).1 k = s k)
    (s : K → V) : (y (x s).1).1 = (x (y s).1).1 := by
  funext k
  by_cases hS : k ∈ S
  · rw [hkept _ k hS, (hx.congr fun k hk => hkept s k hk).2 hS]
  · rw [hx.frame _ k hS]
    by_cases hT : k ∈ T
    · exact (hy.congr fun k hk => hkeeps s k hk).2 hT
    · rw [hy.frame _ k hT, hy.frame _ k hT, hx.frame _ k hS]

end Commuting

end MultisigNative.Library.Footprint
