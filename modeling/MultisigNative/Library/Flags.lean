import Mathlib.Init

/-!
Rows of flags that are only ever set.  What such a row has come to depends on
which positions were set, not on the order or on how often.
-/

namespace MultisigNative.Library.Flags

/-- `new` is `old` with the flags at `positions` set and no other changed. -/
structure Marked (positions : Nat → Prop) (old new : List Bool) : Prop where
  length_eq : new.length = old.length
  getElem?_iff : ∀ i : Nat, new[i]? = some true ↔ old[i]? = some true ∨ positions i

namespace Marked

variable {positions positions' : Nat → Prop} {old new new' : List Bool}

theorem refl (hnone : ∀ i, ¬ positions i) (old : List Bool) : Marked positions old old where
  length_eq := rfl
  getElem?_iff i := by simp [hnone i]

theorem set (h : Marked positions old new) {i : Nat} (hi : i < old.length)
    (hpositions : ∀ j, positions' j ↔ positions j ∨ j = i) :
    Marked positions' old (new.set i true) where
  length_eq := by rw [List.length_set, h.length_eq]
  getElem?_iff j := by
    rw [hpositions, List.getElem?_set]
    by_cases hij : i = j
    · subst hij
      simp [h.length_eq, hi]
    · simp [hij, Ne.symm hij, h.getElem?_iff]

theorem unique (h : Marked positions old new) (h' : Marked positions' old new')
    (hsame : ∀ i, positions i ↔ positions' i) : new = new' := by
  apply List.ext_getElem (h.length_eq.trans h'.length_eq.symm)
  intro i hi hi'
  have hflag : new[i]? = some true ↔ new'[i]? = some true := by
    rw [h.getElem?_iff, h'.getElem?_iff, hsame]
  rw [List.getElem?_eq_getElem hi, List.getElem?_eq_getElem hi'] at hflag
  rw [Bool.eq_iff_iff]
  simpa only [Option.some.injEq] using hflag

end Marked

/-- Setting flags does not lower their number. -/
theorem filter_length_le {old new : List Bool} (hlen : new.length = old.length)
    (hkeep : ∀ i : Nat, old[i]? = some true → new[i]? = some true) :
    (old.filter fun flag => flag).length ≤ (new.filter fun flag => flag).length := by
  induction old generalizing new with
  | nil => simp
  | cons flag old ih =>
      cases new with
      | nil => cases hlen
      | cons flag' new =>
          have hrest := ih (Nat.succ.inj hlen) fun i hi => hkeep (i + 1) hi
          have hhead := hkeep 0
          cases flag with
          | false =>
              simp only [List.filter_cons, Bool.false_eq_true, if_false]
              split
              · rw [List.length_cons]
                omega
              · exact hrest
          | true =>
              have hset : flag' = true := by simpa using hhead rfl
              simp only [hset, List.filter_cons, if_true, List.length_cons]
              omega

end MultisigNative.Library.Flags
