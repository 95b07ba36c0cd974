import Mathlib.Data.List.Nodup

/-!
A roster of distinct members with a row of flags, one for each position: which
members are flagged, and how many.
-/

namespace MultisigNative.Library.Roster

variable {α : Type}

/-- The members whose flag is set, in the order of the roster. -/
def flagged : List Bool → List α → List α
  | [], _ => []
  | _, [] => []
  | true :: flags, a :: members => a :: flagged flags members
  | false :: flags, _ :: members => flagged flags members

theorem flagged_sublist (flags : List Bool) (members : List α) :
    (flagged flags members).Sublist members := by
  induction flags generalizing members with
  | nil => exact List.nil_sublist _
  | cons flag flags ih =>
      cases members with
      | nil => exact List.nil_sublist _
      | cons a members =>
          cases flag with
          | true => exact (ih members).cons_cons a
          | false => exact (ih members).cons a

theorem flagged_nodup (flags : List Bool) {members : List α} (h : members.Nodup) :
    (flagged flags members).Nodup :=
  h.sublist (flagged_sublist flags members)

theorem mem_flagged_iff {flags : List Bool} {members : List α} {a : α} :
    a ∈ flagged flags members ↔
      ∃ i : Nat, flags[i]? = some true ∧ members[i]? = some a := by
  induction flags generalizing members with
  | nil => simp [flagged]
  | cons flag flags ih =>
      cases members with
      | nil => simp [flagged]
      | cons b members =>
          have htail : a ∈ flagged flags members ↔
              ∃ i : Nat, (flag :: flags)[i + 1]? = some true ∧
                (b :: members)[i + 1]? = some a := by
            simpa using ih
          cases flag with
          | true =>
              rw [flagged, List.mem_cons, htail]
              constructor
              · rintro (rfl | ⟨i, hflag, hmember⟩)
                · exact ⟨0, rfl, rfl⟩
                · exact ⟨i + 1, hflag, hmember⟩
              · rintro ⟨i, hflag, hmember⟩
                cases i with
                | zero => exact .inl (Option.some.inj hmember).symm
                | succ i => exact .inr ⟨i, hflag, hmember⟩
          | false =>
              rw [flagged, htail]
              constructor
              · rintro ⟨i, hflag, hmember⟩
                exact ⟨i + 1, hflag, hmember⟩
              · rintro ⟨i, hflag, hmember⟩
                cases i with
                | zero => simp at hflag
                | succ i => exact ⟨i, hflag, hmember⟩

/-- With a flag for each member, there are as many flagged members as flags set. -/
theorem flagged_length {flags : List Bool} {members : List α}
    (h : flags.length = members.length) :
    (flagged flags members).length = (flags.filter fun flag => flag).length := by
  induction flags generalizing members with
  | nil => rfl
  | cons flag flags ih =>
      cases members with
      | nil => simp at h
      | cons b members =>
          have htail := ih (Nat.succ.inj h)
          cases flag with
          | true => simpa [flagged] using htail
          | false => simpa [flagged] using htail

/-- Flags that single out a duplicate-free list of members count it. -/
theorem count_eq_of_singled_out {flags : List Bool} {members chosen : List α}
    (hmembers : members.Nodup) (hlen : flags.length = members.length)
    (hchosen : chosen.Nodup) (hsub : ∀ a ∈ chosen, a ∈ members)
    (hflags : ∀ (i : Nat) a, members[i]? = some a → (flags[i]? = some true ↔ a ∈ chosen)) :
    (flags.filter fun flag => flag).length = chosen.length := by
  rw [← flagged_length hlen]
  apply List.Perm.length_eq
  refine (List.perm_ext_iff_of_nodup (flagged_nodup flags hmembers) hchosen).mpr ?_
  intro a
  rw [mem_flagged_iff]
  constructor
  · rintro ⟨i, hflag, hmember⟩
    exact (hflags i a hmember).mp hflag
  · intro ha
    obtain ⟨i, hmember⟩ := List.mem_iff_getElem?.mp (hsub a ha)
    exact ⟨i, (hflags i a hmember).mpr ha, hmember⟩

end MultisigNative.Library.Roster
