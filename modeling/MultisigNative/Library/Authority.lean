import Mathlib.Init

/-!
Confinement of capabilities on a call stack.  A frame holds capabilities that it
was passed and may grant others of its own; callees get what their caller holds
or grants.  Then whatever a frame holds was granted further down the stack.
-/

namespace MultisigNative.Library.Authority

variable {F K : Type}

/-- Every capability that a frame holds is granted by a frame below it. -/
def Confined (holds grants : F → K → Prop) : List F → Prop
  | [] => True
  | frame :: rest =>
      (∀ k, holds frame k → ∃ granter ∈ rest, grants granter k) ∧
        Confined holds grants rest

/-- What the caller may pass on: from outside nothing. -/
def Passes (holds grants : F → K → Prop) (caller : Option F) (k : K) : Prop :=
  ∃ frame, caller = some frame ∧ (holds frame k ∨ grants frame k)

variable {holds grants : F → K → Prop} {stack rest : List F} {frame : F}

namespace Confined

theorem tail (h : Confined holds grants (frame :: rest)) : Confined holds grants rest :=
  h.2

/-- What the top of the stack passes on was granted somewhere on the stack. -/
theorem granted (h : Confined holds grants stack) {k : K}
    (hpass : Passes holds grants stack.head? k) : ∃ granter ∈ stack, grants granter k := by
  rcases hpass with ⟨frame, hhead, hfrom⟩
  cases stack with
  | nil => cases hhead
  | cons top rest =>
      obtain rfl := Option.some.inj hhead
      rcases hfrom with hholds | hgrants
      · obtain ⟨granter, hmem, hgrants⟩ := h.1 k hholds
        exact ⟨granter, List.mem_cons_of_mem _ hmem, hgrants⟩
      · exact ⟨top, List.mem_cons_self .., hgrants⟩

/-- What any frame on the stack holds was granted on the stack. -/
theorem granted_of_mem (h : Confined holds grants stack) (hmem : frame ∈ stack) {k : K}
    (hk : holds frame k) : ∃ granter ∈ stack, grants granter k := by
  induction stack with
  | nil => cases hmem
  | cons top rest ih =>
      have hbelow : ∃ granter ∈ rest, grants granter k := by
        rcases List.mem_cons.mp hmem with rfl | hrest
        · exact h.1 k hk
        · exact ih h.2 hrest
      rcases hbelow with ⟨granter, hgranter, hgrants⟩
      exact ⟨granter, List.mem_cons_of_mem _ hgranter, hgrants⟩

/-- A callee that holds only what its caller passes on keeps the stack confined. -/
theorem push (h : Confined holds grants stack)
    (hframe : ∀ k, holds frame k → Passes holds grants stack.head? k) :
    Confined holds grants (frame :: stack) := by
  refine ⟨?_, h⟩
  intro k hk
  exact h.granted (hframe k hk)

/-- The top may be replaced by a frame that holds and grants the same. -/
theorem replace {frame' : F} (h : Confined holds grants (frame :: rest))
    (hholds : ∀ k, holds frame' k → holds frame k) :
    Confined holds grants (frame' :: rest) := by
  refine ⟨?_, h.2⟩
  intro k hk
  exact h.1 k (hholds k hk)

end Confined

/-- Every frame holds only what its caller passed on; from outside comes nothing. -/
def HandedDown (holds grants : F → K → Prop) : List F → Prop
  | [] => True
  | frame :: rest =>
      (∀ k, holds frame k → Passes holds grants rest.head? k) ∧
        HandedDown holds grants rest

namespace HandedDown

theorem of_append {above : List F} (h : HandedDown holds grants (above ++ stack)) :
    HandedDown holds grants stack := by
  induction above with
  | nil => exact h
  | cons frame above ih => exact ih h.2

theorem replace {frame' : F} (h : HandedDown holds grants (frame :: rest))
    (hholds : ∀ k, holds frame' k → holds frame k) :
    HandedDown holds grants (frame' :: rest) :=
  ⟨fun k hk => h.1 k (hholds k hk), h.2⟩

end HandedDown

end MultisigNative.Library.Authority
