import Mathlib.Data.Finset.Dedup
import Mathlib.Data.Finset.Card
import MultisigNative.Library.Roster
import MultisigNative.Library.Simulation

/-!
Committees that decide by quorum.  Members of a committee put motions and support them;
a motion that enough members support is carried out, and only then can the committee
itself be changed.  Each change of its roster begins a new epoch, in which the motions
of earlier ones are void.
-/

namespace MultisigNative.Library.Voting

open Library.Simulation

/-- `capacity` is the size of the first roster, `epoch` counts the rosters since. -/
structure Committee (K N : Type) where
  roster : List K
  quorum : Nat
  charter : N
  capacity : Nat
  epoch : Nat
  nodup : roster.Nodup
  quorum_pos : 0 < quorum
  quorum_le : quorum ≤ roster.length
  roster_le : roster.length ≤ capacity

/-- `epoch` and `roster` are those of the committee when the motion was put. -/
structure Motion (A K P : Type) where
  committee : A
  payload : List P
  epoch : Nat
  roster : List K
  supporters : Finset K
  payload_ne_nil : payload ≠ []
  supporters_subset : ∀ k ∈ supporters, k ∈ roster

/-- What is at an address. -/
inductive Item (A K N P : Type)
  | vacant
  | committee (c : Committee K N)
  | motion (m : Motion A K P)

/-- `running` lists the motions that are being carried out, each with its committee, the
innermost first. -/
structure Assembly (A K N P : Type) where
  item : A → Item A K N P
  running : List (A × A)

/-- What happens to a committee.  Of two addresses the first is its own, the second that
of a motion; a reform that names no quorum keeps the old one as far as the new roster
allows. -/
inductive Act (A K N P : Type)
  | found (a : A) (roster : List K) (quorum : Nat) (charter : N)
  | reform (a : A) (roster : List K) (quorum : Option Nat)
  | adjust (a : A) (quorum : Nat)
  | move (a t : A) (k : K) (payload : List P)
  | support (a t : A) (k : K)
  | start (a t : A) (k : K)
  | finish (a t : A)
  | withdraw (a t : A) (k : K)
deriving DecidableEq

variable {A K N P : Type}

namespace Committee

def found (roster : List K) (quorum : Nat) (charter : N) (hnodup : roster.Nodup)
    (hpos : 0 < quorum) (hle : quorum ≤ roster.length) : Committee K N where
  roster := roster
  quorum := quorum
  charter := charter
  capacity := roster.length
  epoch := 0
  nodup := hnodup
  quorum_pos := hpos
  quorum_le := hle
  roster_le := Nat.le_refl _

/-- The quorum after a reform. -/
def nextQuorum (c : Committee K N) (roster : List K) : Option Nat → Nat
  | none => min c.quorum roster.length
  | some quorum => quorum

/-- The rosters and quorums that the committee can take. -/
structure Accepts (c : Committee K N) (roster : List K) (quorum : Nat) : Prop where
  nodup : roster.Nodup
  pos : 0 < quorum
  le : quorum ≤ roster.length
  roster_le : roster.length ≤ c.capacity

def reform (c : Committee K N) (roster : List K) (quorum : Nat)
    (h : c.Accepts roster quorum) : Committee K N where
  roster := roster
  quorum := quorum
  charter := c.charter
  capacity := c.capacity
  epoch := c.epoch + 1
  nodup := h.nodup
  quorum_pos := h.pos
  quorum_le := h.le
  roster_le := h.roster_le

def adjust (c : Committee K N) (quorum : Nat) (hpos : 0 < quorum)
    (hle : quorum ≤ c.roster.length) : Committee K N :=
  { c with quorum := quorum, quorum_pos := hpos, quorum_le := hle }

/-- A motion has the support of the member who puts it. -/
def move (c : Committee K N) (a : A) (k : K) (payload : List P) (hmember : k ∈ c.roster)
    (hpayload : payload ≠ []) : Motion A K P where
  committee := a
  payload := payload
  epoch := c.epoch
  roster := c.roster
  supporters := {k}
  payload_ne_nil := hpayload
  supporters_subset := by simpa using hmember

end Committee

def Motion.support [DecidableEq K] (m : Motion A K P) (k : K) (hmember : k ∈ m.roster) :
    Motion A K P :=
  { m with
    supporters := insert k m.supporters
    supporters_subset := by
      intro k' hk'
      rcases Finset.mem_insert.mp hk' with rfl | hold
      · exact hmember
      · exact m.supporters_subset k' hold }

section Ballot

variable [DecidableEq K] {a : A} {k : K}

/-- Which members of the roster support the motion. -/
def Motion.ballot (m : Motion A K P) : List Bool :=
  m.roster.map fun k => decide (k ∈ m.supporters)

@[simp] theorem Motion.ballot_length (m : Motion A K P) :
    m.ballot.length = m.roster.length := by
  simp [Motion.ballot]

/-- One more supporter sets the flag in its position and no other. -/
theorem map_mem_insert {roster : List K} (hnodup : roster.Nodup) {i : Nat}
    (hposition : roster[i]? = some k) (S : Finset K) :
    (roster.map fun k' => decide (k' ∈ S)).set i true =
      roster.map fun k' => decide (k' ∈ insert k S) := by
  apply List.ext_getElem?
  intro j
  rw [List.getElem?_set, List.length_map]
  split
  · rename_i hij
    subst hij
    obtain ⟨hi, hget⟩ := List.getElem?_eq_some_iff.mp hposition
    simp [hi, hget]
  · rename_i hij
    rw [List.getElem?_map, List.getElem?_map]
    cases hj : roster[j]? with
    | none => rfl
    | some k' =>
        have hne : k' ≠ k := by
          rintro rfl
          obtain ⟨hi, hgeti⟩ := List.getElem?_eq_some_iff.mp hposition
          obtain ⟨hj', hgetj⟩ := List.getElem?_eq_some_iff.mp hj
          exact hij ((hnodup.getElem_inj_iff).mp (hgeti.trans hgetj.symm))
        simp [hne]

theorem Committee.ballot_move (c : Committee K N) {payload : List P}
    (hmember : k ∈ c.roster) (hpayload : payload ≠ []) {i : Nat}
    (hposition : c.roster[i]? = some k) :
    (c.move a k payload hmember hpayload).ballot =
      (List.replicate c.roster.length false).set i true := by
  have hset := map_mem_insert c.nodup hposition ∅
  have hnone : c.roster.map (fun k' => decide (k' ∈ (∅ : Finset K))) =
      List.replicate c.roster.length false := by
    simp
  rw [hnone] at hset
  rw [hset]
  rfl

theorem Motion.ballot_support (m : Motion A K P) (hnodup : m.roster.Nodup)
    (hmember : k ∈ m.roster) {i : Nat} (hposition : m.roster[i]? = some k) :
    (m.support k hmember).ballot = m.ballot.set i true :=
  (map_mem_insert hnodup hposition m.supporters).symm

/-- The ballot counts the supporters. -/
theorem Motion.ballot_count (m : Motion A K P) (hnodup : m.roster.Nodup) :
    (m.ballot.filter fun flag => flag).length = m.supporters.card := by
  rw [← Finset.length_toList]
  refine Roster.count_eq_of_singled_out hnodup m.ballot_length m.supporters.nodup_toList ?_ ?_
  · intro k hk
    exact m.supporters_subset k (Finset.mem_toList.mp hk)
  · intro i k hk
    rw [Finset.mem_toList]
    simp [Motion.ballot, hk]

end Ballot

namespace Assembly

def empty : Assembly A K N P := ⟨fun _ => .vacant, []⟩

/-- Every motion is of a committee whose epoch has not fallen behind the motion's, and
has its roster if they are of one epoch. -/
def Coherent (s : Assembly A K N P) : Prop :=
  ∀ t m, s.item t = .motion m → ∃ c, s.item m.committee = .committee c ∧
    m.epoch ≤ c.epoch ∧ (m.epoch = c.epoch → m.roster = c.roster)

theorem Coherent.motion_current {s : Assembly A K N P} (hs : s.Coherent) {a t : A}
    {c : Committee K N} {m : Motion A K P} (hitem : s.item a = .committee c)
    (hmotion : s.item t = .motion m) (hcommittee : m.committee = a) :
    m.epoch ≤ c.epoch ∧ (m.epoch = c.epoch → m.roster = c.roster) := by
  obtain ⟨c', hc', hle, hroster⟩ := hs t m hmotion
  rw [hcommittee, hitem] at hc'
  obtain rfl := Item.committee.inj hc'
  exact ⟨hle, hroster⟩

theorem coherent_empty : (empty : Assembly A K N P).Coherent := by
  rintro t m ⟨⟩

variable [DecidableEq A]

def put (s : Assembly A K N P) (a : A) (i : Item A K N P) : Assembly A K N P :=
  { s with item := Function.update s.item a i }

section Put

variable (s : Assembly A K N P) (a : A) (i : Item A K N P)

@[simp] theorem put_item_self : (s.put a i).item a = i := Function.update_self ..

theorem put_item_of_ne {k : A} (h : k ≠ a) : (s.put a i).item k = s.item k :=
  Function.update_of_ne h ..

end Put

end Assembly

variable [DecidableEq A] [DecidableEq K]

/-- The steps.  A motion ends without regard to what has become of it in the meantime. -/
inductive Step : Assembly A K N P → Act A K N P → Assembly A K N P → Prop
  | found {s a roster quorum charter} (hvacant : s.item a = .vacant)
      (hnodup : roster.Nodup) (hpos : 0 < quorum) (hle : quorum ≤ roster.length) :
      Step s (.found a roster quorum charter)
        (s.put a (.committee (.found roster quorum charter hnodup hpos hle)))
  | reform {s a t c roster quorum} (hitem : s.item a = .committee c)
      (hrunning : (a, t) ∈ s.running)
      (haccepts : c.Accepts roster (c.nextQuorum roster quorum)) :
      Step s (.reform a roster quorum)
        (s.put a (.committee (c.reform roster (c.nextQuorum roster quorum) haccepts)))
  | adjust {s a t c quorum} (hitem : s.item a = .committee c)
      (hrunning : (a, t) ∈ s.running) (hpos : 0 < quorum)
      (hle : quorum ≤ c.roster.length) :
      Step s (.adjust a quorum) (s.put a (.committee (c.adjust quorum hpos hle)))
  | move {s a t k c payload} (hitem : s.item a = .committee c)
      (hvacant : s.item t = .vacant) (hmember : k ∈ c.roster) (hpayload : payload ≠ []) :
      Step s (.move a t k payload)
        (s.put t (.motion (c.move a k payload hmember hpayload)))
  | support {s a t k c m} (hitem : s.item a = .committee c)
      (hmotion : s.item t = .motion m) (hcommittee : m.committee = a)
      (hepoch : m.epoch = c.epoch) (hmember : k ∈ m.roster) :
      Step s (.support a t k) (s.put t (.motion (m.support k hmember)))
  | start {s a t k c m} (hitem : s.item a = .committee c)
      (hmotion : s.item t = .motion m) (hcommittee : m.committee = a)
      (hepoch : m.epoch = c.epoch) (hmember : k ∈ c.roster)
      (hquorum : c.quorum ≤ m.supporters.card) :
      Step s (.start a t k) { s with running := (a, t) :: s.running }
  | finish {s a t rest} (hrunning : s.running = (a, t) :: rest)
      (hitem : ∀ c, s.item t ≠ .committee c) :
      Step s (.finish a t) { s.put t .vacant with running := rest }
  | withdraw {s a t k c m} (hitem : s.item a = .committee c)
      (hmotion : s.item t = .motion m) (hcommittee : m.committee = a)
      (hmember : k ∈ c.roster) :
      Step s (.withdraw a t k) (s.put t .vacant)

variable {s s' s'' : Assembly A K N P} {act : Act A K N P}

theorem Step.deterministic (h : Step s act s') (h' : Step s act s'') : s' = s'' := by
  cases h with
  | found hvacant hnodup hpos hle => cases h' with | found => rfl
  | reform hitem hrunning haccepts =>
      cases h' with
      | reform hitem' hrunning' haccepts' =>
          obtain rfl := Item.committee.inj (hitem.symm.trans hitem')
          rfl
  | adjust hitem hrunning hpos hle =>
      cases h' with
      | adjust hitem' hrunning' hpos' hle' =>
          obtain rfl := Item.committee.inj (hitem.symm.trans hitem')
          rfl
  | move hitem hvacant hmember hpayload =>
      cases h' with
      | move hitem' hvacant' hmember' hpayload' =>
          obtain rfl := Item.committee.inj (hitem.symm.trans hitem')
          rfl
  | support hitem hmotion hcommittee hepoch hmember =>
      cases h' with
      | support hitem' hmotion' hcommittee' hepoch' hmember' =>
          obtain rfl := Item.motion.inj (hmotion.symm.trans hmotion')
          rfl
  | start => cases h' with | start => rfl
  | finish hrunning hitem =>
      cases h' with
      | finish hrunning' hitem' =>
          obtain rfl := (List.cons.inj (hrunning.symm.trans hrunning')).2
          rfl
  | withdraw => cases h' with | withdraw => rfl

section Invariants

/-- A committee changes only by reforms and adjustments of its own. -/
theorem Step.committee_kept (h : Step s act s') {a : A} {c : Committee K N}
    (hitem : s.item a = .committee c) :
    s'.item a = .committee c ∨ ∃ t c', (a, t) ∈ s.running ∧ s'.item a = .committee c' ∧
      c.epoch ≤ c'.epoch ∧ (c'.epoch = c.epoch → c'.roster = c.roster) := by
  have hput : ∀ {b : A} {i : Item A K N P}, s.item b = .vacant ∨ (∃ m, s.item b = .motion m) →
      (s.put b i).item a = .committee c := by
    intro b i hb
    rw [Assembly.put_item_of_ne, hitem]
    rintro rfl
    rcases hb with hvacant | ⟨m, hmotion⟩
    · rw [hitem] at hvacant
      cases hvacant
    · rw [hitem] at hmotion
      cases hmotion
  cases h with
  | found hvacant hnodup hpos hle => exact .inl (hput (.inl hvacant))
  | @reform b t c₀ roster quorum hitem' hrunning haccepts =>
      by_cases hab : a = b
      · subst hab
        obtain rfl := Item.committee.inj (hitem.symm.trans hitem')
        refine .inr ⟨t, _, hrunning, Assembly.put_item_self .., Nat.le_succ _, ?_⟩
        intro hepoch
        exact absurd hepoch (Nat.succ_ne_self c.epoch)
      · left
        rw [Assembly.put_item_of_ne _ _ _ hab, hitem]
  | @adjust b t c₀ quorum hitem' hrunning hpos hle =>
      by_cases hab : a = b
      · subst hab
        obtain rfl := Item.committee.inj (hitem.symm.trans hitem')
        exact .inr ⟨t, _, hrunning, Assembly.put_item_self .., Nat.le_refl _, fun _ => rfl⟩
      · left
        rw [Assembly.put_item_of_ne _ _ _ hab, hitem]
  | move hitem' hvacant hmember hpayload => exact .inl (hput (.inl hvacant))
  | support hitem' hmotion hcommittee hepoch hmember => exact .inl (hput (.inr ⟨_, hmotion⟩))
  | start => exact .inl hitem
  | @finish b t rest hrunning hitem' =>
      left
      have hne : a ≠ t := by
        rintro rfl
        exact hitem' c hitem
      exact (Assembly.put_item_of_ne _ _ _ hne).trans hitem
  | withdraw hitem' hmotion hcommittee hmember => exact .inl (hput (.inr ⟨_, hmotion⟩))

/-- Where a motion comes from: it has just been put, it has just been supported, or it
was there before. -/
theorem Step.motion_cases (h : Step s act s') {t : A} {m : Motion A K P}
    (hitem : s'.item t = .motion m) :
    (∃ a k c payload hmember hpayload, act = .move a t k payload ∧
        s.item a = .committee c ∧ a ≠ t ∧ m = c.move a k payload hmember hpayload) ∨
      (∃ k m₀ c hmember, act = .support m₀.committee t k ∧ s.item t = .motion m₀ ∧
        s.item m₀.committee = .committee c ∧ m₀.epoch = c.epoch ∧
        m = m₀.support k hmember) ∨
      s.item t = .motion m := by
  have hother : ∀ {b : A} {i : Item A K N P}, (∀ m', i ≠ .motion m') →
      (s.put b i).item t = .motion m → s.item t = .motion m := by
    intro b i hi hput
    by_cases htb : t = b
    · subst htb
      rw [Assembly.put_item_self] at hput
      exact absurd hput (hi m)
    · rwa [Assembly.put_item_of_ne _ _ _ htb] at hput
  cases h with
  | found hvacant hnodup hpos hle => exact .inr (.inr (hother (by simp) hitem))
  | reform hitem' hrunning haccepts => exact .inr (.inr (hother (by simp) hitem))
  | adjust hitem' hrunning hpos hle => exact .inr (.inr (hother (by simp) hitem))
  | @move a b k c payload hcommittee hvacant hmember hpayload =>
      by_cases htb : t = b
      · subst htb
        rw [Assembly.put_item_self] at hitem
        refine .inl ⟨a, k, c, payload, hmember, hpayload, rfl, hcommittee, ?_,
          (Item.motion.inj hitem).symm⟩
        rintro rfl
        rw [hcommittee] at hvacant
        cases hvacant
      · rw [Assembly.put_item_of_ne _ _ _ htb] at hitem
        exact .inr (.inr hitem)
  | @support a b k c m₀ hcommittee hmotion hof hepoch hmember =>
      by_cases htb : t = b
      · subst htb
        rw [Assembly.put_item_self] at hitem
        subst hof
        exact .inr (.inl ⟨k, m₀, c, hmember, rfl, hmotion, hcommittee, hepoch,
          (Item.motion.inj hitem).symm⟩)
      · rw [Assembly.put_item_of_ne _ _ _ htb] at hitem
        exact .inr (.inr hitem)
  | start => exact .inr (.inr hitem)
  | finish hrunning hitem' => exact .inr (.inr (hother (by simp) hitem))
  | withdraw hitem' hmotion hcommittee hmember => exact .inr (.inr (hother (by simp) hitem))

/-- Where a committee comes from: it has just been founded, or there was one with its
capacity before. -/
theorem Step.committee_cases (h : Step s act s') {a : A} {c : Committee K N}
    (hitem : s'.item a = .committee c) :
    (∃ roster quorum charter, act = .found a roster quorum charter ∧
        c.capacity = roster.length) ∨
      ∃ c₀, s.item a = .committee c₀ ∧ c₀.capacity = c.capacity := by
  have hother : ∀ {b : A} {i : Item A K N P}, (∀ c', i ≠ .committee c') →
      (s.put b i).item a = .committee c → ∃ c₀, s.item a = .committee c₀ ∧
        c₀.capacity = c.capacity := by
    intro b i hi hput
    by_cases hab : a = b
    · subst hab
      rw [Assembly.put_item_self] at hput
      exact absurd hput (hi c)
    · rw [Assembly.put_item_of_ne _ _ _ hab] at hput
      exact ⟨c, hput, rfl⟩
  have hsame : ∀ {b : A} {c₁ c₂ : Committee K N}, s.item b = .committee c₁ →
      (s.put b (.committee c₂)).item a = .committee c → c₁.capacity = c₂.capacity →
      ∃ c₀, s.item a = .committee c₀ ∧ c₀.capacity = c.capacity := by
    intro b c₁ c₂ hc₁ hput hcapacity
    by_cases hab : a = b
    · subst hab
      rw [Assembly.put_item_self] at hput
      obtain rfl := Item.committee.inj hput
      exact ⟨c₁, hc₁, hcapacity⟩
    · rw [Assembly.put_item_of_ne _ _ _ hab] at hput
      exact ⟨c, hput, rfl⟩
  cases h with
  | @found b roster quorum charter hvacant hnodup hpos hle =>
      by_cases hab : a = b
      · subst hab
        rw [Assembly.put_item_self] at hitem
        obtain rfl := Item.committee.inj hitem
        exact .inl ⟨roster, quorum, charter, rfl, rfl⟩
      · rw [Assembly.put_item_of_ne _ _ _ hab] at hitem
        exact .inr ⟨c, hitem, rfl⟩
  | reform hitem' hrunning haccepts => exact .inr (hsame hitem' hitem rfl)
  | adjust hitem' hrunning hpos hle => exact .inr (hsame hitem' hitem rfl)
  | move hitem' hvacant hmember hpayload => exact .inr (hother (by simp) hitem)
  | support hitem' hmotion hcommittee hepoch hmember => exact .inr (hother (by simp) hitem)
  | start => exact .inr ⟨c, hitem, rfl⟩
  | finish hrunning hitem' => exact .inr (hother (by simp) hitem)
  | withdraw hitem' hmotion hcommittee hmember => exact .inr (hother (by simp) hitem)

/-- No committee outgrows the largest roster that one was founded with. -/
theorem capacity_lt_of_runs {acts : List (Act A K N P)} {n : Nat}
    (hfounded : ∀ a roster quorum charter, .found a roster quorum charter ∈ acts →
      roster.length < n)
    (h : Runs Step .empty acts s) {a : A} {c : Committee K N}
    (hitem : s.item a = .committee c) : c.capacity < n := by
  induction h generalizing c with
  | nil => cases hitem
  | cons hrun hstep ih =>
      rcases hstep.committee_cases hitem with
        ⟨roster, quorum, charter, rfl, hcapacity⟩ | ⟨c₀, hc₀, hcapacity⟩
      · rw [hcapacity]
        exact hfounded a roster quorum charter (List.mem_cons_self ..)
      · rw [← hcapacity]
        exact ih (fun a roster quorum charter hmem =>
          hfounded a roster quorum charter (List.mem_cons_of_mem _ hmem)) hc₀

theorem Step.coherent (h : Step s act s') (hs : s.Coherent) : s'.Coherent := by
  have hkeep : ∀ {a : A} {c : Committee K N} {epoch : Nat} {roster : List K},
      s.item a = .committee c → epoch ≤ c.epoch → (epoch = c.epoch → roster = c.roster) →
      ∃ c', s'.item a = .committee c' ∧ epoch ≤ c'.epoch ∧
        (epoch = c'.epoch → roster = c'.roster) := by
    intro a c epoch roster hc hle hroster
    rcases h.committee_kept hc with hsame | ⟨_, c', -, hc', hle', hroster'⟩
    · exact ⟨c, hsame, hle, hroster⟩
    · refine ⟨c', hc', Nat.le_trans hle hle', ?_⟩
      intro hepoch
      rw [hroster' (by omega)]
      exact hroster (by omega)
  intro t m hitem
  rcases h.motion_cases hitem with
    ⟨a, k, c, payload, hmember, hpayload, rfl, hc, hne, rfl⟩ |
    ⟨k, m₀, c, hmember, rfl, hm₀, hc, hepoch, rfl⟩ | hold
  · exact hkeep hc (Nat.le_refl _) fun _ => rfl
  · obtain ⟨c₀, hc₀, hle, hroster⟩ := hs t m₀ hm₀
    exact hkeep hc₀ hle hroster
  · obtain ⟨c₀, hc₀, hle, hroster⟩ := hs t m hold
    exact hkeep hc₀ hle hroster

end Invariants

end MultisigNative.Library.Voting
