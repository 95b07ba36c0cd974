import MultisigNative.Library.Voting

/-!
What a coalition short of a quorum can do to a committee, and what the members of other
committees can.
-/

namespace MultisigNative.Library.Voting

open Library.Simulation

variable {A K N P : Type} [DecidableEq A] [DecidableEq K] {s s' : Assembly A K N P}
  {act : Act A K N P} {acts : List (Act A K N P)} {a : A} {c : Committee K N}

section Coalition

variable {coalition : Finset K}

/-- The committee at `a` is `c`, none of its motions is being carried out, and the
coalition falls short of its quorum, by itself and with the supporters of any motion. -/
structure Contained (a : A) (c : Committee K N) (coalition : Finset K)
    (s : Assembly A K N P) : Prop where
  coherent : s.Coherent
  item : s.item a = .committee c
  idle : ∀ t, (a, t) ∉ s.running
  alone : (coalition ∩ c.roster.toFinset).card < c.quorum
  joined : ∀ t m, s.item t = .motion m → m.committee = a → m.epoch = c.epoch →
    (m.supporters ∪ coalition ∩ c.roster.toFinset).card < c.quorum

/-- Only the coalition puts and supports motions of the committee. -/
def Act.within (a : A) (coalition : Finset K) : Act A K N P → Bool
  | .move a' _ k _ => a' != a || decide (k ∈ coalition)
  | .support a' _ k => a' != a || decide (k ∈ coalition)
  | _ => true

theorem Step.mem_running (h : Step s act s') {t : A} (hmem : (a, t) ∈ s'.running) :
    (a, t) ∈ s.running ∨ ∃ k c m, act = .start a t k ∧ s.item a = .committee c ∧
      s.item t = .motion m ∧ m.committee = a ∧ m.epoch = c.epoch ∧
      c.quorum ≤ m.supporters.card := by
  cases h with
  | start hitem hmotion hcommittee hepoch hmember hquorum =>
      rcases List.mem_cons.mp hmem with hhead | hold
      · obtain ⟨rfl, rfl⟩ := Prod.mk.inj hhead
        exact .inr ⟨_, _, _, rfl, hitem, hmotion, hcommittee, hepoch, hquorum⟩
      · exact .inl hold
  | finish hrunning hitem =>
      left
      rw [hrunning]
      exact List.mem_cons_of_mem _ hmem
  | _ => exact .inl hmem

/-- One step by the coalition leaves it as short of the quorum as it was. -/
theorem Step.contained (h : Step s act s') (hwithin : act.within a coalition = true)
    (hs : Contained a c coalition s) : Contained a c coalition s' where
  coherent := h.coherent hs.coherent
  item := by
    rcases h.committee_kept hs.item with hsame | ⟨t, -, hrunning, -⟩
    · exact hsame
    · exact absurd hrunning (hs.idle t)
  idle t hmem := by
    rcases h.mem_running hmem with hold | ⟨k, c', m, -, hc, hm, hcommittee, hepoch, hquorum⟩
    · exact hs.idle t hold
    · obtain rfl := Item.committee.inj (hs.item.symm.trans hc)
      have hshort := hs.joined t m hm hcommittee hepoch
      have hsubset : m.supporters ⊆ m.supporters ∪ coalition ∩ c.roster.toFinset :=
        Finset.subset_union_left
      have hle := Finset.card_le_card hsubset
      omega
  alone := hs.alone
  joined t m hm hcommittee hepoch := by
    rcases h.motion_cases hm with
      ⟨a', k, c', payload, hmember, hpayload, rfl, hc, -, rfl⟩ |
      ⟨k, m₀, c', hmember, rfl, hm₀, hc, -, rfl⟩ | hold
    · obtain rfl : a' = a := hcommittee
      obtain rfl := Item.committee.inj (hs.item.symm.trans hc)
      have hk : {k} ⊆ coalition ∩ c.roster.toFinset := by
        simpa [Act.within, hmember] using hwithin
      change ({k} ∪ coalition ∩ c.roster.toFinset).card < c.quorum
      rw [Finset.union_eq_right.mpr hk]
      exact hs.alone
    · obtain rfl : m₀.committee = a := hcommittee
      obtain ⟨c₀, hc₀, -, hroster⟩ := hs.coherent t m₀ hm₀
      obtain rfl := Item.committee.inj (hs.item.symm.trans hc₀)
      have hk : k ∈ m₀.supporters ∪ coalition ∩ c.roster.toFinset := by
        rw [hroster hepoch] at hmember
        simp only [Act.within, bne_self_eq_false, Bool.false_or, decide_eq_true_eq]
          at hwithin
        simp [hwithin, hmember]
      change (insert k m₀.supporters ∪ coalition ∩ c.roster.toFinset).card < c.quorum
      rw [Finset.insert_union, Finset.insert_eq_of_mem hk]
      exact hs.joined t m₀ hm₀ rfl hepoch
    · exact hs.joined t m hold hcommittee hepoch

/-- The steps in which only the coalition puts and supports motions of the committee. -/
def CoalitionStep (a : A) (coalition : Finset K) (s : Assembly A K N P) (act : Act A K N P)
    (s' : Assembly A K N P) : Prop :=
  Step s act s' ∧ act.within a coalition = true

/-- A coalition short of the quorum stays so, and never gets to change the committee. -/
theorem contained_of_runs (hs : Contained a c coalition s)
    (h : Runs (CoalitionStep a coalition) s acts s') : Contained a c coalition s' :=
  h.invariant hs fun _ _ _ hstep hcontained => hstep.1.contained hstep.2 hcontained

end Coalition

/-- The committee that an act is of. -/
def Act.committee : Act A K N P → A
  | .found a _ _ _ => a
  | .reform a _ _ => a
  | .adjust a _ => a
  | .move a _ _ _ => a
  | .support a _ _ => a
  | .start a _ _ => a
  | .finish a _ => a
  | .withdraw a _ _ => a

/-- A motion that ends is still one of its committee, or it is gone. -/
def Orderly (s : Assembly A K N P) : Act A K N P → Prop
  | .finish a t => ∀ m, s.item t = .motion m → m.committee = a
  | _ => True

/-- The orderly steps. -/
def OrderlyStep (s : Assembly A K N P) (act : Act A K N P) (s' : Assembly A K N P) : Prop :=
  Step s act s' ∧ Orderly s act

section View

omit [DecidableEq K]

/-- What the committee at `a` sees at `k`: itself and its own motions. -/
def Item.seen (a k : A) : Item A K N P → Item A K N P
  | .committee c => if k = a then .committee c else .vacant
  | .motion m => if m.committee = a then .motion m else .vacant
  | .vacant => .vacant

def Assembly.view (a : A) (s : Assembly A K N P) : Assembly A K N P where
  item := fun k => (s.item k).seen a k
  running := s.running.filter fun entry => entry.1 == a

section Items

variable {k t : A} {m : Motion A K P}

theorem view_vacant (h : s.item k = .vacant) : (s.view a).item k = .vacant := by
  simp [Assembly.view, h, Item.seen]

theorem view_committee_iff :
    (s.view a).item k = .committee c ↔ s.item k = .committee c ∧ k = a := by
  simp only [Assembly.view]
  cases s.item k with
  | vacant => simp [Item.seen]
  | committee c' =>
      by_cases hk : k = a
      · simp [Item.seen, hk]
      · simp [Item.seen, hk]
  | motion m' => by_cases hm : m'.committee = a <;> simp [Item.seen, hm]

theorem view_motion_iff :
    (s.view a).item k = .motion m ↔ s.item k = .motion m ∧ m.committee = a := by
  simp only [Assembly.view]
  cases s.item k with
  | vacant => simp [Item.seen]
  | committee c' => by_cases hk : k = a <;> simp [Item.seen, hk]
  | motion m' =>
      by_cases hm : m'.committee = a
      · simp only [Item.seen, hm, if_true, Item.motion.injEq]
        constructor
        · rintro rfl
          exact ⟨rfl, hm⟩
        · exact fun h => h.1
      · simp only [Item.seen, hm, if_false, Item.motion.injEq]
        constructor
        · rintro ⟨⟩
        · rintro ⟨rfl, h⟩
          exact absurd h hm

theorem mem_view_running_iff : (a, t) ∈ (s.view a).running ↔ (a, t) ∈ s.running := by
  simp [Assembly.view]

theorem view_put (i : Item A K N P) : (s.put k i).view a = (s.view a).put k (i.seen a k) := by
  simp only [Assembly.view, Assembly.put, Assembly.mk.injEq, and_true]
  funext k'
  by_cases hk : k' = k
  · subst hk
    simp
  · simp [hk]

theorem view_put_committee :
    (s.put a (.committee c)).view a = (s.view a).put a (.committee c) := by
  simp [view_put, Item.seen]

theorem view_put_motion (h : m.committee = a) :
    (s.put k (.motion m)).view a = (s.view a).put k (.motion m) := by
  simp [view_put, Item.seen, h]

theorem view_put_vacant : (s.put k .vacant).view a = (s.view a).put k .vacant := by
  simp [view_put, Item.seen]

/-- What is put where the committee sees no difference does not change its view. -/
theorem view_put_of_seen {i : Item A K N P} (h : i.seen a k = (s.item k).seen a k) :
    (s.put k i).view a = s.view a := by
  rw [view_put, h]
  simp [Assembly.view, Assembly.put]

end Items

end View

section Locality

/-- The committee's own acts are acts in its view. -/
theorem Step.view_own (h : Step s act s') (horderly : Orderly s act) :
    Step (s.view act.committee) act (s'.view act.committee) := by
  cases h with
  | found hitem hnodup hpos hle =>
      rw [Act.committee, view_put_committee]
      exact .found (view_vacant hitem) hnodup hpos hle
  | reform hitem hmem haccepts =>
      rw [Act.committee, view_put_committee]
      exact .reform (view_committee_iff.mpr ⟨hitem, rfl⟩) (mem_view_running_iff.mpr hmem)
        haccepts
  | adjust hitem hmem hpos hle =>
      rw [Act.committee, view_put_committee]
      exact .adjust (view_committee_iff.mpr ⟨hitem, rfl⟩) (mem_view_running_iff.mpr hmem)
        hpos hle
  | @move a t k c payload hitem hvacant hmember hpayload =>
      rw [Act.committee, view_put_motion (a := a) (m := c.move a k payload hmember hpayload) rfl]
      exact .move (view_committee_iff.mpr ⟨hitem, rfl⟩) (view_vacant hvacant) hmember hpayload
  | @support a t k c m hitem hmotion hcommittee hepoch hmember =>
      rw [Act.committee, view_put_motion (a := a) (m := m.support k hmember) hcommittee]
      exact .support (view_committee_iff.mpr ⟨hitem, rfl⟩)
        (view_motion_iff.mpr ⟨hmotion, hcommittee⟩) hcommittee hepoch hmember
  | @start a t k c m hitem hmotion hcommittee hepoch hmember hquorum =>
      have hview : Assembly.view a { s with running := (a, t) :: s.running } =
          { s.view a with running := (a, t) :: (s.view a).running } := by
        simp [Assembly.view]
      rw [Act.committee, hview]
      exact .start (view_committee_iff.mpr ⟨hitem, rfl⟩)
        (view_motion_iff.mpr ⟨hmotion, hcommittee⟩) hcommittee hepoch hmember hquorum
  | @finish a t rest hrunning hitem =>
      have hview : Assembly.view a { s.put t .vacant with running := rest } =
          { (s.view a).put t .vacant with running := rest.filter fun entry => entry.1 == a } := by
        rw [← view_put_vacant]
        rfl
      rw [Act.committee, hview]
      refine .finish (by simp [Assembly.view, hrunning]) ?_
      intro c hc
      exact hitem c (view_committee_iff.mp hc).1
  | withdraw hitem hmotion hcommittee hmember =>
      rw [Act.committee, view_put_vacant]
      exact .withdraw (view_committee_iff.mpr ⟨hitem, rfl⟩)
        (view_motion_iff.mpr ⟨hmotion, hcommittee⟩) hcommittee hmember

/-- The acts of other committees do not show in the view. -/
theorem Step.view_other (h : Step s act s') (horderly : Orderly s act)
    (hother : act.committee ≠ a) : s'.view a = s.view a := by
  cases h with
  | @found b roster quorum charter hitem hnodup hpos hle =>
      exact view_put_of_seen (by simp [hitem, Item.seen, show b ≠ a from hother])
  | @reform b t c roster quorum hitem hmem haccepts =>
      exact view_put_of_seen (by simp [hitem, Item.seen, show b ≠ a from hother])
  | @adjust b t c quorum hitem hmem hpos hle =>
      exact view_put_of_seen (by simp [hitem, Item.seen, show b ≠ a from hother])
  | @move b t k c payload hitem hvacant hmember hpayload =>
      refine view_put_of_seen ?_
      simp [hvacant, Item.seen, Committee.move, show b ≠ a from hother]
  | @support b t k c m hitem hmotion hcommittee hepoch hmember =>
      subst hcommittee
      refine view_put_of_seen ?_
      simp [hmotion, Item.seen, Motion.support, show m.committee ≠ a from hother]
  | @start b t k c m hitem hmotion hcommittee hepoch hmember hquorum =>
      simp [Assembly.view, show b ≠ a from hother]
  | @finish b t rest hrunning hitem =>
      have hput : (s.put t .vacant).view a = s.view a := by
        refine view_put_of_seen ?_
        cases hi : s.item t with
        | vacant => rfl
        | committee c => exact absurd hi (hitem c)
        | motion m =>
            obtain rfl : m.committee = b := horderly m hi
            simp [Item.seen, show m.committee ≠ a from hother]
      simp only [Assembly.view, Assembly.mk.injEq] at hput ⊢
      refine ⟨hput.1, ?_⟩
      simp [hrunning, show b ≠ a from hother]
  | @withdraw b t k c m hitem hmotion hcommittee hmember =>
      subst hcommittee
      refine view_put_of_seen ?_
      simp [hmotion, Item.seen, show m.committee ≠ a from hother]

/-- Each committee sees a run of its own: its own acts, in their order. -/
theorem runs_view (a : A) (h : Runs OrderlyStep s acts s') :
    Runs Step (s.view a) (acts.filter fun act => act.committee = a) (s'.view a) := by
  refine h.project ?_ ?_
  · intro t act t' hstep hact
    obtain rfl := of_decide_eq_true hact
    exact hstep.1.view_own hstep.2
  · intro t act t' hstep hact
    exact hstep.1.view_other hstep.2 (of_decide_eq_false hact)

/-- What a committee and its motions have come to depends on its own acts alone. -/
theorem view_eq_of_runs {t t' : Assembly A K N P} {acts' : List (Act A K N P)}
    (h : Runs OrderlyStep .empty acts t) (h' : Runs OrderlyStep .empty acts' t')
    (hsame : acts.filter (fun act => act.committee = a) =
      acts'.filter fun act => act.committee = a) : t.view a = t'.view a := by
  have hrun := runs_view a h
  rw [hsame] at hrun
  refine hrun.unique ?_ (runs_view a h')
  intro s act s' s'' hs hs'
  exact hs.deterministic hs'

end Locality

end MultisigNative.Library.Voting
