import MultisigNative.Properties.Quorum

/-!
Neither layout has a tag, so the bytes of a multisig may spell a transaction and
those of a transaction a multisig.  They do not as long as the keys that stand
where the other layout has a count spell a count too large for the account.
-/

namespace MultisigNative.Properties

open Library.Borsh
open Library.StateError
open Library.Transition
open Solana
open Errors
open State
open Instructions
open MultisigNative.System
open LocalRuntime

/-- Read as a transaction, a multisig of these owners has as many instructions as
the end of the first owner's key spells, each of at least forty bytes. -/
def readsAsTransaction (owners : List Pubkey) (len : Nat) : Bool :=
  match owners with
  | [] => false
  | owner :: _ => decide (44 + 40 * lePrefix (owner.bytes.drop 28) ≤ len)

/-- Read as a multisig, a transaction of this multisig has as many owners as the
start of the multisig's key spells. -/
def readsAsMultisig (multisig : Pubkey) (len : Nat) : Bool :=
  decide (14 + 32 * lePrefix multisig.bytes ≤ len)

section Formats

variable {m : Multisig} {t : Transaction}

/-- The four bytes of a multisig that stand where a transaction has the number of
its instructions are the last ones of the first owner. -/
theorem drop_encode_multisig {owner : Pubkey} {rest : List Pubkey}
    (howners : m.owners = owner :: rest) :
    ∃ tail, (Multisig.format.encode m).drop 32 = owner.bytes.drop 28 ++ tail := by
  have hencode : ∃ tail, Multisig.format.encode m =
      (u32.encode (UInt32.ofNat m.owners.length) ++ owner.bytes.take 28) ++
        (owner.bytes.drop 28 ++ tail) := by
    refine ⟨rest.flatMap Pubkey.format.encode ++ ([m.threshold] ++ ([m.nonce] ++
      (leBytes m.ownerSetSeqno ++ (vec u8).encode m.padding))), ?_⟩
    rw [Multisig.format_encode, vec_encode]
    nth_rewrite 2 [howners]
    rw [List.flatMap_cons, Pubkey.format_encode]
    nth_rewrite 1 [← List.take_append_drop 28 owner.bytes]
    simp only [List.append_assoc]
  rcases hencode with ⟨tail, htail⟩
  refine ⟨tail, ?_⟩
  rw [htail]
  exact List.drop_left' (by simp [owner.length_eq])

theorem instructions_length_of_eq {owner : Pubkey} {rest : List Pubkey}
    (howners : m.owners = owner :: rest) (ht : Transaction.format.fits t = true)
    (h : Multisig.format.encode m = Transaction.format.encode t) :
    t.instructions.length = lePrefix (owner.bytes.drop 28) := by
  have hfits := ((Transaction.format_fits_iff t).mp ht).1
  obtain ⟨tail, htail⟩ := drop_encode_multisig howners
  have hdrop := congrArg (List.drop 32) h
  rw [htail, Transaction.format_encode, List.drop_left' t.multisig.length_eq] at hdrop
  have hcount := congrArg lePrefix hdrop
  rw [lePrefix_vec_encode _ hfits, lePrefix_append (by simp [owner.length_eq])] at hcount
  exact hcount.symm

theorem owners_length_of_eq (hm : Multisig.format.fits m = true)
    (h : Multisig.format.encode m = Transaction.format.encode t) :
    m.owners.length = lePrefix t.multisig.bytes := by
  have hcount := congrArg lePrefix h
  rw [Multisig.format_encode, lePrefix_vec_encode _ (Multisig.owners_fits hm),
    Transaction.format_encode,
    lePrefix_append (by simp [t.multisig.length_eq])] at hcount
  exact hcount

theorem readsAsTransaction_of_eq (hne : m.owners ≠ [])
    (ht : Transaction.format.fits t = true)
    (h : Multisig.format.encode m = Transaction.format.encode t) :
    readsAsTransaction m.owners m.len = true := by
  cases howners : m.owners with
  | nil => exact absurd howners hne
  | cons owner rest =>
      have hcount := instructions_length_of_eq howners ht h
      have hlen := congrArg List.length h
      rw [Multisig.format_encode_length, Transaction.format_encode_length] at hlen
      have hle := t.le_len
      rw [readsAsTransaction, decide_eq_true_eq, ← hcount, hlen]
      exact hle

theorem readsAsMultisig_of_eq (hm : Multisig.format.fits m = true)
    (h : Multisig.format.encode m = Transaction.format.encode t) :
    readsAsMultisig t.multisig t.len = true := by
  have hcount := owners_length_of_eq hm h
  have hlen := congrArg List.length h
  rw [Multisig.format_encode_length, Transaction.format_encode_length] at hlen
  rw [readsAsMultisig, decide_eq_true_eq, ← hcount, ← hlen, Multisig.len, PUBKEY_BYTES]
  omega

end Formats

/-- The new keys of a step do not spell counts that fit the account. -/
def avoidsConfusion {rt : Runtime} (w : World) : Label rt → Bool
  | .call (.createMultisig data) _ =>
      !readsAsTransaction data.owners (CreateMultisig.newMultisig data).len
  | .call (.setOwners data) (m :: _) =>
      !readsAsTransaction data.owners (w.ledger m.key).data.length
  | .call (.setOwnersAndChangeThreshold data) (m :: _) =>
      !readsAsTransaction data.owners (w.ledger m.key).data.length
  | .call (.proposeTransaction data) (m :: _) =>
      !readsAsMultisig m.key
        (44 + (data.instructions.map TransactionInstructionData.len).sum +
          lePrefix (w.ledger m.key).data)
  | _ => true

/-- The configurations of the runs whose steps all avoid the confusion. -/
def UnconfusedConfig (rt : Runtime) : Config rt → Prop :=
  Reachable Config.Initial step fun c action =>
    planned c action (avoidsConfusion c.world) = true

def Distinct (account : Account) : Occupant → Prop
  | .vacant => True
  | .multisig g => readsAsTransaction g.owners account.data.length = false
  | .proposal p => readsAsMultisig p.multisig account.data.length = false

structure Unconfused (rt : Runtime) (w : World) : Prop where
  held : Held rt w
  distinct : ∀ k, Distinct (w.ledger k) (w.registry k)

namespace Unconfused

variable {rt : Runtime} {w w' : World} {label : Label rt} {k : Pubkey}

theorem not_transaction (h : Unconfused rt w) {g : Group}
    (hg : w.registry k = .multisig g) (t : Transaction) :
    Transaction.checkedDeserialize (w.ledger k).data ≠ .ok t := by
  intro hdecode
  obtain ⟨hfits, hdata⟩ := Transaction.checkedDeserialize_eq_ok_iff.mp hdecode
  obtain ⟨m, hholds⟩ := h.held.exists_multisig hg
  have hdistinct := h.distinct k
  rw [hg, Distinct, hholds.data, Multisig.format_encode_length, ← hholds.owners]
    at hdistinct
  have hne : m.owners ≠ [] := by
    rw [hholds.owners]
    exact hholds.ne_nil
  rw [readsAsTransaction_of_eq hne hfits (hholds.data.symm.trans hdata)] at hdistinct
  cases hdistinct

theorem not_multisig (h : Unconfused rt w) {p : Proposal}
    (hp : w.registry k = .proposal p) (m : Multisig) :
    Multisig.checkedDeserialize (w.ledger k).data ≠ .ok m := by
  intro hdecode
  obtain ⟨hfits, hdata⟩ := Multisig.checkedDeserialize_eq_ok_iff.mp hdecode
  obtain ⟨t, hholds⟩ := h.held.exists_transaction hp
  have hdistinct := h.distinct k
  rw [hp, Distinct, hholds.data, Transaction.format_encode_length, ← hholds.multisig]
    at hdistinct
  rw [readsAsMultisig_of_eq hfits (hdata.symm.trans hholds.data)] at hdistinct
  cases hdistinct

theorem isProposal_eq_false (h : Unconfused rt w) {m : Multisig}
    (hdata : (w.ledger k).data = Multisig.format.encode m)
    (hfits : Multisig.format.fits m = true) : (w.registry k).isProposal = false := by
  cases ho : w.registry k with
  | proposal p =>
      exact absurd (Multisig.checkedDeserialize_eq_ok_iff.mpr ⟨hfits, hdata⟩)
        (h.not_multisig ho m)
  | vacant => rfl
  | multisig g => rfl

theorem isMultisig_eq_false (h : Unconfused rt w) {t : Transaction}
    (hdata : (w.ledger k).data = Transaction.format.encode t)
    (hfits : Transaction.format.fits t = true) : (w.registry k).isMultisig = false := by
  cases ho : w.registry k with
  | multisig g =>
      exact absurd (Transaction.checkedDeserialize_eq_ok_iff.mpr ⟨hfits, hdata⟩)
        (h.not_transaction ho t)
  | vacant => rfl
  | proposal p => rfl

/-- Whatever succeeds has taken its accounts in their roles. -/
theorem inRole (h : Unconfused rt w) (heffect : Effect rt w label w') :
    label.inRole w.registry = true := by
  cases heffect with
  | idle => rfl
  | «foreign» hforeign => rfl
  | started hvalidate =>
      obtain ⟨executor, rest, rfl, hvalid, -⟩ :=
        ExecuteTransaction.validate_eq_ok_iff.mp hvalidate
      simp [Label.inRole, argsInRole, multisigArg, transactionArg,
        h.isProposal_eq_false hvalid.multisig_data hvalid.multisig_fits,
        h.isMultisig_eq_false hvalid.data hvalid.fits]
  | created hvalid hfits hinit => rfl
  | configured hsigned hchange hfits =>
      have hm := h.isProposal_eq_false hsigned.data hsigned.fits
      cases hchange <;>
        simp [Label.inRole, argsInRole, multisigArg, transactionArg, hm]
  | proposed hvalid hfits hinit =>
      simp [Label.inRole, argsInRole, multisigArg, transactionArg,
        h.isProposal_eq_false hvalid.data hvalid.fits]
  | approved hvalid =>
      simp [Label.inRole, argsInRole, multisigArg, transactionArg,
        h.isProposal_eq_false hvalid.multisig_data hvalid.multisig_fits,
        h.isMultisig_eq_false hvalid.data hvalid.fits]
  | cancelled hvalid hclose =>
      simp [Label.inRole, argsInRole, multisigArg, transactionArg,
        h.isProposal_eq_false hvalid.multisig_data hvalid.multisig_fits,
        h.isMultisig_eq_false hvalid.data hvalid.fits]
  | closed hclose howner => rfl

theorem of_initial (h : w.Initial rt) : Unconfused rt w where
  held := .of_initial h
  distinct k := by
    rw [h.vacant k]
    trivial

theorem distinct_effect (h : Unconfused rt w) (heffect : Effect rt w label w')
    (havoids : avoidsConfusion w label = true) (k : Pubkey) :
    Distinct (w'.ledger k) (w'.registry k) := by
  have hrole := h.inRole heffect
  by_cases hk : label.subject = some k
  · cases heffect with
    | idle => cases hk
    | «foreign» hforeign => cases hk
    | started hvalidate => cases hk
    | created hvalid hfits hinit =>
        obtain rfl := Option.some.inj hk
        rw [World.registry_cons]
        simp only [Event.apply, Function.update_self, Distinct, hinit.account_eq,
          Multisig.format_encode_length]
        simpa [avoidsConfusion] using havoids
    | @configured m s rest instruction multisig written event hsigned hchange hfits =>
        obtain rfl : m.key = k := by cases hchange <;> exact Option.some.inj hk
        obtain ⟨g, hg, hholds⟩ := h.held.configured hrole hsigned hchange
        have hlen : (Multisig.format.encode written).length =
            (w.ledger m.key).data.length := by
          rw [hsigned.data, Multisig.format_encode_length, Multisig.format_encode_length,
            hchange.len_eq hsigned.fits]
        have hold := h.distinct m.key
        rw [World.registry_cons]
        cases hchange with
        | setOwners =>
            simpa [Event.apply, hg, Occupant.changeOwners, Distinct, hlen,
              avoidsConfusion] using havoids
        | changeThreshold => simpa [Event.apply, hg, Distinct, hlen] using hold
        | setOwnersAndChangeThreshold =>
            simpa [Event.apply, hg, Occupant.changeOwners, Distinct, hlen,
              avoidsConfusion] using havoids
    | @proposed m t proposer payer system rest data multisig i L' hvalid hfits hinit =>
        obtain rfl := Option.some.inj hk
        have howners : lePrefix (w.ledger m.key).data = multisig.owners.length := by
          rw [hvalid.data, Multisig.format_encode,
            lePrefix_vec_encode _ (Multisig.owners_fits hvalid.fits)]
        have hlen : (ProposeTransaction.newTransaction m.key multisig i data).len =
            44 + (data.instructions.map TransactionInstructionData.len).sum +
              lePrefix (w.ledger m.key).data := by
          rw [howners]
          simp only [Transaction.len, ProposeTransaction.newTransaction, List.length_set,
            List.length_replicate]
          omega
        rw [World.registry_cons]
        simp only [Event.apply, Function.update_self, Distinct, hinit.account_eq,
          Transaction.format_encode_length, hlen]
        simpa [avoidsConfusion] using havoids
    | @approved m t approver rest multisig transaction i hvalid =>
        obtain rfl := Option.some.inj hk
        obtain ⟨g, p, -, -, hp, -, -⟩ := h.held.approved hrole hvalid
        have hold := h.distinct t.key
        simp only [hp, Distinct, hvalid.data, Transaction.format_encode_length] at hold
        rw [World.registry_cons]
        simpa [Event.apply, hp, Occupant.approve, Distinct] using hold
    | cancelled hvalid hclose =>
        obtain rfl := Option.some.inj hk
        rw [World.registry_cons]
        simp [Event.apply, Distinct]
    | closed hclose howner =>
        obtain rfl := Option.some.inj hk
        rw [World.registry_cons]
        simp [Event.apply, Distinct]
  · obtain ⟨hkept, hsame, -⟩ := heffect.frame hk
    have hold := h.distinct k
    rw [hsame]
    cases ho : w.registry k with
    | vacant => trivial
    | multisig g =>
        obtain ⟨m, hholds⟩ := h.held.exists_multisig ho
        rw [ho] at hold
        rw [Distinct, (hkept.owned hholds.owner hholds.funded).2.1]
        exact hold
    | proposal p =>
        obtain ⟨t, hholds⟩ := h.held.exists_transaction ho
        rw [ho] at hold
        rw [Distinct, (hkept.owned hholds.owner hholds.funded).2.1]
        exact hold

theorem effect (h : Unconfused rt w) (heffect : Effect rt w label w')
    (havoids : avoidsConfusion w label = true) : Unconfused rt w' :=
  ⟨h.held.effect heffect (h.inRole heffect), h.distinct_effect heffect havoids⟩

end Unconfused

theorem unconfused_of_config {rt : Runtime} {c : Config rt} (h : UnconfusedConfig rt c) :
    Unconfused rt c.world := by
  have hworld : Reachable (World.Initial rt) (perform rt)
      (fun w label => avoidsConfusion w label = true) c.world := by
    refine (world_of_reachable ?_ h).1
    intro c action label stack hallowed hplan
    rwa [planned, hplan, Option.all_some] at hallowed
  refine hworld.invariant (I := Unconfused rt) (fun _ => .of_initial) ?_
  intro w label w' _ hunconfused havoids hperform
  exact hunconfused.effect (perform_effect hperform) havoids

theorem Unconfused.accepted {rt : Runtime} {w w' : World} {label : Label rt}
    (h : Unconfused rt w) (heffect : Effect rt w label w') :
    (∀ k, labelMultisig label = some k → (w.registry k).isMultisig = true) ∧
      ∀ k, labelTransaction label = some k →
        ∃ p, w.registry k = .proposal p ∧ labelMultisig label = some p.multisig := by
  have hrole := h.inRole heffect
  have hmultisig : ∀ {m k : Pubkey} {g : Group}, w.registry m = .multisig g →
      some m = some k → (w.registry k).isMultisig = true := by
    intro m k g hg hk
    obtain rfl := Option.some.inj hk
    rw [hg, Occupant.isMultisig]
  have hproposal : ∀ {m t k : Pubkey} {p : Proposal}, w.registry t = .proposal p →
      p.multisig = m → some t = some k →
      ∃ p, w.registry k = .proposal p ∧ some m = some p.multisig := by
    intro m t k p hp hm hk
    obtain rfl := Option.some.inj hk
    exact ⟨p, hp, congrArg some hm.symm⟩
  have hnone : ∀ {k : Pubkey} {P : Prop}, none = some k → P := by
    intro k P hk
    cases hk
  cases heffect with
  | idle => exact ⟨fun k => hnone, fun k => hnone⟩
  | «foreign» hforeign => exact ⟨fun k => hnone, fun k => hnone⟩
  | started hvalidate =>
      obtain ⟨g, p, hg, -, hp, -, hm⟩ := h.held.executed hrole hvalidate
      obtain ⟨executor, rest, rfl, -, -⟩ :=
        ExecuteTransaction.validate_eq_ok_iff.mp hvalidate
      exact ⟨fun k => hmultisig hg, fun k => hproposal hp hm⟩
  | created hvalid hfits hinit => exact ⟨fun k => hnone, fun k => hnone⟩
  | configured hsigned hchange hfits =>
      obtain ⟨g, hg, -⟩ := h.held.configured hrole hsigned hchange
      cases hchange <;> exact ⟨fun k => hmultisig hg, fun k => hnone⟩
  | proposed hvalid hfits hinit =>
      obtain ⟨g, hg, -⟩ := h.held.proposed hrole hvalid
      exact ⟨fun k => hmultisig hg, fun k => hnone⟩
  | approved hvalid =>
      obtain ⟨g, p, hg, -, hp, -, hm⟩ := h.held.approved hrole hvalid
      exact ⟨fun k => hmultisig hg, fun k => hproposal hp hm⟩
  | cancelled hvalid hclose =>
      obtain ⟨g, p, hg, -, hp, -, hm⟩ := h.held.cancelled hrole hvalid
      exact ⟨fun k => hmultisig hg, fun k => hproposal hp hm⟩
  | closed hclose howner => exact ⟨fun k => hnone, fun k => hnone⟩

/-- In a run whose steps all avoid the confusion no multisig decodes as a
transaction, no transaction as a multisig, and every account that a successful
step reads is what it is read as: a multisig, and a proposal of that multisig. -/
theorem roles_separated {rt : Runtime} {c : Config rt} (h : UnconfusedConfig rt c) :
    (∀ k, (c.world.registry k).isMultisig = true →
      ∀ t, Transaction.checkedDeserialize (c.world.ledger k).data ≠ .ok t) ∧
    (∀ k, (c.world.registry k).isProposal = true →
      ∀ m, Multisig.checkedDeserialize (c.world.ledger k).data ≠ .ok m) ∧
    ∀ label w', perform rt c.world label = some w' →
      (∀ k, labelMultisig label = some k → (c.world.registry k).isMultisig = true) ∧
      ∀ k, labelTransaction label = some k →
        ∃ p, c.world.registry k = .proposal p ∧ labelMultisig label = some p.multisig := by
  have hunconfused := unconfused_of_config h
  refine ⟨?_, ?_, ?_⟩
  · intro k hk
    obtain ⟨g, hg⟩ := Occupant.isMultisig_iff.mp hk
    exact hunconfused.not_transaction hg
  · intro k hk
    obtain ⟨p, hp⟩ := Occupant.isProposal_iff.mp hk
    exact hunconfused.not_multisig hp
  · intro label w' hperform
    exact hunconfused.accepted (perform_effect hperform)

section LocalRuns

/-- What the sample run does, its keys spelling large counts. -/
def unconfusedActions : List Action :=
  let owner : Pubkey := ⟨List.replicate 32 11, rfl⟩
  let multisig : Pubkey := ⟨List.replicate 30 20 ++ [0, 0], rfl⟩
  [localCall [signer multisig, readonly ⟨List.replicate 30 20 ++ [pdaMark, 5], rfl⟩,
      signer owner, readonly systemProgram] (.createMultisig ⟨[owner], 1, 5⟩),
    localCall [readonly multisig, signer (keyOf 30), signer owner, signer owner,
      readonly systemProgram] (.proposeTransaction ⟨[⟨keyOf 99, [], [1, 2, 3]⟩]⟩)]

def unconfusedSample : Config localRuntime :=
  (anyRun [⟨List.replicate 32 11, rfl⟩]
    (fun c action => planned c action (avoidsConfusion c.world)) unconfusedActions).get
    (by decide +kernel)

theorem unconfusedSample_reachable : UnconfusedConfig localRuntime unconfusedSample :=
  reachable_of_perform (fun _ _ h => h) (.init (localStart_initial _))
    (Option.some_get _).symm

theorem roles_separated_sample :
    (unconfusedSample.world.registry (keyOf 30)).isProposal = true ∧
    ∀ m, Multisig.checkedDeserialize (unconfusedSample.world.ledger (keyOf 30)).data ≠
      .ok m := by
  have hproposal :
      (unconfusedSample.world.registry (keyOf 30)).isProposal = true := by
    decide +kernel
  exact ⟨hproposal,
    (roles_separated unconfusedSample_reachable).2.1 (keyOf 30) hproposal⟩

/-- The third owner of the forged multisig: no accounts, twenty bytes of data, and
the number six. -/
def forgedTail : Pubkey :=
  ⟨[0, 0, 0, 0, 20, 0, 0, 0] ++ List.replicate 20 0 ++ [6, 0, 0, 0], rfl⟩

/-- A multisig at key 3 of the owners 11 and 12, both of whom have to agree, and one
at key 20 that 11 makes up so that it reads as a transaction of the other with two
approvals. -/
def forgedActions : List Action :=
  [localCall [signer (keyOf 3), readonly ⟨(keyOf 3).bytes.take 30 ++ [pdaMark, 5], rfl⟩,
      signer (keyOf 11), readonly systemProgram]
      (.createMultisig ⟨[keyOf 11, keyOf 12], 2, 5⟩),
    localCall [signer (keyOf 20), readonly ⟨(keyOf 20).bytes.take 30 ++ [pdaMark, 1], rfl⟩,
      signer (keyOf 11), readonly systemProgram]
      (.createMultisig ⟨[⟨List.replicate 28 0 ++ [1, 0, 0, 0], rfl⟩, keyOf 99,
        forgedTail], 1, 1⟩)]

def forgedSample : Config localRuntime :=
  (anyRun [keyOf 11] (fun _ _ => true) forgedActions).get (by decide +kernel)

theorem forgedSample_reachable :
    Reachable Config.Initial step (fun _ _ => True) forgedSample :=
  reachable_of_perform (fun _ _ _ => trivial) (.init (localStart_initial _))
    (Option.some_get _).symm

/-- What `create_multisig` made is taken for a fully approved transaction, though
12 signed nothing and nothing was proposed. -/
theorem roles_confused : ∃ c : Config localRuntime,
    Reachable Config.Initial step (fun _ _ => True) c ∧
    (c.world.registry (keyOf 20)).isMultisig = true ∧
    (∃ t, Transaction.checkedDeserialize (c.world.ledger (keyOf 20)).data = .ok t) ∧
    ∃ validated L, ExecuteTransaction.validate localRuntime localRuntime.programId
      [readonly (keyOf 3), readonly ⟨(keyOf 3).bytes.take 30 ++ [pdaMark, 5], rfl⟩,
        writable (keyOf 20), writable (keyOf 11), signer (keyOf 11)]
      c.world.ledger = .ok validated L := by
  refine ⟨forgedSample, forgedSample_reachable, by decide +kernel, ?_, ?_⟩
  · obtain ⟨t, ht⟩ := Option.isSome_iff_exists.mp (show (Transaction.format.tryFromSlice
      (forgedSample.world.ledger (keyOf 20)).data).isSome = true by decide +kernel)
    exact ⟨t, assertSuccess_eq_ok_iff.mpr ht⟩
  · exact succeeds_eq_true_iff.mp (by decide +kernel)

end LocalRuns

end MultisigNative.Properties
