import Mathlib.Algebra.GroupWithZero.Nat
import Mathlib.Logic.Equiv.Basic

/-!
Borsh formats as pairs of an encoder and a stream decoder.  A format carries
the proofs that the decoder undoes the encoder and that it accepts nothing
else, so a composed format is canonical by construction.
-/

namespace MultisigNative.Library.Borsh

abbrev Bytes := List UInt8

/-- An encoder together with the stream decoder it is inverse to.  `fits` holds
of the values that Borsh can encode: those with all vectors below `2 ^ 32`. -/
structure Format (α : Type) where
  fits : α → Bool
  encode : α → Bytes
  deserialize : Bytes → Option (α × Bytes)
  deserialize_encode : ∀ a rest, fits a = true →
    deserialize (encode a ++ rest) = some (a, rest)
  eq_encode_of_deserialize : ∀ bytes a rest, deserialize bytes = some (a, rest) →
    fits a = true ∧ bytes = encode a ++ rest

namespace Format

variable {α β : Type}

/-- Decode a whole byte string; bytes left over are an error. -/
def tryFromSlice (f : Format α) (bytes : Bytes) : Option α :=
  match f.deserialize bytes with
  | some (a, []) => some a
  | _ => none

theorem tryFromSlice_eq_some_iff (f : Format α) (bytes : Bytes) (a : α) :
    f.tryFromSlice bytes = some a ↔ f.fits a = true ∧ bytes = f.encode a := by
  constructor
  · intro h
    unfold tryFromSlice at h
    split at h
    · rename_i b hb
      obtain rfl : b = a := Option.some.inj h
      simpa using f.eq_encode_of_deserialize bytes b [] hb
    · cases h
  · rintro ⟨hfits, rfl⟩
    have hdecode := f.deserialize_encode a [] hfits
    rw [List.append_nil] at hdecode
    simp [tryFromSlice, hdecode]

@[simp] theorem tryFromSlice_encode (f : Format α) {a : α} (h : f.fits a = true) :
    f.tryFromSlice (f.encode a) = some a :=
  (f.tryFromSlice_eq_some_iff _ a).mpr ⟨h, rfl⟩

theorem encode_injective (f : Format α) {a b : α} (ha : f.fits a = true)
    (hb : f.fits b = true) (h : f.encode a = f.encode b) : a = b := by
  have hdecode := f.tryFromSlice_encode ha
  rw [h, f.tryFromSlice_encode hb] at hdecode
  exact (Option.some.inj hdecode).symm

/-- Transport a format along an equivalence: the way a struct is encoded as
the sequence of its fields. -/
def equiv (f : Format α) (e : β ≃ α) : Format β where
  fits b := f.fits (e b)
  encode b := f.encode (e b)
  deserialize bytes := (f.deserialize bytes).map fun p => (e.symm p.1, p.2)
  deserialize_encode b rest h := by
    simp [f.deserialize_encode (e b) rest h]
  eq_encode_of_deserialize bytes b rest h := by
    obtain ⟨⟨a, rest'⟩, ha, hb⟩ := Option.map_eq_some_iff.mp h
    simp only [Prod.mk.injEq] at hb
    obtain ⟨rfl, rfl⟩ := hb
    simpa using f.eq_encode_of_deserialize bytes a rest' ha

/-- One format after the other. -/
def prod (f : Format α) (g : Format β) : Format (α × β) where
  fits p := f.fits p.1 && g.fits p.2
  encode p := f.encode p.1 ++ g.encode p.2
  deserialize bytes :=
    (f.deserialize bytes).bind fun p =>
      (g.deserialize p.2).map fun q => ((p.1, q.1), q.2)
  deserialize_encode p rest h := by
    rw [Bool.and_eq_true] at h
    rw [List.append_assoc, f.deserialize_encode p.1 _ h.1]
    simp [g.deserialize_encode p.2 rest h.2]
  eq_encode_of_deserialize bytes p rest h := by
    obtain ⟨⟨a, mid⟩, ha, hrest⟩ := Option.bind_eq_some_iff.mp h
    obtain ⟨⟨b, rest'⟩, hb, hp⟩ := Option.map_eq_some_iff.mp hrest
    simp only [Prod.mk.injEq] at hp
    obtain ⟨rfl, rfl⟩ := hp
    obtain ⟨hfitsA, rfl⟩ := f.eq_encode_of_deserialize _ _ _ ha
    obtain ⟨hfitsB, rfl⟩ := g.eq_encode_of_deserialize _ _ _ hb
    exact ⟨by simp [hfitsA, hfitsB], by simp⟩

end Format

def u8 : Format UInt8 where
  fits _ := true
  encode b := [b]
  deserialize
    | b :: rest => some (b, rest)
    | [] => none
  deserialize_encode _ _ _ := rfl
  eq_encode_of_deserialize bytes a rest h := by
    cases bytes with
    | nil => cases h
    | cons b bytes =>
        simp only [Option.some.injEq, Prod.mk.injEq] at h
        obtain ⟨rfl, rfl⟩ := h
        exact ⟨rfl, rfl⟩

@[simp] theorem u8_fits (b : UInt8) : u8.fits b = true := rfl

/-- A `bool` is the byte 0 or the byte 1; every other byte is refused. -/
def bool : Format Bool where
  fits _ := true
  encode b := [if b then 1 else 0]
  deserialize
    | b :: rest => if b = 0 then some (false, rest) else
        if b = 1 then some (true, rest) else none
    | [] => none
  deserialize_encode b rest _ := by cases b <;> rfl
  eq_encode_of_deserialize bytes a rest h := by
    cases bytes with
    | nil => cases h
    | cons b bytes =>
        simp only at h
        split_ifs at h with h0 h1
        · simp only [Option.some.injEq, Prod.mk.injEq] at h
          obtain ⟨rfl, rfl⟩ := h
          simp [h0]
        · simp only [Option.some.injEq, Prod.mk.injEq] at h
          obtain ⟨rfl, rfl⟩ := h
          simp [h1]

@[simp] theorem bool_fits (b : Bool) : bool.fits b = true := rfl

/-- Little-endian value of four bytes. -/
def leNat (b₀ b₁ b₂ b₃ : UInt8) : Nat :=
  b₀.toNat + 256 * b₁.toNat + 65536 * b₂.toNat + 16777216 * b₃.toNat

theorem leNat_lt (b₀ b₁ b₂ b₃ : UInt8) : leNat b₀ b₁ b₂ b₃ < 2 ^ 32 := by
  have h₀ := b₀.toNat_lt
  have h₁ := b₁.toNat_lt
  have h₂ := b₂.toNat_lt
  have h₃ := b₃.toNat_lt
  simp only [leNat]
  omega

/-- The four little-endian bytes of a `u32`. -/
def leBytes (n : UInt32) : Bytes :=
  [UInt8.ofNat n.toNat, UInt8.ofNat (n.toNat / 256),
    UInt8.ofNat (n.toNat / 65536), UInt8.ofNat (n.toNat / 16777216)]

@[simp] theorem leBytes_length (n : UInt32) : (leBytes n).length = 4 := rfl

theorem leNat_leBytes (n : UInt32) :
    leNat (UInt8.ofNat n.toNat) (UInt8.ofNat (n.toNat / 256))
      (UInt8.ofNat (n.toNat / 65536)) (UInt8.ofNat (n.toNat / 16777216)) =
      n.toNat := by
  have hn := n.toNat_lt
  simp only [leNat, UInt8.toNat_ofNat']
  omega

theorem leBytes_leNat (b₀ b₁ b₂ b₃ : UInt8) :
    leBytes (UInt32.ofNat (leNat b₀ b₁ b₂ b₃)) = [b₀, b₁, b₂, b₃] := by
  have h₀ := b₀.toNat_lt
  have h₁ := b₁.toNat_lt
  have h₂ := b₂.toNat_lt
  have h₃ := b₃.toNat_lt
  simp only [leBytes, UInt32.toNat_ofNat', Nat.mod_eq_of_lt (leNat_lt b₀ b₁ b₂ b₃)]
  simp only [List.cons.injEq, and_true, ← UInt8.toNat_inj, UInt8.toNat_ofNat', leNat]
  omega

/-- The number that the first four bytes spell. -/
def lePrefix : Bytes → Nat
  | b₀ :: b₁ :: b₂ :: b₃ :: _ => leNat b₀ b₁ b₂ b₃
  | _ => 0

theorem lePrefix_append {front back : Bytes} (h : 4 ≤ front.length) :
    lePrefix (front ++ back) = lePrefix front := by
  match front, h with
  | _ :: _ :: _ :: _ :: _, _ => rfl

theorem lePrefix_leBytes (n : UInt32) : lePrefix (leBytes n) = n.toNat :=
  leNat_leBytes n

def u32 : Format UInt32 where
  fits _ := true
  encode := leBytes
  deserialize
    | b₀ :: b₁ :: b₂ :: b₃ :: rest =>
        some (UInt32.ofNat (leNat b₀ b₁ b₂ b₃), rest)
    | _ => none
  deserialize_encode n rest _ := by
    simp only [leBytes, List.cons_append, List.nil_append, leNat_leBytes,
      UInt32.ofNat_toNat]
  eq_encode_of_deserialize bytes n rest h := by
    split at h
    · rename_i b₀ b₁ b₂ b₃ rest'
      simp only [Option.some.injEq, Prod.mk.injEq] at h
      obtain ⟨rfl, rfl⟩ := h
      refine ⟨rfl, ?_⟩
      rw [leBytes_leNat]
      rfl
    · cases h

theorem u32_eq_zero_of_zeros {n : UInt32} (h : ∀ b ∈ u32.encode n, b = 0) : n = 0 := by
  have hvalue := leNat_leBytes n
  rw [h _ (.head _), h _ (.tail _ (.head _)), h _ (.tail _ (.tail _ (.head _))),
    h _ (.tail _ (.tail _ (.tail _ (.head _))))] at hvalue
  exact UInt32.toNat_inj.mp hvalue.symm

@[simp] theorem u32_encode_length (n : UInt32) : (u32.encode n).length = 4 := rfl

/-- A fixed-size byte array, written without a length prefix. -/
def array (n : Nat) : Format {bytes : Bytes // bytes.length = n} where
  fits _ := true
  encode a := a.val
  deserialize bytes :=
    if h : n ≤ bytes.length then
      some (⟨bytes.take n, by simp [h]⟩, bytes.drop n)
    else none
  deserialize_encode a rest _ := by
    have hlen := a.property
    rw [dif_pos (by simp [hlen])]
    simp [← hlen]
  eq_encode_of_deserialize bytes a rest h := by
    split at h
    · simp only [Option.some.injEq, Prod.mk.injEq] at h
      obtain ⟨rfl, rfl⟩ := h
      simp
    · cases h

section Vec

variable {α : Type} (f : Format α)

/-- Decode `n` elements in a row. -/
def items : Nat → Bytes → Option (List α × Bytes)
  | 0, bytes => some ([], bytes)
  | n + 1, bytes =>
      (f.deserialize bytes).bind fun p =>
        (items n p.2).map fun q => (p.1 :: q.1, q.2)

theorem items_flatMap_encode (as : List α) (rest : Bytes)
    (h : as.all f.fits = true) :
    items f as.length (as.flatMap f.encode ++ rest) = some (as, rest) := by
  induction as with
  | nil => rfl
  | cons a as ih =>
      simp only [List.all_cons, Bool.and_eq_true] at h
      simp only [List.length_cons, items, List.flatMap_cons, List.append_assoc,
        f.deserialize_encode a _ h.1, Option.bind_some]
      rw [ih h.2]
      rfl

theorem eq_flatMap_encode_of_items {n : Nat} {bytes : Bytes} {as : List α}
    {rest : Bytes} (h : items f n bytes = some (as, rest)) :
    as.length = n ∧ as.all f.fits = true ∧
      bytes = as.flatMap f.encode ++ rest := by
  induction n generalizing bytes as with
  | zero =>
      simp only [items, Option.some.injEq, Prod.mk.injEq] at h
      obtain ⟨rfl, rfl⟩ := h
      exact ⟨rfl, rfl, rfl⟩
  | succ n ih =>
      obtain ⟨⟨a, mid⟩, ha, hrest⟩ := Option.bind_eq_some_iff.mp h
      obtain ⟨⟨as', rest'⟩, has, hcons⟩ := Option.map_eq_some_iff.mp hrest
      simp only [Prod.mk.injEq] at hcons
      obtain ⟨rfl, rfl⟩ := hcons
      obtain ⟨hfits, rfl⟩ := f.eq_encode_of_deserialize _ _ _ ha
      obtain ⟨hlen, hall, rfl⟩ := ih has
      exact ⟨by simp [hlen], by simp [hfits, hall], by simp⟩

/-- A vector: its length as a `u32`, then its elements. -/
def vec : Format (List α) where
  fits as := decide (as.length < 2 ^ 32) && as.all f.fits
  encode as := u32.encode (UInt32.ofNat as.length) ++ as.flatMap f.encode
  deserialize bytes := (u32.deserialize bytes).bind fun p => items f p.1.toNat p.2
  deserialize_encode as rest h := by
    simp only [Bool.and_eq_true, decide_eq_true_eq] at h
    rw [List.append_assoc, u32.deserialize_encode _ _ rfl, Option.bind_some,
      UInt32.toNat_ofNat', Nat.mod_eq_of_lt h.1]
    exact items_flatMap_encode f as rest h.2
  eq_encode_of_deserialize bytes as rest h := by
    obtain ⟨⟨n, mid⟩, hn, has⟩ := Option.bind_eq_some_iff.mp h
    obtain ⟨-, rfl⟩ := u32.eq_encode_of_deserialize _ _ _ hn
    obtain ⟨hlen, hall, rfl⟩ := eq_flatMap_encode_of_items f has
    have hn := n.toNat_lt
    refine ⟨by simp [hlen, hn, hall], ?_⟩
    rw [hlen, UInt32.ofNat_toNat, List.append_assoc]

theorem vec_fits_iff (as : List α) :
    (vec f).fits as = true ↔ as.length < 2 ^ 32 ∧ ∀ a ∈ as, f.fits a = true := by
  simp [vec]

theorem vec_encode (as : List α) :
    (vec f).encode as =
      u32.encode (UInt32.ofNat as.length) ++ as.flatMap f.encode := rfl

theorem vec_encode_length (as : List α) :
    ((vec f).encode as).length = 4 + (as.map fun a => (f.encode a).length).sum := by
  simp [vec_encode, List.length_flatMap]

/-- A vector of elements that all take `width` bytes. -/
theorem vec_encode_length_of_width (as : List α) {width : Nat}
    (h : ∀ a ∈ as, (f.encode a).length = width) :
    ((vec f).encode as).length = 4 + width * as.length := by
  rw [vec_encode_length]
  have hmap : (as.map fun a => (f.encode a).length) = as.map fun _ => width :=
    List.map_congr_left h
  rw [hmap, List.map_const', List.sum_replicate_nat, Nat.mul_comm]

theorem lePrefix_vec_encode {as : List α} (hfits : (vec f).fits as = true) (rest : Bytes) :
    lePrefix ((vec f).encode as ++ rest) = as.length := by
  have hlen := ((vec_fits_iff f as).mp hfits).1
  rw [vec_encode, List.append_assoc, lePrefix_append (by simp)]
  change lePrefix (leBytes _) = _
  rw [lePrefix_leBytes, UInt32.toNat_ofNat', Nat.mod_eq_of_lt hlen]

/-- Only the empty vector starts with a length of zero bytes. -/
theorem vec_eq_nil_of_zeros {as : List α} (hfits : (vec f).fits as = true)
    (hzeros : ∀ b ∈ (vec f).encode as, b = 0) : as = [] := by
  have hlen := ((vec_fits_iff f as).mp hfits).1
  have hzero : UInt32.ofNat as.length = 0 := by
    apply u32_eq_zero_of_zeros
    intro b hb
    exact hzeros b (List.mem_append_left _ hb)
  have htoNat := congrArg UInt32.toNat hzero
  rw [UInt32.toNat_ofNat', Nat.mod_eq_of_lt hlen, UInt32.toNat_zero] at htoNat
  exact List.length_eq_zero_iff.mp htoNat

end Vec

@[simp] theorem vec_u8_encode (as : Bytes) :
    (vec u8).encode as = u32.encode (UInt32.ofNat as.length) ++ as := by
  simp [vec_encode, u8]

end MultisigNative.Library.Borsh
