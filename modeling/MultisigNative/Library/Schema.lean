import MultisigNative.Library.Borsh

/-!
Borsh schemas as data.  A dynamically typed client describes a layout by a schema
and hands objects to its codec; here a schema gets the format that the Borsh
specification assigns to it, and is compared with the format of a typed value.
-/

namespace MultisigNative.Library.Borsh

/-- The values of a dynamically typed client. -/
inductive Value
  | number (n : Nat)
  | boolean (b : Bool)
  | array (elements : List Value)
  | object (fields : List (String × Value))

def byteValue (b : UInt8) : Value := .number b.toNat

/-- `array` has its length in front, `fixedArray` has not. -/
inductive Schema
  | u8
  | u32
  | bool
  | array (type : Schema)
  | fixedArray (type : Schema) (len : Nat)
  | struct (fields : List (String × Schema))

namespace Format

variable {α β : Type}

/-- A format of `α` for those values of `β` that stand for one of `α`. -/
def embed (f : Format α) (inject : α → β) (project : β → Option α)
    (project_inject : ∀ a, project (inject a) = some a)
    (inject_of_project : ∀ b a, project b = some a → inject a = b) : Format β where
  fits b := (project b).any f.fits
  encode b := ((project b).map f.encode).getD []
  deserialize bytes := (f.deserialize bytes).map fun p => (inject p.1, p.2)
  deserialize_encode b rest h := by
    obtain ⟨a, ha, hfits⟩ := (Option.any_eq_true _ _).mp h
    simp only [ha, Option.map_some, Option.getD_some, f.deserialize_encode a rest hfits,
      inject_of_project b a ha]
  eq_encode_of_deserialize bytes b rest h := by
    obtain ⟨⟨a, rest'⟩, ha, hb⟩ := Option.map_eq_some_iff.mp h
    simp only [Prod.mk.injEq] at hb
    obtain ⟨rfl, rfl⟩ := hb
    simpa [project_inject] using f.eq_encode_of_deserialize bytes a rest' ha

section Embed

variable {f : Format α} {inject : α → β} {project : β → Option α}
  {project_inject : ∀ a, project (inject a) = some a}
  {inject_of_project : ∀ b a, project b = some a → inject a = b}

@[simp] theorem embed_fits (a : α) :
    (f.embed inject project project_inject inject_of_project).fits (inject a) =
      f.fits a := by
  simp [embed, project_inject]

@[simp] theorem embed_encode (a : α) :
    (f.embed inject project project_inject inject_of_project).encode (inject a) =
      f.encode a := by
  simp [embed, project_inject]

end Embed

/-- A list of `n` elements without its length. -/
def replicate (f : Format α) (n : Nat) : Format (List α) where
  fits as := decide (as.length = n) && as.all f.fits
  encode as := as.flatMap f.encode
  deserialize := items f n
  deserialize_encode as rest h := by
    simp only [Bool.and_eq_true, decide_eq_true_eq] at h
    obtain ⟨rfl, hall⟩ := h
    exact items_flatMap_encode f as rest hall
  eq_encode_of_deserialize bytes as rest h := by
    obtain ⟨hlen, hall, hbytes⟩ := eq_flatMap_encode_of_items f h
    exact ⟨by simp [hlen, hall], hbytes⟩

end Format

/-- No bytes at all. -/
def unit : Format Unit where
  fits _ := true
  encode _ := []
  deserialize bytes := some ((), bytes)
  deserialize_encode _ _ _ := rfl
  eq_encode_of_deserialize bytes a rest h := by
    simp only [Option.some.injEq, Prod.mk.injEq, true_and] at h
    exact ⟨rfl, h⟩

namespace Value

def toU8 : Value → Option UInt8
  | .number n => if n < 2 ^ 8 then some (UInt8.ofNat n) else none
  | _ => none

def toU32 : Value → Option UInt32
  | .number n => if n < 2 ^ 32 then some (UInt32.ofNat n) else none
  | _ => none

def toBool : Value → Option Bool
  | .boolean b => some b
  | _ => none

def toElements : Value → Option (List Value)
  | .array elements => some elements
  | _ => none

def toFields : Value → Option (List (String × Value))
  | .object fields => some fields
  | _ => none

/-- The first field, if it has this name, and the others. -/
def splitField (name : String) :
    List (String × Value) → Option (Value × List (String × Value))
  | (name', value) :: fields => if name' = name then some (value, fields) else none
  | [] => none

def splitEnd : List (String × Value) → Option Unit
  | [] => some ()
  | _ :: _ => none

theorem toU8_number (b : UInt8) : toU8 (byteValue b) = some b := by
  simp [toU8, byteValue, b.toNat_lt]

theorem number_of_toU8 (v : Value) (b : UInt8) (h : v.toU8 = some b) :
    byteValue b = v := by
  cases v with
  | number n =>
      simp only [toU8, Option.ite_none_right_eq_some, Option.some.injEq] at h
      obtain ⟨hlt, rfl⟩ := h
      rw [byteValue, UInt8.toNat_ofNat', Nat.mod_eq_of_lt hlt]
  | _ => cases h

theorem toU32_number (n : UInt32) : toU32 (.number n.toNat) = some n := by
  simp [toU32, n.toNat_lt]

theorem number_of_toU32 (v : Value) (n : UInt32) (h : v.toU32 = some n) :
    .number n.toNat = v := by
  cases v with
  | number n' =>
      simp only [toU32, Option.ite_none_right_eq_some, Option.some.injEq] at h
      obtain ⟨hlt, rfl⟩ := h
      rw [UInt32.toNat_ofNat', Nat.mod_eq_of_lt hlt]
  | _ => cases h

theorem toBool_boolean (b : Bool) : toBool (.boolean b) = some b := rfl

theorem toElements_array (elements : List Value) :
    toElements (.array elements) = some elements := rfl

theorem toFields_object (fields : List (String × Value)) :
    toFields (.object fields) = some fields := rfl

theorem splitEnd_nil (u : Unit) : splitEnd [] = some u := rfl

theorem boolean_of_toBool (v : Value) (b : Bool) (h : v.toBool = some b) :
    .boolean b = v := by
  cases v with
  | boolean b' => exact congrArg Value.boolean (Option.some.inj h).symm
  | _ => cases h

theorem array_of_toElements (v : Value) (elements : List Value)
    (h : v.toElements = some elements) : .array elements = v := by
  cases v with
  | array elements' => exact congrArg Value.array (Option.some.inj h).symm
  | _ => cases h

theorem object_of_toFields (v : Value) (fields : List (String × Value))
    (h : v.toFields = some fields) : .object fields = v := by
  cases v with
  | object fields' => exact congrArg Value.object (Option.some.inj h).symm
  | _ => cases h

theorem splitField_cons (name : String) (p : Value × List (String × Value)) :
    splitField name ((name, p.1) :: p.2) = some p := by
  simp [splitField]

theorem cons_of_splitField (name : String) (fields : List (String × Value))
    (p : Value × List (String × Value)) (h : splitField name fields = some p) :
    (name, p.1) :: p.2 = fields := by
  cases fields with
  | nil => cases h
  | cons field fields =>
      obtain ⟨name', value⟩ := field
      simp only [splitField, Option.ite_none_right_eq_some, Option.some.injEq] at h
      obtain ⟨rfl, rfl⟩ := h
      rfl

theorem nil_of_splitEnd (fields : List (String × Value)) (u : Unit)
    (h : splitEnd fields = some u) : [] = fields := by
  cases fields with
  | nil => rfl
  | cons field fields => cases h

end Value

mutual

/-- The layout that the Borsh specification gives a schema.  The fields of an object
are encoded in the order of the schema. -/
def Schema.format : Schema → Format Value
  | .u8 => Borsh.u8.embed byteValue Value.toU8 Value.toU8_number Value.number_of_toU8
  | .u32 => Borsh.u32.embed (fun n => .number n.toNat) Value.toU32 Value.toU32_number
      Value.number_of_toU32
  | .bool => Borsh.bool.embed .boolean Value.toBool Value.toBool_boolean
      Value.boolean_of_toBool
  | .array type => (vec type.format).embed .array Value.toElements Value.toElements_array
      Value.array_of_toElements
  | .fixedArray type len => (type.format.replicate len).embed .array Value.toElements
      Value.toElements_array Value.array_of_toElements
  | .struct fields => (Schema.fieldsFormat fields).embed .object Value.toFields
      Value.toFields_object Value.object_of_toFields

def Schema.fieldsFormat : List (String × Schema) → Format (List (String × Value))
  | [] => unit.embed (fun _ => []) Value.splitEnd Value.splitEnd_nil Value.nil_of_splitEnd
  | (name, type) :: fields =>
      (type.format.prod (Schema.fieldsFormat fields)).embed (fun p => (name, p.1) :: p.2)
        (Value.splitField name) (Value.splitField_cons name) (Value.cons_of_splitField name)

end

/-- The schema lays out `value a` as the format does `a`. -/
structure Describes {α : Type} (s : Schema) (f : Format α) (value : α → Value) : Prop where
  fits : ∀ a, s.format.fits (value a) = f.fits a
  encode : ∀ a, s.format.encode (value a) = f.encode a

structure DescribesFields {α : Type} (fields : List (String × Schema)) (f : Format α)
    (values : α → List (String × Value)) : Prop where
  fits : ∀ a, (Schema.fieldsFormat fields).fits (values a) = f.fits a
  encode : ∀ a, (Schema.fieldsFormat fields).encode (values a) = f.encode a

theorem describes_of_embed {α : Type} {s : Schema} {f : Format α} {value : α → Value}
    {project : Value → Option α} {project_inject : ∀ a, project (value a) = some a}
    {inject_of_project : ∀ v a, project v = some a → value a = v}
    (h : s.format = f.embed value project project_inject inject_of_project) :
    Describes s f value where
  fits a := by rw [h, Format.embed_fits]
  encode a := by rw [h, Format.embed_encode]

theorem describes_u8 : Describes .u8 u8 byteValue := describes_of_embed rfl

theorem describes_u32 : Describes .u32 u32 fun n => .number n.toNat := describes_of_embed rfl

theorem describes_bool : Describes .bool bool .boolean := describes_of_embed rfl

section Describes

variable {α β : Type} {s : Schema} {f : Format α} {g : Format β} {value : α → Value}
  {name : String} {fields : List (String × Schema)} {values : β → List (String × Value)}

theorem Describes.array (h : Describes s f value) :
    Describes (.array s) (vec f) fun as => .array (as.map value) where
  fits as := by
    have hall : (as.map value).all s.format.fits = as.all f.fits := by
      rw [List.all_map]
      exact congrArg as.all (funext h.fits)
    rw [Schema.format, Format.embed_fits]
    change (decide ((as.map value).length < 2 ^ 32) && (as.map value).all s.format.fits) = _
    rw [List.length_map, hall]
    rfl
  encode as := by
    rw [Schema.format, Format.embed_encode, vec_encode, vec_encode, List.length_map,
      List.flatMap_map]
    exact congrArg (_ ++ as.flatMap ·) (funext h.encode)

/-- Bytes without their length. -/
theorem describes_bytes (n : Nat) :
    Describes (.fixedArray .u8 n) (array n) fun a => .array (a.val.map byteValue) where
  fits a := by
    have hall : (a.val.map byteValue).all Schema.u8.format.fits = true := by
      rw [List.all_map, List.all_eq_true]
      intro b _
      exact describes_u8.fits b
    rw [Schema.format, Format.embed_fits]
    change (decide ((a.val.map byteValue).length = n) &&
      (a.val.map byteValue).all Schema.u8.format.fits) = true
    rw [List.length_map, hall, a.property]
    simp
  encode a := by
    rw [Schema.format, Format.embed_encode]
    change (a.val.map byteValue).flatMap Schema.u8.format.encode = a.val
    rw [List.flatMap_map, funext describes_u8.encode]
    simp [u8]

theorem Describes.equiv (h : Describes s f value) (e : β ≃ α) :
    Describes s (f.equiv e) fun b => value (e b) :=
  ⟨fun b => h.fits (e b), fun b => h.encode (e b)⟩

theorem describesFields_nil : DescribesFields [] unit fun _ => [] :=
  ⟨fun _ => rfl, fun _ => rfl⟩

theorem Describes.cons (h : Describes s f value) (name : String)
    (hfields : DescribesFields fields g values) :
    DescribesFields ((name, s) :: fields) (f.prod g)
      fun p => (name, value p.1) :: values p.2 where
  fits p := by
    rw [Schema.fieldsFormat]
    refine (Format.embed_fits (value p.1, values p.2)).trans ?_
    change (s.format.fits (value p.1) && (Schema.fieldsFormat fields).fits (values p.2)) = _
    rw [h.fits, hfields.fits]
    rfl
  encode p := by
    rw [Schema.fieldsFormat]
    refine (Format.embed_encode (value p.1, values p.2)).trans ?_
    change s.format.encode (value p.1) ++ (Schema.fieldsFormat fields).encode (values p.2) = _
    rw [h.encode, hfields.encode]
    rfl

theorem Describes.last (h : Describes s f value) (name : String) :
    DescribesFields [(name, s)] f fun a => [(name, value a)] where
  fits a := by
    refine ((h.cons name describesFields_nil).fits (a, ())).trans ?_
    exact Bool.and_true _
  encode a := by
    refine ((h.cons name describesFields_nil).encode (a, ())).trans ?_
    exact List.append_nil _

theorem DescribesFields.struct (h : DescribesFields fields g values) :
    Describes (.struct fields) g fun b => .object (values b) where
  fits b := by
    rw [Schema.format, Format.embed_fits, h.fits]
  encode b := by
    rw [Schema.format, Format.embed_encode, h.encode]

theorem DescribesFields.equiv (h : DescribesFields fields g values) (e : α ≃ β) :
    DescribesFields fields (g.equiv e) fun a => values (e a) :=
  ⟨fun a => h.fits (e a), fun a => h.encode (e a)⟩

/-- The schema decodes what the format has encoded. -/
theorem Describes.tryFromSlice_encode (h : Describes s f value) {a : α}
    (hfits : f.fits a = true) : s.format.tryFromSlice (f.encode a) = some (value a) :=
  (s.format.tryFromSlice_eq_some_iff _ _).mpr ⟨(h.fits a).trans hfits, (h.encode a).symm⟩

end Describes

end MultisigNative.Library.Borsh
