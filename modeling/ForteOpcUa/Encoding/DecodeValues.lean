import ForteOpcUa.Encoding.DecodeSpecs

/-!
# DecodeValues — values of any type come back from their bytes

The arrays, variants and records of `DecodeSpecs`: `reads` says that a parseable value is read as
its normal form, `round_trip` puts it behind the encoder.
-/

namespace ForteOpcUa

namespace Encoding

open Memory Serial

/-! ## Elements of a fixed size -/

theorem Fixed.toNat_lt {f : Fixed} (n : BitVec (8 * f.size)) : n.toNat < 256 ^ f.size := by
  have hpow : (256 : ℕ) ^ f.size = 2 ^ (8 * f.size) := by
    rw [Nat.pow_mul]
  rw [hpow]
  exact n.isLt

theorem ofNat_ofBytes {f : Fixed} (n : BitVec (8 * f.size)) :
    BitVec.ofNat (8 * f.size) (ofBytes (toBytes f.size n.toNat)) = n := by
  rw [ofBytes_toBytes, Nat.mod_eq_of_lt (Fixed.toNat_lt n), BitVec.ofNat_toNat, BitVec.setWidth_eq]

theorem length_fixed {f : Fixed} : (vs : Values (.fixed f)) →
    vs.bytes.length = f.size * vs.length
  | .nil => by simp [Values.bytes, Values.length]
  | .cons (.fixed n) vs => by
      rw [Values.bytes, Value.bytes, List.length_append, length_toBytes, length_fixed vs,
        Values.length, Nat.mul_succ, Nat.add_comm]

theorem fixedValues_bytes {f : Fixed} : (vs : Values (.fixed f)) →
    fixedValues f vs.length vs.bytes = vs
  | .nil => by simp [Values.length, fixedValues]
  | .cons (.fixed n) vs => by
      have hlen := length_toBytes f.size n.toNat
      rw [Values.length, fixedValues, Values.bytes, Value.bytes, List.take_left' hlen,
        List.drop_left' hlen, ofNat_ofBytes, fixedValues_bytes vs]

theorem normal_fixed {f : Fixed} : (vs : Values (.fixed f)) → vs.normal = vs
  | .nil => by simp [Values.normal]
  | .cons (.fixed n) vs => by rw [Values.normal, Value.normal, normal_fixed vs]

section Elements

variable {heap : Heap}

theorem reads_element {t : DataType} (v : Value t) {element : Decoder (Value t)}
    (h : Reads offsetLimit element v.bytes v.normal) :
    Reads offsetLimit (decodeElement t element) v.bytes v.normal := by
  cases v with
  | @fixed f n =>
      have hblock := (reads_block (toBytes f.size n.toNat)).map fun bs =>
        (Value.fixed (BitVec.ofNat _ (ofBytes bs)) : Value (.fixed f))
      rw [length_toBytes] at hblock
      simp only [ofNat_ofBytes] at hblock
      rw [decodeElement, Value.bytes, Value.normal]
      exact hblock
  | _ => exact h

theorem reads_elements {t : DataType} (vs : Values t) {element : Decoder (Value t)}
    (h : Reads offsetLimit (decodeLoop element vs.length) vs.bytes vs.normal) :
    Reads offsetLimit (decodeElements t element vs.length) vs.bytes vs.normal := by
  cases t with
  | fixed f =>
      have hblock := (reads_block vs.bytes).map (fixedValues f vs.length)
      rw [length_fixed, fixedValues_bytes, ← normal_fixed vs] at hblock
      rw [decodeElements]
      simpa only [normal_fixed] using hblock
  | _ => exact h

/-- The count and the elements of an array. -/
theorem reads_countedArray (hheap : heap.Ample) {β : Type} {t : DataType} (vs : Values t)
    {element : Decoder (Value t)} (hcount : vs.length < 2 ^ 31)
    (hsize : Allocatable (t.memSize * vs.length) vs.bytes.length)
    (h : Reads offsetLimit (decodeLoop element vs.length) vs.bytes vs.normal)
    {rest : Option (Values t) → Decoder β} {cs : ByteString} {x : β}
    (hrest : Reads offsetLimit (rest (some vs.normal)) cs x) :
    Reads offsetLimit (Int32.decodeBinary.andThen fun n =>
      (decodeArray heap t.memSize n .nil (decodeElements t element)).andThen rest)
        (int32Bytes vs.length ++ (vs.bytes ++ cs)) x := by
  have hempty : vs.length = 0 → vs.bytes = [] ∧ vs.normal = .nil := by
    intro hzero
    cases vs with
    | nil => exact ⟨by rw [Values.bytes], by rw [Values.normal]⟩
    | cons v vs => cases hzero
  have harray := reads_array hheap hsize hempty (reads_elements vs h)
  exact (reads_int32 (by omega) (by omega)).andThen (harray.andThen hrest)

theorem words_flatMap (dims : List (BitVec 32)) :
    words dims.length (dims.flatMap fun d => toBytes 4 d.toNat) = dims := by
  induction dims with
  | nil => rfl
  | cons d dims ih =>
      have hlen := length_toBytes 4 d.toNat
      have hd : d.toNat < 256 ^ 4 := by simpa using d.isLt
      rw [List.length_cons, List.flatMap_cons, words, List.take_left' hlen, List.drop_left' hlen,
        ih, ofBytes_toBytes, Nat.mod_eq_of_lt hd, BitVec.ofNat_toNat, BitVec.setWidth_eq]

theorem length_words (dims : List (BitVec 32)) :
    (dims.flatMap fun d => toBytes 4 d.toNat).length = 4 * dims.length := by
  induction dims with
  | nil => rfl
  | cons d dims ih =>
      rw [List.flatMap_cons, List.length_append, length_toBytes, ih, List.length_cons, Nat.mul_succ,
        Nat.add_comm]

theorem reads_dimensions (hheap : heap.Ample) {dims : List (BitVec 32)}
    (hsize : 4 * dims.length ≤ 104857600) :
    Reads offsetLimit (decodeDimensions heap) (dimensionBytes dims)
      (normalDimensions (some dims)) := by
  have hblock := (reads_block (dims.flatMap fun d => toBytes 4 d.toNat)).map (words dims.length)
  rw [words_flatMap, length_words] at hblock
  have hall : Allocatable (4 * dims.length)
      (dims.flatMap fun d => toBytes 4 d.toNat).length := by
    rw [length_words]
    exact ⟨hsize, by omega⟩
  have hempty : dims.length = 0 → (dims.flatMap fun d => toBytes 4 d.toNat) = [] ∧ dims = [] := by
    intro hzero
    rw [List.length_eq_zero_iff.1 hzero]
    exact ⟨rfl, rfl⟩
  have harray : Reads offsetLimit
      (decodeArray heap 4 dims.length [] fun k => (decodeBlock (4 * k)).map (words k))
        (dims.flatMap fun d => toBytes 4 d.toNat) (some dims) :=
    reads_array hheap hall hempty hblock
  unfold decodeDimensions dimensionBytes normalDimensions
  exact (reads_int32 (by omega) (by omega)).andThen (harray.map (Option.filter fun dims => dims ≠ []))

/-- The dimensions behind an array, if the flag is set. -/
theorem reads_optionalDimensions (hheap : heap.Ample) {dims : Option (List (BitVec 32))}
    (hsize : dimensionsAllocatable dims) {β : Type} (f : Option (List (BitVec 32)) → β) :
    Reads offsetLimit
      ((Reader.when dims.isSome (decodeDimensions heap)).map fun dims => f (dims.getD none))
        (optionBytes dimensionBytes dims) (f (normalDimensions dims)) := by
  cases dims with
  | none =>
      have hnone : Reads offsetLimit (Reader.when false (decodeDimensions heap)) [] none :=
        Reads.yield none
      exact hnone.map fun dims => f (dims.getD none)
  | some ds =>
      have h := ((reads_dimensions hheap (hsize ds rfl)).map some).map fun dims =>
        f (dims.getD none)
      rw [Option.getD_some] at h
      exact h

end Elements

/-! ## Variants -/

/-- The type that a variant names for its elements. -/
def DataType.carrier (t : DataType) : DataType :=
  if t.isBuiltin then t else .extensionObject

/-- What the encoding byte of a variant says. -/
theorem variantByte_spec (t : DataType) (isArray hasDimensions : Bool) :
    variantByte t isArray hasDimensions &&& 0x3f ≠ 0 ∧
      DataType.builtins[(variantByte t isArray hasDimensions &&& 0x3f).toNat - 1]? =
          some t.carrier ∧
        decide (variantByte t isArray hasDimensions &&& 0x80 ≠ 0) = isArray ∧
          decide (variantByte t isArray hasDimensions &&& 0x40 ≠ 0) = (isArray && hasDimensions) ∧
            (variantByte t isArray hasDimensions &&& 0x3f = 22 ↔ t.carrier = .extensionObject) := by
  have hcarrier : t.carrier = .extensionObject ↔ t.carrier.typeId = 22 := by
    cases t with
    | fixed f => cases f <;> simp [DataType.carrier, DataType.isBuiltin, DataType.typeId]
    | text f => cases f <;> simp [DataType.carrier, DataType.isBuiltin, DataType.typeId]
    | _ => simp [DataType.carrier, DataType.isBuiltin, DataType.typeId]
  rw [hcarrier]
  cases t with
  | fixed f => cases f <;> cases isArray <;> cases hasDimensions <;>
      exact ⟨by decide, rfl, by decide, by decide, by decide⟩
  | text f => cases f <;> cases isArray <;> cases hasDimensions <;>
      exact ⟨by decide, rfl, by decide, by decide, by decide⟩
  | record typeId memSize members =>
      have hbyte : variantByte (.record typeId memSize members) isArray hasDimensions =
          variantByte .extensionObject isArray hasDimensions := rfl
      have hobject : (DataType.record typeId memSize members).carrier = .extensionObject := rfl
      rw [hbyte, hobject]
      cases isArray <;> cases hasDimensions <;>
        exact ⟨by decide, rfl, by decide, by decide, by decide⟩
  | _ => cases isArray <;> cases hasDimensions <;>
      exact ⟨by decide, rfl, by decide, by decide, by decide⟩

section Variants

variable {env : Environment} {variant : Decoder (Value .variant)}

theorem decodeVariantBody_array (t : DataType) (hasDimensions : Bool) :
    decodeVariantBody env variant (variantByte t true hasDimensions) =
      decodeVariantArray env variant t.carrier hasDimensions := by
  rcases variantByte_spec t true hasDimensions with ⟨hne, htype, harray, hdims, _⟩
  rw [decide_eq_true_eq] at harray
  rw [Bool.true_and] at hdims
  rw [decodeVariantBody, htype]
  dsimp only
  rw [if_neg hne, if_pos harray, hdims]

theorem decodeVariantBody_extension {t : DataType} (h : t.carrier = .extensionObject) :
    decodeVariantBody env variant (variantByte t false false) = decodeExtension env variant := by
  rcases variantByte_spec t false false with ⟨hne, htype, harray, _, hextension⟩
  rw [decide_eq_false_iff_not] at harray
  rw [decodeVariantBody, htype]
  dsimp only
  rw [if_neg hne, if_neg harray, if_pos (hextension.2 h)]

theorem decodeVariantBody_scalar {t : DataType} (h : t.carrier ≠ .extensionObject) :
    decodeVariantBody env variant (variantByte t false false) =
      decodeScalar env variant t.carrier := by
  rcases variantByte_spec t false false with ⟨hne, htype, harray, _, hextension⟩
  rw [decide_eq_false_iff_not] at harray
  rw [decodeVariantBody, htype]
  dsimp only
  rw [if_neg hne, if_neg harray, if_neg fun heq => h (hextension.1 heq)]

/-- An extension object the decoder does not look into. -/
theorem reads_extension (hheap : env.heap.Ample) {e : ExtensionObject}
    (hunread : e.Opaque env.types) :
    Reads offsetLimit (decodeExtension env variant) e.bytes
      (.scalar (.extensionObject e.normal)) := by
  intro pre post hlim
  have hwhole := ((reads_extensionObject hheap e).map fun e =>
    (Value.scalar (.extensionObject e) : Value .variant)) pre post hlim
  have hunknown : bodyType env.types e.typeId.normal e.encoding = none := by
    unfold bodyType
    split
    · rename_i h
      cases hbody : e.body with
      | byteString body => exact hunread body hbody
      | none => simp [ExtensionObject.encoding, hbody] at h
      | xml body => simp [ExtensionObject.encoding, hbody] at h
    · rfl
  have hgrant : env.heap 48 = true := hheap 48 (by decide)
  obtain ⟨body, hbytes⟩ : ∃ body, e.bytes = e.typeId.bytes ++ ([e.encoding] ++ body) := ⟨_, rfl⟩
  rw [hbytes, List.append_assoc, List.append_assoc] at hlim hwhole ⊢
  have hid := reads_nodeId hheap e.typeId pre _ hlim
  have hform := reads_byte e.encoding (pre ++ e.typeId.bytes) (body ++ post)
    (by rwa [List.append_assoc])
  rw [List.length_append, List.append_assoc] at hform
  rw [decodeExtension, Reader.andThen_good hid, Reader.andThen_good hform, hunknown]
  dsimp only
  rw [if_pos hgrant]
  exact hwhole

theorem reads_known (hheap : env.heap.Ample) {t : DataType} (v : Value t)
    (hcarrier : t.carrier = t) (hne : t ≠ .extensionObject)
    (hsize : Allocatable t.memSize v.bytes.length)
    (h : Reads offsetLimit (decodeType env variant t) v.bytes v.normal) :
    Reads offsetLimit (decodeVariantBody env variant (variantByte t false false)) v.bytes
      (.scalar v.normal) := by
  have hscalar : t.carrier ≠ .extensionObject := by rwa [hcarrier]
  rw [decodeVariantBody_scalar hscalar, hcarrier]
  exact (reads_allocated hheap hsize (reads_element v h)).map Value.scalar

/-- A single value: what is not builtin stays in its extension object. -/
theorem reads_scalar (hheap : env.heap.Ample) {t : DataType} (v : Value t)
    (hv : (Value.scalar v).Parseable env.types)
    (h : v.Parseable env.types → Reads offsetLimit (decodeType env variant t) v.bytes v.normal) :
    Reads offsetLimit (decodeVariantBody env variant (variantByte t false false))
      (wrapBytes t v.bytes) (Value.scalar v).normal := by
  cases v with
  | @record typeId memSize members fs =>
      have hcarrier : (DataType.record typeId memSize members).carrier = .extensionObject := rfl
      rw [decodeVariantBody_extension hcarrier]
      have hunread : ExtensionObject.Opaque env.types (wrapObject (.record typeId memSize members)
          (@Value.record typeId memSize members fs).bytes) := fun _ _ => hv
      exact reads_extension hheap hunread
  | extensionObject e =>
      have hcarrier : DataType.extensionObject.carrier = .extensionObject := rfl
      rw [decodeVariantBody_extension hcarrier]
      exact reads_extension hheap hv
  | _ => exact reads_known hheap _ rfl (by simp) hv.2 (h hv.1)

theorem reads_arrayBody (hheap : env.heap.Ample) {t : DataType} (vs : Values t)
    {dims : Option (List (BitVec 32))} (hdims : dimensionsAllocatable dims)
    (hcount : vs.length < 2 ^ 31) (hsize : Allocatable (t.memSize * vs.length) vs.bytes.length)
    (h : Reads offsetLimit (decodeLoop (decodeType env variant t) vs.length) vs.bytes vs.normal) :
    Reads offsetLimit (decodeVariantArray env variant t dims.isSome)
      (int32Bytes vs.length ++ (vs.bytes ++ optionBytes dimensionBytes dims))
        (.array vs.normal (normalDimensions dims)) :=
  reads_countedArray hheap vs hcount hsize h
    (reads_optionalDimensions hheap hdims (Value.array vs.normal))

/-! ### Elements in extension objects -/

theorem wrapBytes_record {t : DataType} (ht : t.isBuiltin = false) (bs : ByteString) :
    wrapBytes t bs = (Value.extensionObject (wrapObject t bs)).bytes := by
  rw [wrapBytes, ht, if_neg Bool.false_ne_true]
  rfl

theorem wrapBytes_builtin {t : DataType} (ht : t.isBuiltin = true) (bs : ByteString) :
    wrapBytes t bs = bs := by
  rw [wrapBytes, if_pos ht]

theorem elementBytes_builtin {t : DataType} (ht : t.isBuiltin = true) : (vs : Values t) →
    vs.elementBytes = vs.bytes
  | .nil => by rw [Values.elementBytes, Values.bytes]
  | .cons v vs => by
      rw [Values.elementBytes, Values.bytes, wrapBytes_builtin ht, elementBytes_builtin ht vs]

theorem wrapped_bytes {t : DataType} (ht : t.isBuiltin = false) : (vs : Values t) →
    vs.wrapped.bytes = vs.elementBytes
  | .nil => by rw [Values.elementBytes, Values.wrapped, Values.bytes]
  | .cons v vs => by
      rw [Values.elementBytes, Values.wrapped, Values.bytes, wrapBytes_record ht,
        wrapped_bytes ht vs]

theorem wrapped_length {t : DataType} : (vs : Values t) → vs.wrapped.length = vs.length
  | .nil => by rw [Values.wrapped, Values.length, Values.length]
  | .cons v vs => by rw [Values.wrapped, Values.length, Values.length, wrapped_length vs]

theorem wrapped_normal {t : DataType} : (vs : Values t) → vs.wrapped.normal = vs.received
  | .nil => by rw [Values.wrapped, Values.received, Values.normal]
  | .cons v vs => by
      rw [Values.wrapped, Values.received, Values.normal, Value.normal, wrapped_normal vs]

theorem length_extensions : (vs : Values .extensionObject) → 2 * vs.length ≤ vs.bytes.length
  | .nil => by rw [Values.length, Values.bytes, List.length_nil, Nat.mul_zero]
  | .cons (.extensionObject e) vs => by
      have ih := length_extensions vs
      rw [Values.length, Values.bytes, Value.bytes, List.length_append, ExtensionObject.bytes,
        List.length_append, NodeId.bytes, List.length_cons, List.length_cons]
      omega

theorem reads_extensionLoop (hheap : env.heap.Ample) : (vs : Values .extensionObject) →
    Reads offsetLimit (decodeLoop (decodeType env variant .extensionObject) vs.length) vs.bytes
      vs.normal
  | .nil => by
      rw [Values.length, Values.bytes, Values.normal]
      exact Reads.yield _
  | .cons (.extensionObject e) vs => by
      rw [Values.length, Values.bytes, Values.normal, Value.bytes, Value.normal]
      exact ((reads_extensionObject hheap e).map Value.extensionObject).andThen
        ((reads_extensionLoop hheap vs).map (Values.cons (.extensionObject e.normal)))

theorem memSize_pos {t : DataType} (ht : t.isBuiltin = true) : 0 < t.memSize := by
  cases t with
  | fixed f => cases f <;> decide
  | record typeId memSize members => cases ht
  | _ => simp [DataType.memSize]

/-- An array: what is not builtin stays in extension objects. -/
theorem reads_variantArray (hheap : env.heap.Ample) {t : DataType} (vs : Values t)
    {dims : Option (List (BitVec 32))} (hvs : (Value.array vs dims).Parseable env.types)
    (h : vs.Parseable env.types →
      Reads offsetLimit (decodeLoop (decodeType env variant t) vs.length) vs.bytes vs.normal) :
    Reads offsetLimit (decodeVariantBody env variant (variantByte t true dims.isSome))
      (int32Bytes vs.length ++ (vs.elementBytes ++ optionBytes dimensionBytes dims))
        (Value.array vs dims).normal := by
  rw [decodeVariantBody_array]
  rw [Value.Parseable] at hvs
  rcases hvs with ⟨hdims, hvs⟩
  cases ht : t.isBuiltin with
  | true =>
      rw [if_pos ht] at hvs
      have hcarrier : t.carrier = t := if_pos ht
      have hcount : vs.length ≤ t.memSize * vs.length :=
        Nat.le_mul_of_pos_left _ (memSize_pos ht)
      have hbound := hvs.2.1
      have hnormal : (Value.array vs dims).normal = .array vs.normal (normalDimensions dims) := by
        rw [Value.normal, if_pos ht]
      rw [hcarrier, hnormal, elementBytes_builtin ht]
      exact reads_arrayBody hheap vs hdims (by omega) hvs.2 (h hvs.1)
  | false =>
      rw [ht, if_neg Bool.false_ne_true] at hvs
      have hcarrier : t.carrier = .extensionObject := by
        rw [DataType.carrier, ht, if_neg Bool.false_ne_true]
      have hnormal : (Value.array vs dims).normal =
          .array vs.wrapped.normal (normalDimensions dims) := by
        rw [Value.normal, ht, if_neg Bool.false_ne_true, wrapped_normal]
      have hlength := length_extensions vs.wrapped
      have hall : Allocatable (DataType.extensionObject.memSize * vs.wrapped.length)
          vs.wrapped.bytes.length := by
        rw [wrapped_length] at hlength ⊢
        have hsize : DataType.extensionObject.memSize = 48 := rfl
        rw [hsize]
        exact ⟨hvs, by omega⟩
      have hcount : vs.wrapped.length < 2 ^ 31 := by
        rw [wrapped_length]
        omega
      rw [hcarrier, hnormal, ← wrapped_bytes ht, ← wrapped_length vs]
      exact reads_arrayBody hheap vs.wrapped hdims hcount hall
        (reads_extensionLoop hheap vs.wrapped)

theorem reads_variantNull (hheap : env.heap.Ample) (t : DataType)
    {dims : Option (List (BitVec 32))} (hdims : dimensionsAllocatable dims) :
    Reads offsetLimit (decodeVariantBody env variant (variantByte t true dims.isSome))
      (int32Bytes (-1) ++ optionBytes dimensionBytes dims)
        (.nullArray t.carrier (normalDimensions dims)) := by
  rw [decodeVariantBody_array]
  have hnull : Reads offsetLimit
      (decodeArray env.heap t.carrier.memSize (-1) .nil
        (decodeElements t.carrier (decodeType env variant t.carrier))) [] none :=
    reads_nullArray _ _ _
  exact (reads_int32 (by decide) (by decide)).andThen (hnull.andThen
    (reads_optionalDimensions hheap hdims (Value.nullArray t.carrier)))

end Variants

/-! ## Values -/

theorem reads_fixed {f : Fixed} (n : BitVec (8 * f.size)) :
    Reads offsetLimit ((decodeInteger f.size).map fun n => (Value.fixed (BitVec.ofNat _ n)))
      (toBytes f.size n.toNat) (Value.fixed n) := by
  have h := (reads_integer (Fixed.toNat_lt n)).map fun n =>
    (Value.fixed (BitVec.ofNat _ n) : Value (.fixed f))
  simp only [BitVec.ofNat_toNat, BitVec.setWidth_eq] at h
  exact h

section Composite

variable {env : Environment} {variant : Decoder (Value .variant)}

theorem reads_qualifiedName (hheap : env.heap.Ample) {q : QualifiedName}
    (hq : q.name.data.length ≤ 104857600) :
    Reads offsetLimit (decodeType env variant .qualifiedName) q.bytes (.qualifiedName q) := by
  have hname := (reads_byteArray hheap hq).map fun name =>
    Value.qualifiedName { namespaceIndex := q.namespaceIndex, name := name }
  rw [decodeType]
  exact (reads_uInt16 q.namespaceIndex).andThen hname

theorem reads_dataValue (s : Stamps) :
    Reads offsetLimit (decodeType env variant .dataValue) (s.flags false :: s.bytes)
      (.dataValue s.normal) := by
  rcases s.flags_spec false with ⟨hvalue, _⟩
  have h := ((Reads.skipped hvalue variant).also (reads_stamps s false)).map fun r =>
    r.1.elim (Value.dataValue r.2) fun v => Value.dataValueOf v r.2
  rw [decodeType]
  exact (reads_byte (s.flags false)).andThen h

theorem reads_dataValueOf (s : Stamps) {v : Value .variant}
    (hv : Reads offsetLimit variant v.bytes v.normal) :
    Reads offsetLimit (decodeType env variant .dataValue) (s.flags true :: (v.bytes ++ s.bytes))
      (.dataValueOf v.normal s.normal) := by
  rcases s.flags_spec true with ⟨hvalue, _⟩
  have h := ((Reads.taken hvalue hv).also (reads_stamps s true)).map fun r =>
    r.1.elim (Value.dataValue r.2) fun v => Value.dataValueOf v r.2
  rw [decodeType]
  exact (reads_byte (s.flags true)).andThen h

theorem reads_diagnosticValue (hheap : env.heap.Ample) (d : Diagnostic) (inner : List Diagnostic) :
    Reads offsetLimit (decodeType env variant .diagnosticInfo) (d.bytes inner)
      (.diagnosticInfo d inner) := by
  intro pre post hlim
  have hdepth : inner.length < (pre ++ (d.bytes inner ++ post)).length + 1 := by
    have hinner := d.length_inner inner
    simp only [List.length_append]
    omega
  have h := (reads_diagnosticInfo hheap d inner hdepth).map fun r =>
    Value.diagnosticInfo r.1 r.2
  exact h pre post hlim

/-- A variant that starts with its byte. -/
theorem reads_variant {b : UInt8} {bs : ByteString} {v : Value .variant} {depth : ℕ}
    (h : Reads offsetLimit (decodeVariantBody env (decodeVariant env depth) b) bs v) :
    Reads offsetLimit (decodeVariant env (depth + 1)) (b :: bs) v :=
  (reads_byte b).andThen h

theorem length_wrapBytes (t : DataType) (bs : ByteString) :
    bs.length ≤ (wrapBytes t bs).length := by
  unfold wrapBytes
  split
  · exact Nat.le_refl _
  · simp only [List.length_append, List.length_cons]
    omega

theorem length_elementBytes {t : DataType} : (vs : Values t) →
    vs.bytes.length ≤ vs.elementBytes.length
  | .nil => by rw [Values.bytes, Values.elementBytes]
  | .cons v vs => by
      have hfirst := length_wrapBytes t v.bytes
      have hrest := length_elementBytes vs
      rw [Values.bytes, Values.elementBytes, List.length_append, List.length_append]
      omega

end Composite

mutual

/-- **Decoding.**  The decoder of a type reads the normal form of a parseable value, when variants
may go as deep as there are bytes. -/
theorem reads {env : Environment} (hheap : env.heap.Ample) : {t : DataType} → (v : Value t) →
    (depth : ℕ) → v.bytes.length < depth → v.Parseable env.types →
      Reads offsetLimit (decodeType env (decodeVariant env depth) t) v.bytes v.normal
  | .fixed f, .fixed n, _, _, _ => by
      rw [decodeType, Value.bytes, Value.normal]
      exact reads_fixed n
  | _, .text s, _, _, hv => by
      rw [decodeType, Value.bytes, Value.normal]
      exact (reads_byteArray hheap hv).map Value.text
  | _, .guid g, _, _, _ => by
      rw [decodeType, Value.bytes, Value.normal]
      exact (reads_guid g).map Value.guid
  | _, .nodeId id, _, _, _ => by
      rw [decodeType, Value.bytes, Value.normal]
      exact (reads_nodeId hheap id).map Value.nodeId
  | _, .expandedNodeId id, _, _, _ => by
      rw [decodeType, Value.bytes, Value.normal]
      exact (reads_expandedNodeId hheap id).map Value.expandedNodeId
  | _, .qualifiedName q, _, _, hv => by
      rw [Value.bytes, Value.normal]
      exact reads_qualifiedName hheap hv
  | _, .localizedText l, _, _, _ => by
      rw [decodeType, Value.bytes, Value.normal]
      exact (reads_localizedText hheap l).map Value.localizedText
  | _, .extensionObject e, _, _, _ => by
      rw [decodeType, Value.bytes, Value.normal]
      exact (reads_extensionObject hheap e).map Value.extensionObject
  | _, .dataValue s, _, _, _ => by
      rw [Value.bytes, Value.normal]
      exact reads_dataValue s
  | _, .dataValueOf v s, depth, hdepth, hv => by
      rw [Value.bytes, List.length_cons, List.length_append] at hdepth
      have h := reads hheap v depth (by omega) hv
      rw [decodeType] at h
      rw [Value.bytes, Value.normal]
      exact reads_dataValueOf s h
  | _, .diagnosticInfo d inner, _, _, _ => by
      rw [Value.bytes, Value.normal]
      exact reads_diagnosticValue hheap d inner
  | _, .record fs, depth, hdepth, hv => by
      rw [Value.bytes] at hdepth
      rw [decodeType, Value.bytes, Value.normal]
      exact (reads_fields hheap fs depth hdepth hv).map Value.record
  | _, @Value.scalar t v, depth + 1, hdepth, hv => by
      rw [Value.bytes, List.length_cons] at hdepth
      have hlength := length_wrapBytes t v.bytes
      rw [decodeType, Value.bytes]
      exact reads_variant (reads_scalar hheap v hv (reads hheap v depth (by omega)))
  | _, .array vs dims, depth + 1, hdepth, hv => by
      rw [Value.bytes, List.length_cons, List.length_append, List.length_append] at hdepth
      have hlength := length_elementBytes vs
      rw [decodeType, Value.bytes]
      exact reads_variant (reads_variantArray hheap vs hv (reads_loop hheap vs depth (by omega)))
  | _, .nullArray t dims, depth + 1, _, hv => by
      rw [decodeType, Value.bytes, Value.normal]
      exact reads_variant (reads_variantNull hheap t hv)

theorem reads_loop {env : Environment} (hheap : env.heap.Ample) : {t : DataType} →
    (vs : Values t) → (depth : ℕ) → vs.bytes.length < depth → vs.Parseable env.types →
      Reads offsetLimit (decodeLoop (decodeType env (decodeVariant env depth) t) vs.length)
        vs.bytes vs.normal
  | _, .nil, _, _, _ => by
      rw [Values.length, Values.bytes, Values.normal]
      exact Reads.yield _
  | _, .cons v vs, depth, hdepth, hvs => by
      rw [Values.bytes, List.length_append] at hdepth
      rw [Values.length, Values.bytes, Values.normal]
      exact (reads hheap v depth (by omega) hvs.1).andThen
        ((reads_loop hheap vs depth (by omega) hvs.2).map (Values.cons v.normal))

theorem reads_fields {env : Environment} (hheap : env.heap.Ample) : {ms : Members} →
    (fs : Fields ms) → (depth : ℕ) → fs.bytes.length < depth → fs.Parseable env.types →
      Reads offsetLimit (decodeMembers env (decodeVariant env depth) ms) fs.bytes fs.normal
  | _, .nil, _, _, _ => by
      rw [decodeMembers, Fields.bytes, Fields.normal]
      exact Reads.yield _
  | _, .single v fs, depth, hdepth, hfs => by
      rw [Fields.bytes, List.length_append] at hdepth
      rw [decodeMembers, Fields.bytes, Fields.normal]
      exact (reads hheap v depth (by omega) hfs.1).andThen
        ((reads_fields hheap fs depth (by omega) hfs.2).map (Fields.single v.normal))
  | _, @Fields.null t ms fs, depth, hdepth, hfs => by
      rw [Fields.bytes, List.length_append] at hdepth
      have hnull : Reads offsetLimit
          (decodeArray env.heap t.memSize (-1) .nil
            (decodeElements t (decodeType env (decodeVariant env depth) t))) [] none :=
        reads_nullArray _ _ _
      have hrest := (reads_fields hheap fs depth (by omega) hfs).map fun fs : Fields ms =>
        (none : Option (Values t)).elim (Fields.null fs) fun vs => Fields.array vs fs
      rw [decodeMembers, Fields.bytes, Fields.normal]
      exact (reads_int32 (by decide) (by decide)).andThen (hnull.andThen hrest)
  | _, .array vs fs, depth, hdepth, hfs => by
      rw [Fields.bytes, List.length_append, List.length_append] at hdepth
      rcases hfs with ⟨hcount, hvs, hsize, hfs⟩
      have hrest := (reads_fields hheap fs depth (by omega) hfs).map fun fs =>
        (some vs.normal).elim (Fields.null fs) fun vs => Fields.array vs fs
      rw [decodeMembers, Fields.bytes, Fields.normal, List.append_assoc]
      exact reads_countedArray hheap vs hcount hsize (reads_loop hheap vs depth (by omega) hvs)
        hrest

end

end Encoding

end ForteOpcUa
