import ForteOpcUa.Encoding.DecodeValues

/-!
# Codec — encoders against decoders, buffers and sizes

- `round_trip`        : what is encoded into a buffer with room is decoded from it again,
- `encode_contained`  : without room, a plain value is refused and nothing outside is touched,
- `encode_faults_iff` : an expanded node id with flags is written outside a buffer that is full,
- `calcSize_suffices` : the size of a value is enough for it, and exact but for its guid node ids.
-/

namespace ForteOpcUa

namespace Encoding

open Memory Serial

/-! ## Round trips -/

/-- **Round trip.**  Where a buffer has room, a parseable value is written there and nowhere else, and
the decoder of its type reads the normal form of the value from the place. -/
theorem round_trip (env : Environment) (hheap : env.heap.Ample) {t : DataType} (v : Value t)
    (hv : v.Parseable env.types) (buf : ByteString) (offset : ℕ)
    (hroom : offset + v.bytes.length ≤ buf.length) (hlim : buf.length + v.bytes.length < 2 ^ 31) :
    ∃ buf', v.encodeBinary buf offset = .good buf' (offset + v.bytes.length) ∧
      buf'.length = buf.length ∧ buf'.take offset = buf.take offset ∧
        buf'.drop (offset + v.bytes.length) = buf.drop (offset + v.bytes.length) ∧
          decodeBinary env t buf' offset = .good v.normal (offset + v.bytes.length) := by
  have hoff : (buf.take offset).length = offset := by
    rw [List.length_take]
    omega
  have hmid : ((buf.drop offset).take v.bytes.length).length = v.bytes.length := by
    rw [List.length_take, List.length_drop]
    omega
  have hbuf : buf = buf.take offset ++
      ((buf.drop offset).take v.bytes.length ++ (buf.drop offset).drop v.bytes.length) := by
    rw [List.take_append_drop, List.take_append_drop]
  have hwrite := (encodes v).writes (buf.take offset) _ ((buf.drop offset).drop v.bytes.length) hmid
    (by rwa [← hbuf])
  rw [← hbuf, hoff] at hwrite
  refine ⟨_, hwrite, ?_, ?_, ?_, ?_⟩
  · rw [List.length_append, List.length_append, hoff, List.length_drop, List.length_drop]
    omega
  · exact List.take_left' hoff
  · rw [← List.append_assoc, List.drop_left' (by rw [List.length_append, hoff]), List.drop_drop]
  · have hlen : (buf.take offset ++ (v.bytes ++ (buf.drop offset).drop v.bytes.length)).length =
        buf.length := by
      rw [List.length_append, List.length_append, hoff, List.length_drop, List.length_drop]
      omega
    have hread := reads hheap v (buf.length + 1) (by omega) hv (buf.take offset)
      ((buf.drop offset).drop v.bytes.length) (by rw [hlen]; exact Nat.lt_of_le_of_lt (Nat.le_add_right _ _) hlim)
    rw [hoff] at hread
    rw [decodeBinary, hlen]
    exact hread

/-- An array of one id with a namespace URI, with its dimensions. -/
def serverIds : Value .variant :=
  .array (.cons (.expandedNodeId
    { nodeId := { namespaceIndex := 3, identifier := .numeric 7 }
      namespaceUri := some [117]
      serverIndex := 2 }) .nil) (some [1])

theorem serverIds_parseable : serverIds.Parseable DataType.builtins := by
  have hdims : dimensionsAllocatable (some [1]) := by
    intro ds hds
    cases hds
    decide
  refine ⟨hdims, ?_⟩
  rw [if_pos (by rfl)]
  exact ⟨⟨trivial, trivial⟩, by decide +kernel⟩

theorem round_trip_serverIds :
    ∃ buf', serverIds.encodeBinary (List.replicate 40 0) 5 =
        .good buf' (5 + serverIds.bytes.length) ∧
      buf'.length = (List.replicate 40 (0 : UInt8)).length ∧
        buf'.take 5 = (List.replicate 40 0).take 5 ∧
          buf'.drop (5 + serverIds.bytes.length) =
              (List.replicate 40 0).drop (5 + serverIds.bytes.length) ∧
            decodeBinary { types := DataType.builtins, heap := fun _ => true } .variant buf' 5 =
              .good serverIds.normal (5 + serverIds.bytes.length) :=
  round_trip { types := DataType.builtins, heap := fun _ => true } (fun _ _ => rfl) serverIds
    serverIds_parseable (List.replicate 40 0) 5 (by decide +kernel) (by decide +kernel)

/-! ## Buffers without room -/

/-- **A write outside the buffer.**  The flags of an expanded node id are or'ed into the place of its
first byte, also when the buffer ends before it. -/
theorem encode_faults_iff (id : ExpandedNodeId) (buf : ByteString) (offset : ℕ)
    (hlim : max offset buf.length + id.bytes.length < 2 ^ 31) :
    id.encodeBinary buf offset = .fault ↔ id.flags ≠ 0 ∧ buf.length ≤ offset := by
  have hbytes : id.bytes.length =
      (id.nodeId.encodingByte :: (id.nodeId.body ++ id.rest)).length := rfl
  have hstart : u32 (offset : ℤ) = offset := u32_eq (by omega)
  -- Whatever the fields do, they leave the length of the buffer as it was.
  have hset : ∀ dst : ByteString, dst.length = buf.length →
      ((if id.flags = 0 then some dst else ExpandedNodeId.orAt dst offset id.flags) = none ↔
        id.flags ≠ 0 ∧ buf.length ≤ offset) := by
    intro dst hlen
    by_cases hflags : id.flags = 0
    · rw [if_pos hflags]
      simp [hflags]
    · rw [if_neg hflags, ExpandedNodeId.orAt]
      by_cases hin : buf.length ≤ offset
      · rw [List.getElem?_eq_none (by omega)]
        simp [hflags, hin]
      · rw [List.getElem?_eq_getElem (by omega)]
        simp [hin]
  rw [hbytes] at hlim
  unfold ExpandedNodeId.encodeBinary
  rw [hstart]
  dsimp only
  rcases (ExpandedNodeId.encodes_fields (p := True) id).cases trivial
      (hlim : max offset buf.length + _ < offsetLimit) with
    ⟨buf', hw, hlen, _⟩ | ⟨status, buf', offset', hw, hlen, _⟩
  · rw [hw, ← hset buf' hlen]
    dsimp only
    split
    · simp_all
    · simp_all
  · rw [hw, ← hset buf' hlen]
    dsimp only
    split
    · simp_all
    · simp_all

theorem encode_faults_full :
    ({ nodeId := { namespaceIndex := 0, identifier := .numeric 7 }
       namespaceUri := none
       serverIndex := 2 } : ExpandedNodeId).encodeBinary [1, 2, 3] 3 = .fault ↔
      ({ nodeId := { namespaceIndex := 0, identifier := .numeric 7 }
         namespaceUri := none
         serverIndex := 2 } : ExpandedNodeId).flags ≠ 0 ∧ [(1 : UInt8), 2, 3].length ≤ 3 :=
  encode_faults_iff _ _ _ (by decide +kernel)

/-! ## Sizes -/

/-- The ids whose size is taken for that of a guid in bits. -/
def NodeId.guidIds (id : NodeId) : ℕ :=
  match id.identifier with
  | .guid _ => 1
  | _ => 0

mutual

/-- The guid node ids in a value. -/
def Value.guidIds : {t : DataType} → Value t → ℕ
  | _, .nodeId id => id.guidIds
  | _, .expandedNodeId id => id.nodeId.guidIds
  | _, .extensionObject e => e.typeId.guidIds
  | _, .dataValueOf v _ => v.guidIds
  | _, .scalar v => v.guidIds
  | _, .array vs _ => vs.guidIds
  | _, .record fs => fs.guidIds
  | _, .fixed _ => 0
  | _, .text _ => 0
  | _, .guid _ => 0
  | _, .qualifiedName _ => 0
  | _, .localizedText _ => 0
  | _, .dataValue _ => 0
  | _, .nullArray _ _ => 0
  | _, .diagnosticInfo _ _ => 0

def Values.guidIds : {t : DataType} → Values t → ℕ
  | _, .nil => 0
  | _, .cons v vs => v.guidIds + vs.guidIds

def Fields.guidIds : {ms : Members} → Fields ms → ℕ
  | _, .nil => 0
  | _, .single v fs => v.guidIds + fs.guidIds
  | _, .null fs => fs.guidIds
  | _, .array vs fs => vs.guidIds + fs.guidIds

end

/-- In a variant the id of the type takes four bytes. -/
def DataType.FourByte (t : DataType) : Prop :=
  t.isBuiltin = false → 256 < t.typeId + 2 ∧ t.typeId + 2 ≤ 65535

mutual

/-- The types in the variants of a value have ids of four bytes. -/
def Value.FourByte : {t : DataType} → Value t → Prop
  | _, .dataValueOf v _ => v.FourByte
  | _, @Value.scalar t v => t.FourByte ∧ v.FourByte
  | _, @Value.array t vs _ => t.FourByte ∧ vs.FourByte
  | _, .record fs => fs.FourByte
  | _, .fixed _ => True
  | _, .text _ => True
  | _, .guid _ => True
  | _, .nodeId _ => True
  | _, .expandedNodeId _ => True
  | _, .qualifiedName _ => True
  | _, .localizedText _ => True
  | _, .extensionObject _ => True
  | _, .dataValue _ => True
  | _, .nullArray _ _ => True
  | _, .diagnosticInfo _ _ => True

def Values.FourByte : {t : DataType} → Values t → Prop
  | _, .nil => True
  | _, .cons v vs => v.FourByte ∧ vs.FourByte

def Fields.FourByte : {ms : Members} → Fields ms → Prop
  | _, .nil => True
  | _, .single v fs => v.FourByte ∧ fs.FourByte
  | _, .null fs => fs.FourByte
  | _, .array vs fs => vs.FourByte ∧ fs.FourByte

end

theorem calcSize_text (s : Text) : s.calcSizeBinary = s.bytes.length := by
  rw [Text.calcSizeBinary, s.length_bytes]

theorem length_guid (g : Guid) : g.bytes.length = 16 := by
  simp [Guid.bytes, length_toBytes]

/-- A guid node id is taken for 131 bytes and has 19. -/
theorem calcSize_nodeId (id : NodeId) : id.calcSizeBinary = id.bytes.length + 112 * id.guidIds := by
  unfold NodeId.calcSizeBinary NodeId.bytes NodeId.body NodeId.guidIds
  cases id.identifier with
  | numeric value =>
      by_cases hlong : value > 65535 ∨ id.namespaceIndex > 256
      · simp [hlong, length_toBytes]
      · by_cases hfour : value > 256 ∨ id.namespaceIndex > 0
        · simp [hlong, hfour, length_toBytes]
        · simp [hlong, hfour, length_toBytes]
  | string value =>
      simp only [calcSize_text, List.length_cons, List.length_append, length_toBytes]
      omega
  | guid value =>
      simp only [length_guid, List.length_cons, List.length_append, length_toBytes]
  | byteString value =>
      simp only [calcSize_text, List.length_cons, List.length_append, length_toBytes]
      omega

theorem length_option {α : Type} {bytes : α → ByteString} {k : ℕ}
    (h : ∀ x, (bytes x).length = k) (x : Option α) :
    (optionBytes bytes x).length = if x.isSome then k else 0 := by
  cases x with
  | none => rfl
  | some x => exact h x

theorem calcSize_expandedNodeId (id : ExpandedNodeId) :
    id.calcSizeBinary = id.bytes.length + 112 * id.nodeId.guidIds := by
  have hid := calcSize_nodeId id.nodeId
  rw [NodeId.bytes, List.length_cons] at hid
  have hindex : (if id.serverIndex > 0 then toBytes 4 id.serverIndex.toNat else []).length =
      if id.serverIndex > 0 then 4 else 0 := by
    split
    · exact length_toBytes 4 _
    · rfl
  have huri : (if id.namespaceUri.hasData then id.namespaceUri.bytes else []).length =
      if id.namespaceUri.hasData then id.namespaceUri.calcSizeBinary else 0 := by
    rw [calcSize_text]
    split
    · rfl
    · rfl
  rw [ExpandedNodeId.calcSizeBinary, hid, ExpandedNodeId.bytes, List.length_cons,
    List.length_append, ExpandedNodeId.rest, List.length_append, hindex, huri]
  omega

theorem calcSize_localizedText (l : LocalizedText) : l.calcSizeBinary = l.bytes.length := by
  have htext : ∀ s : Text, (if s.hasData then s.calcSizeBinary else 0) =
      (if s.hasData then s.bytes else []).length := by
    intro s
    rw [calcSize_text]
    split
    · rfl
    · rfl
  rw [LocalizedText.calcSizeBinary, LocalizedText.bytes, List.length_cons, List.length_append,
    htext, htext]
  omega

theorem calcSize_extensionObject (e : ExtensionObject) :
    e.calcSizeBinary = e.bytes.length + 112 * e.typeId.guidIds := by
  rw [ExtensionObject.calcSizeBinary, ExtensionObject.bytes, calcSize_nodeId, List.length_append,
    List.length_cons]
  cases e.body with
  | none =>
      simp only [List.length_nil]
      omega
  | byteString body =>
      simp only [calcSize_text]
      omega
  | xml body =>
      simp only [calcSize_text]
      omega

theorem calcSize_stamps (s : Stamps) : s.calcSizeBinary = 1 + s.bytes.length := by
  have h4 : ∀ x : Option UInt32, (optionBytes (fun x => toBytes 4 x.toNat) x).length =
      if x.isSome then 4 else 0 := length_option fun x => length_toBytes 4 _
  have h8 : ∀ x : Option UInt64, (optionBytes (fun x => toBytes 8 x.toNat) x).length =
      if x.isSome then 8 else 0 := length_option fun x => length_toBytes 8 _
  have h2 : ∀ x : Option UInt16, (optionBytes (fun x => toBytes 2 x.toNat) x).length =
      if x.isSome then 2 else 0 := length_option fun x => length_toBytes 2 _
  simp only [Stamps.calcSizeBinary, Stamps.bytes, List.length_append, h4, h8, h2]
  omega

theorem calcSize_diagnostic (d : Diagnostic) (inner : List Diagnostic) :
    d.calcSizeBinary inner = (d.bytes inner).length := by
  have h4 : ∀ x : Option UInt32, (optionBytes (fun x => toBytes 4 x.toNat) x).length =
      if x.isSome then 4 else 0 := length_option fun x => length_toBytes 4 _
  have htext : ∀ x : Option Text, (optionBytes Text.bytes x).length =
      x.elim 0 Text.calcSizeBinary := by
    intro x
    cases x with
    | none => rfl
    | some s => exact (calcSize_text s).symm
  induction inner generalizing d with
  | nil =>
      simp only [Diagnostic.calcSizeBinary, Diagnostic.bytes, Diagnostic.fieldBytes,
        List.length_cons, List.length_append, h4, htext]
      omega
  | cons d' rest ih =>
      simp only [Diagnostic.calcSizeBinary, Diagnostic.bytes, Diagnostic.fieldBytes,
        List.length_cons, List.length_append, h4, htext, ih]
      omega

/-- The extension object around an element takes nine bytes. -/
theorem length_wrap {t : DataType} (ht : t.FourByte) (bs : ByteString) :
    (wrapBytes t bs).length = bs.length + if t.isBuiltin then 0 else 9 := by
  unfold wrapBytes
  cases hbuiltin : t.isBuiltin with
  | true => rfl
  | false =>
      rcases ht hbuiltin with ⟨hlow, hhigh⟩
      have hlong : ¬ (t.typeId + 2 > 65535 ∨ (0 : UInt16) > 256) := by
        rintro (h | h)
        · exact absurd hhigh (UInt32.not_le.2 h)
        · exact absurd h (by decide)
      have hfour : t.typeId + 2 > 256 ∨ (0 : UInt16) > 0 := Or.inl hlow
      have hid : (binaryTypeId t).bytes.length = 4 := by
        unfold NodeId.bytes NodeId.body binaryTypeId
        dsimp only
        split
        · exact absurd ‹_› hlong
        · simp only [List.length_cons, List.length_append, length_toBytes]
      simp only [Bool.false_eq_true, if_false, List.length_append, List.length_cons, hid,
        length_int32Bytes]
      omega

theorem length_dimensions (dims : Option (List (BitVec 32))) :
    (optionBytes dimensionBytes dims).length = dims.elim 0 fun dims => 4 + 4 * dims.length := by
  cases dims with
  | none => rfl
  | some ds =>
      have hlen : (dimensionBytes ds).length = 4 + 4 * ds.length := by
        rw [dimensionBytes, List.length_append, length_int32Bytes, length_words]
      exact hlen

theorem length_elements {t : DataType} (ht : t.FourByte) : (vs : Values t) →
    vs.elementBytes.length = vs.bytes.length + if t.isBuiltin then 0 else 9 * vs.length
  | .nil => by
      simp [Values.elementBytes, Values.bytes, Values.length]
  | .cons v vs => by
      have ih := length_elements ht vs
      rw [Values.elementBytes, Values.bytes, List.length_append, List.length_append,
        length_wrap ht, ih, Values.length]
      split
      · omega
      · omega

mutual

/-- The size of a value is the number of its bytes and 112 for every guid node id. -/
theorem calcSize_eq : {t : DataType} → (v : Value t) → v.FourByte →
    v.calcSizeBinary = v.bytes.length + 112 * v.guidIds
  | .fixed f, .fixed n, _ => by
      rw [Value.calcSizeBinary, Value.bytes, Value.guidIds, length_toBytes, Nat.mul_zero, Nat.add_zero]
  | _, .text s, _ => calcSize_text s
  | _, .guid g, _ => (length_guid g).symm
  | _, .nodeId id, _ => calcSize_nodeId id
  | _, .expandedNodeId id, _ => calcSize_expandedNodeId id
  | _, .qualifiedName q, _ => by
      rw [Value.calcSizeBinary, Value.bytes, Value.guidIds, QualifiedName.bytes,
        List.length_append, length_toBytes, calcSize_text, Nat.mul_zero, Nat.add_zero]
  | _, .localizedText l, _ => calcSize_localizedText l
  | _, .extensionObject e, _ => calcSize_extensionObject e
  | _, .dataValue s, _ => by
      rw [Value.calcSizeBinary, Value.bytes, Value.guidIds, calcSize_stamps, List.length_cons]
      omega
  | _, .dataValueOf v s, hv => by
      have h := calcSize_eq v hv
      rw [Value.calcSizeBinary, Value.bytes, Value.guidIds, calcSize_stamps, h, List.length_cons,
        List.length_append]
      omega
  | _, .scalar v, hv => by
      have h := calcSize_eq v hv.2
      rw [Value.calcSizeBinary, Value.bytes, Value.guidIds, h, List.length_cons, length_wrap hv.1]
      omega
  | _, .array vs dims, hv => by
      have h := calcSizes_eq vs hv.2
      rw [Value.calcSizeBinary, Value.bytes, Value.guidIds, h, List.length_cons, List.length_append,
        List.length_append, length_int32Bytes, length_elements hv.1, length_dimensions]
      omega
  | _, .nullArray t dims, _ => by
      rw [Value.calcSizeBinary, Value.bytes, Value.guidIds, List.length_cons, List.length_append,
        length_int32Bytes, length_dimensions]
      omega
  | _, .diagnosticInfo d inner, _ => calcSize_diagnostic d inner
  | _, .record fs, hv => calcFields_eq fs hv

theorem calcSizes_eq : {t : DataType} → (vs : Values t) → vs.FourByte →
    vs.calcSizeBinary = vs.bytes.length + 112 * vs.guidIds
  | _, .nil, _ => rfl
  | _, .cons v vs, hvs => by
      have h := calcSize_eq v hvs.1
      have hrest := calcSizes_eq vs hvs.2
      rw [Values.calcSizeBinary, Values.bytes, Values.guidIds, h, hrest, List.length_append]
      omega

theorem calcFields_eq : {ms : Members} → (fs : Fields ms) → fs.FourByte →
    fs.calcSizeBinary = fs.bytes.length + 112 * fs.guidIds
  | _, .nil, _ => rfl
  | _, .single v fs, hfs => by
      have h := calcSize_eq v hfs.1
      have hrest := calcFields_eq fs hfs.2
      rw [Fields.calcSizeBinary, Fields.bytes, Fields.guidIds, h, hrest, List.length_append]
      omega
  | _, .null fs, hfs => by
      have hrest := calcFields_eq fs hfs
      rw [Fields.calcSizeBinary, Fields.bytes, Fields.guidIds, hrest, List.length_append,
        length_int32Bytes]
      omega
  | _, .array vs fs, hfs => by
      have h := calcSizes_eq vs hfs.1
      have hrest := calcFields_eq fs hfs.2
      rw [Fields.calcSizeBinary, Fields.bytes, Fields.guidIds, h, hrest, List.length_append,
        List.length_append, length_int32Bytes]
      omega

end

/-- **Sizes.**  A buffer with as much room as the size of a value says is enough for its encoder,
which leaves 112 bytes for every guid node id. -/
theorem calcSize_suffices {t : DataType} (v : Value t) (hv : v.FourByte) (buf : ByteString)
    (offset : ℕ) (hroom : offset + v.calcSizeBinary ≤ buf.length)
    (hlim : buf.length + v.calcSizeBinary < 2 ^ 31) :
    ∃ buf' offset', v.encodeBinary buf offset = .good buf' offset' ∧
      offset' + 112 * v.guidIds = offset + v.calcSizeBinary ∧ buf'.length = buf.length ∧
        buf'.take offset = buf.take offset := by
  have hsize := calcSize_eq v hv
  have hlimit : buf.length + v.bytes.length < offsetLimit :=
    Nat.lt_of_le_of_lt (Nat.add_le_add_left (by omega) _) hlim
  rcases (encodes v).writes.of_le (by omega : offset + v.bytes.length ≤ buf.length) hlimit with
    ⟨buf', hgood, hlen, htake⟩
  exact ⟨buf', offset + v.bytes.length, hgood, by omega, hlen, htake⟩

theorem calcSize_suffices_serverIds :
    ∃ buf' offset', serverIds.encodeBinary (List.replicate 40 0) 5 = .good buf' offset' ∧
      offset' + 112 * serverIds.guidIds = 5 + serverIds.calcSizeBinary ∧
        buf'.length = (List.replicate 40 (0 : UInt8)).length ∧
          buf'.take 5 = (List.replicate 40 0).take 5 :=
  calcSize_suffices serverIds ⟨fun h => Bool.noConfusion h, trivial, trivial⟩
    (List.replicate 40 0) 5 (by decide +kernel) (by decide +kernel)

end Encoding

end ForteOpcUa
