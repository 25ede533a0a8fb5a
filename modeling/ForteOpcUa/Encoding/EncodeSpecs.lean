import ForteOpcUa.Encoding.WireFormat

/-!
# EncodeSpecs — the encoders write the wire format

`encodes`: where there is room the encoder of a value writes its bytes and nothing else; where there
is none, the encoder of a plain value refuses and stays inside the buffer.  One lemma for each
encoder, then induction over the value.
-/

namespace ForteOpcUa

namespace Encoding

open Memory Serial

/-- Below this limit an offset does not wrap as `UA_Int32`. -/
def offsetLimit : ℕ :=
  2 ^ 31

theorem lt_offsetLimit {n : ℕ} (h : n < offsetLimit) : n < 2 ^ 31 :=
  h

theorem length_toBytes (k n : ℕ) : (toBytes k n).length = k := by
  induction k generalizing n with
  | zero => rfl
  | succ k ih => rw [toBytes, List.length_cons, ih]

theorem int32_natCast {n : ℕ} (h : n < 2 ^ 31) : int32 (n : ℤ) = n :=
  int32_eq (by omega) (by omega)

theorem toBytes_one (b : UInt8) : toBytes 1 b.toNat = [b] := by
  simp [toBytes]

/-! ## Integers -/

/-- Where there is room, the copy is made. -/
theorem copyIn_eq {pre mid post bs : ByteString} (hlen : mid.length = bs.length) :
    copyIn bs (pre ++ (mid ++ post)) pre.length =
      .good (pre ++ (bs ++ post)) (pre.length + bs.length) := by
  rw [copyIn, store_append pre mid post bs hlen]

theorem encodes_integer {p : Prop} {k : ℕ} (hk : 0 < k) (n : ℕ) :
    Encodes offsetLimit p (encodeInteger k n) (toBytes k n) where
  writes := by
    intro pre mid post hlen hlim
    have hk' := length_toBytes k n
    have hlim := lt_offsetLimit hlim
    simp only [List.length_append] at hlim
    have hno : ¬ ((pre ++ (mid ++ post)).length : ℤ) < int32 (pre.length + k : ℕ) := by
      rw [int32_natCast (by omega)]
      simp only [List.length_append]
      omega
    rw [encodeInteger, if_neg hno]
    exact copyIn_eq hlen
  refuses := by
    intro _ _ buf offset hno hlim
    have hk' := length_toBytes k n
    have hlim := lt_offsetLimit hlim
    have hbad : (buf.length : ℤ) < int32 (offset + k : ℕ) := by
      rw [int32_natCast (by omega)]
      omega
    exact ⟨StatusCode.badEncodingError, buf, offset, if_pos hbad, rfl, rfl, Nat.le_refl _,
      by omega⟩
  idle := by
    intro _ hnil
    have hlen := length_toBytes k n
    rw [hnil, List.length_nil] at hlen
    omega

section Integers

variable {p : Prop}

theorem encodes_byte (x : UInt8) : Encodes offsetLimit p (Byte.encodeBinary x) [x] := by
  rw [← toBytes_one]
  exact encodes_integer (by decide) _

theorem encodes_uInt16 (x : UInt16) :
    Encodes offsetLimit p (UInt16.encodeBinary x) (toBytes 2 x.toNat) :=
  encodes_integer (by decide) _

theorem encodes_uInt32 (x : UInt32) :
    Encodes offsetLimit p (UInt32.encodeBinary x) (toBytes 4 x.toNat) :=
  encodes_integer (by decide) _

theorem encodes_uInt64 (x : UInt64) :
    Encodes offsetLimit p (UInt64.encodeBinary x) (toBytes 8 x.toNat) :=
  encodes_integer (by decide) _

theorem encodes_int32 (x : ℤ) : Encodes offsetLimit p (Int32.encodeBinary x) (int32Bytes x) :=
  encodes_integer (by decide) _

end Integers

theorem length_int32Bytes (x : ℤ) : (int32Bytes x).length = 4 :=
  length_toBytes 4 _

/-! ## Texts and blocks -/

section Builtin

variable {p : Prop}

theorem Text.length_bytes (s : Text) : s.bytes.length = 4 + s.data.length := by
  rw [Text.bytes, List.length_append, length_int32Bytes]

/-- Without data nothing is copied. -/
theorem Text.data_eq_nil {s : Text} (h : s.hasData = false) : s.data = [] := by
  match s with
  | none => rfl
  | some [] => rfl
  | some (_ :: _) => cases h

theorem Text.length_eq {s : Text} (h : s.hasData = true) : s.length = s.data.length := by
  match s with
  | none => cases h
  | some [] => rfl
  | some (_ :: _) => rfl

/-- The end that is compared with the length of the buffer. -/
theorem Text.stop_eq {s : Text} {offset : ℕ} (hlim : offset + s.bytes.length < 2 ^ 31) :
    (if s.hasData then int32 (int32 (offset + 4 : ℕ) + s.length) else int32 (offset + 4 : ℕ)) =
      (offset + s.bytes.length : ℕ) := by
  rw [s.length_bytes] at hlim ⊢
  rw [int32_natCast (by omega)]
  cases hdata : s.hasData with
  | false => simp [s.data_eq_nil hdata]
  | true =>
      rw [if_pos rfl, s.length_eq hdata, ← Nat.cast_add, int32_natCast (by omega)]
      congr 1
      omega

theorem encodes_text (s : Text) : Encodes offsetLimit p s.encodeBinary s.bytes where
  writes := by
    intro pre mid post hlen hlim
    -- Within the room that was checked, both parts are copied.
    have hcopy : Writes offsetLimit (copyIn s.data) s.data := fun pre mid post hlen _ =>
      copyIn_eq hlen
    have hboth := (@encodes_int32 True s.length).writes.also hcopy pre mid post hlen hlim
    have hlim := lt_offsetLimit hlim
    simp only [List.length_append] at hlim
    have hno : ¬ ((pre ++ (mid ++ post)).length : ℤ) < (pre.length + s.bytes.length : ℕ) := by
      simp only [List.length_append]
      omega
    simp only [Text.encodeBinary, Text.stop_eq (by omega : pre.length + s.bytes.length < 2 ^ 31)]
    rw [if_neg hno]
    exact hboth
  refuses := by
    intro _ _ buf offset hno hlim
    have hlim := lt_offsetLimit hlim
    have hbad : (buf.length : ℤ) < (offset + s.bytes.length : ℕ) := by omega
    refine ⟨StatusCode.badEncodingError, buf, offset, ?_, rfl, rfl, Nat.le_refl _, by omega⟩
    simp only [Text.encodeBinary, Text.stop_eq (by omega : offset + s.bytes.length < 2 ^ 31)]
    rw [if_pos hbad]
  idle := by
    intro _ hnil
    have hlen := s.length_bytes
    rw [hnil, List.length_nil] at hlen
    omega

theorem encodes_block (bs : ByteString) : Encodes offsetLimit p (encodeBlock bs) bs where
  writes := by
    intro pre mid post hlen _
    unfold encodeBlock
    by_cases hnil : bs = []
    · rw [if_pos hnil]
      subst hnil
      rw [List.length_eq_zero_iff.1 hlen]
      rfl
    · have hroom : ¬ (pre ++ (mid ++ post)).length < pre.length + bs.length := by
        simp only [List.length_append]
        omega
      rw [if_neg hnil, if_neg hroom]
      exact copyIn_eq hlen
  refuses := by
    intro _ hne buf offset hno _
    refine ⟨StatusCode.badEncodingError, buf, offset, ?_, rfl, rfl, Nat.le_refl _, by omega⟩
    rw [encodeBlock, if_neg hne, if_pos hno]
  idle := by
    intro _ hnil buf offset
    rw [encodeBlock, if_pos hnil]

/-- A text is encoded alike on both ways. -/
theorem encodes_byteArray (s : Text) : Encodes offsetLimit p (encodeByteArray s) s.bytes :=
  (encodes_int32 _).andThen (encodes_block _)

theorem encodes_dimensions (dims : List (BitVec 32)) :
    Encodes offsetLimit p (encodeDimensions dims) (dimensionBytes dims) :=
  (encodes_int32 _).andThen (encodes_block _)

theorem encodes_bytes (bs : ByteString) : Encodes offsetLimit p (encodeBytes bs) bs := by
  induction bs with
  | nil => exact Encodes.nothing
  | cons b bs ih => exact (encodes_byte b).also ih

theorem encodes_option {α : Type} {encode : α → Encoder} {bytes : α → ByteString}
    (h : ∀ x, Encodes offsetLimit p (encode x) (bytes x)) (x : Option α) :
    Encodes offsetLimit p (encodeOption encode x) (optionBytes bytes x) := by
  cases x with
  | none => exact Encodes.nothing
  | some x => exact h x

/-! ## Node ids -/

theorem encodes_guid (g : Guid) : Encodes offsetLimit p g.encodeBinary g.bytes :=
  (encodes_uInt32 _).also ((encodes_uInt16 _).also ((encodes_uInt16 _).also (encodes_bytes _)))

theorem encodes_nodeId (id : NodeId) : Encodes offsetLimit p id.encodeBinary id.bytes := by
  unfold NodeId.encodeBinary NodeId.bytes NodeId.encodingByte NodeId.body
  cases id.identifier with
  | numeric value =>
      by_cases hlong : value > 65535 ∨ id.namespaceIndex > 256
      · simp only [if_pos hlong]
        exact (encodes_byte 2).also ((encodes_uInt16 _).also (encodes_uInt32 _))
      · by_cases hfour : value > 256 ∨ id.namespaceIndex > 0
        · simp only [if_neg hlong, if_pos hfour, toBytes_one]
          exact (encodes_byte 1).also ((encodes_byte _).also (encodes_uInt16 _))
        · simp only [if_neg hlong, if_neg hfour, toBytes_one]
          exact (encodes_byte 0).also (encodes_byte _)
  | string value => exact (encodes_byte 3).also ((encodes_uInt16 _).also (encodes_text _))
  | guid value => exact (encodes_byte 4).also ((encodes_uInt16 _).also (encodes_guid _))
  | byteString value => exact (encodes_byte 5).also ((encodes_uInt16 _).also (encodes_text _))

namespace ExpandedNodeId

/-- The encoders of the fields, before the flags are set. -/
theorem encodes_fields (id : ExpandedNodeId) :
    Encodes offsetLimit p (id.nodeId.encodeBinary.also <|
        (Writer.when id.namespaceUri.hasData id.namespaceUri.encodeBinary).also
          (Writer.when (id.serverIndex > 0) (UInt32.encodeBinary id.serverIndex)))
      (id.nodeId.encodingByte :: (id.nodeId.body ++ id.rest)) := by
  have hrest := ((encodes_text (p := p) id.namespaceUri).when id.namespaceUri.hasData).also
    ((encodes_uInt32 (p := p) id.serverIndex).when (decide (id.serverIndex > 0)))
  have hall := (encodes_nodeId (p := p) id.nodeId).also hrest
  simp only [decide_eq_true_eq] at hall
  exact hall

theorem orAt_append (pre rest : ByteString) (b flags : UInt8) :
    orAt (pre ++ (b :: rest)) pre.length flags = some (pre ++ ((b ||| flags) :: rest)) := by
  have hat : (pre ++ (b :: rest))[pre.length]? = some b := by simp
  rw [orAt, hat]
  simp

end ExpandedNodeId

theorem encodes_expandedNodeId (id : ExpandedNodeId) :
    Encodes offsetLimit (id.flags = 0) id.encodeBinary id.bytes where
  writes := by
    intro pre mid post hlen hlim
    have hfields := (@ExpandedNodeId.encodes_fields True id).writes pre mid post hlen hlim
    have hlim := lt_offsetLimit hlim
    simp only [List.length_append] at hlim
    have hstart : u32 (pre.length : ℤ) = pre.length := u32_eq (by omega)
    simp only [ExpandedNodeId.encodeBinary, hfields, hstart, List.cons_append]
    by_cases hflags : id.flags = 0
    · simp only [ExpandedNodeId.bytes, hflags, UInt8.or_zero]
      rfl
    · simp only [if_neg hflags, ExpandedNodeId.orAt_append]
      rfl
  refuses := by
    intro hflags _ buf offset hno hlim
    have hlen : id.bytes.length =
        (id.nodeId.encodingByte :: (id.nodeId.body ++ id.rest)).length := rfl
    rw [hlen] at hno hlim ⊢
    rcases (@ExpandedNodeId.encodes_fields True id).refuses trivial (by simp) buf offset hno hlim with
      ⟨status, buf', offset', hw, hrest⟩
    refine ⟨status, buf', offset', ?_, hrest⟩
    simp only [ExpandedNodeId.encodeBinary, hw, if_pos hflags]
  idle := by
    intro _ hnil
    cases hnil

/-! ## The other builtin types -/

theorem encodes_localizedText (l : LocalizedText) :
    Encodes offsetLimit p l.encodeBinary l.bytes :=
  (encodes_byte _).also (((encodes_text _).when _).also ((encodes_text _).when _))

theorem encodes_extensionObject (e : ExtensionObject) :
    Encodes offsetLimit p e.encodeBinary e.bytes := by
  unfold ExtensionObject.encodeBinary ExtensionObject.bytes
  refine (encodes_nodeId _).also ((encodes_byte _).also ?_)
  cases e.body with
  | none => exact Encodes.nothing
  | byteString body => exact encodes_text body
  | xml body => exact encodes_text body

theorem encodes_stamps (s : Stamps) : Encodes offsetLimit p s.encodeBinary s.bytes :=
  (encodes_option encodes_uInt32 _).also <| (encodes_option encodes_uInt64 _).also <|
    (encodes_option encodes_uInt16 _).also <| (encodes_option encodes_uInt64 _).also
      (encodes_option encodes_uInt16 _)

theorem encodes_diagnosticFields (d : Diagnostic) :
    Encodes offsetLimit p d.encodeFields d.fieldBytes :=
  (encodes_option encodes_uInt32 _).also <| (encodes_option encodes_uInt32 _).also <|
    (encodes_option encodes_uInt32 _).also <| (encodes_option encodes_uInt32 _).also <|
      (encodes_option encodes_text _).also (encodes_option encodes_uInt32 _)

theorem encodes_diagnosticInfo (d : Diagnostic) (inner : List Diagnostic) :
    Encodes offsetLimit p (d.encodeBinary inner) (d.bytes inner) := by
  induction inner generalizing d with
  | nil => exact (encodes_byte _).also (encodes_diagnosticFields d)
  | cons d' rest ih => exact (encodes_byte _).also ((encodes_diagnosticFields d).also (ih d'))

/-! ## Values -/

theorem encodes_wrap {t : DataType} {w : Encoder} {bs : ByteString}
    (h : Encodes offsetLimit p w bs) :
    Encodes offsetLimit p (wrapElement t w) (wrapBytes t bs) := by
  unfold wrapElement wrapBytes
  cases hbuiltin : t.isBuiltin with
  | true =>
      rw [if_pos rfl, if_pos rfl]
      exact h
  | false =>
      rw [if_neg Bool.false_ne_true, if_neg Bool.false_ne_true]
      have hframed : Encodes offsetLimit p
          (Writer.framed 4 w fun n => Int32.encodeBinary n) (int32Bytes bs.length ++ bs) :=
        Encodes.framed (by decide : 0 < 4) h (fun n => encodes_int32 (n : ℤ))
          (fun n => length_int32Bytes n)
      exact (encodes_nodeId (binaryTypeId t)).also ((encodes_byte 1).also hframed)

/-- The memory of an array is what its elements encode to. -/
theorem memory_eq_bytes {f : Fixed} : (vs : Values (.fixed f)) → vs.memory = vs.bytes
  | .nil => by simp only [Values.memory, Values.bytes]
  | .cons (.fixed n) vs => by
      simp only [Values.memory, Values.bytes, Value.bytes, memory_eq_bytes vs]

theorem encodes_array {t : DataType} (vs : Values t) {loop : Encoder}
    (h : Encodes offsetLimit p loop vs.bytes) :
    Encodes offsetLimit p (encodeArray vs loop) (int32Bytes vs.length ++ vs.bytes) := by
  have hloop := (encodes_int32 (p := p) vs.length).andThen h
  cases t with
  | fixed f =>
      have hblock := encodes_block (p := p) vs.memory
      have harray : encodeArray vs loop =
          (Int32.encodeBinary vs.length).andThen (encodeBlock vs.memory) := rfl
      rw [harray, ← memory_eq_bytes vs]
      exact (encodes_int32 vs.length).andThen hblock
  | _ => exact hloop

end Builtin

mutual

/-- **Encoding.**  The encoder of a value writes its bytes. -/
theorem encodes : {t : DataType} → (v : Value t) →
    Encodes offsetLimit v.Plain v.encodeBinary v.bytes
  | .fixed f, .fixed n => by
      simp only [Value.encodeBinary, Value.bytes]
      exact encodes_integer (by cases f <;> decide) _
  | _, .text s => encodes_byteArray s
  | _, .guid g => encodes_guid g
  | _, .nodeId id => encodes_nodeId id
  | _, .expandedNodeId id => encodes_expandedNodeId id
  | _, .qualifiedName q => (encodes_uInt16 _).andThen (encodes_byteArray _)
  | _, .localizedText l => encodes_localizedText l
  | _, .extensionObject e => encodes_extensionObject e
  | _, .dataValue s => (encodes_byte _).also (encodes_stamps s)
  | _, .dataValueOf v s => (encodes_byte _).also ((encodes v).also (encodes_stamps s))
  | _, .scalar v => (encodes_byte _).also (encodes_wrap (encodes v))
  | _, .array vs dims =>
      (encodes_byte _).also ((encodes_int32 _).also ((encodes_elements vs).also
        (encodes_option encodes_dimensions dims)))
  | _, .nullArray t dims =>
      (encodes_byte _).also ((encodes_int32 _).also (encodes_option encodes_dimensions dims))
  | _, .diagnosticInfo d inner => encodes_diagnosticInfo d inner
  | _, .record fs => encodes_fields fs

theorem encodes_loop : {t : DataType} → (vs : Values t) →
    Encodes offsetLimit vs.Plain vs.encodeLoop vs.bytes
  | _, .nil => Encodes.nothing
  | _, .cons v vs => ((encodes v).mono And.left).andThen ((encodes_loop vs).mono And.right)

theorem encodes_elements : {t : DataType} → (vs : Values t) →
    Encodes offsetLimit vs.Plain vs.encodeElements vs.elementBytes
  | _, .nil => Encodes.nothing
  | _, .cons v vs =>
      (encodes_wrap ((encodes v).mono And.left)).also ((encodes_elements vs).mono And.right)

theorem encodes_fields : {ms : Members} → (fs : Fields ms) →
    Encodes offsetLimit fs.Plain fs.encodeBinary fs.bytes
  | _, .nil => Encodes.nothing
  | _, .single v fs => ((encodes v).mono And.left).andThen ((encodes_fields fs).mono And.right)
  | _, .null fs => (encodes_int32 _).andThen (encodes_fields fs)
  | _, .array vs fs =>
      (encodes_array vs ((encodes_loop vs).mono And.left)).andThen
        ((encodes_fields fs).mono And.right)

end

end Encoding

end ForteOpcUa
