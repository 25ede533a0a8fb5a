import ForteOpcUa.Encoding.Builtin

/-!
# Structured — encoders and decoders of values of any type

`UA_encodeBinary`, `UA_decodeBinary` and `UA_calcSizeBinary`, with the arrays, variants and data
values they call each other for.

Variants nest.  A decoder of variants is given how deep it may go; every level has read a byte, so
that the length of the buffer is deep enough.
-/

namespace ForteOpcUa

namespace Encoding

open Memory Serial

/-! ## Arrays -/

/-- `memcpy` of an array, after a look at the length of the buffer. -/
def encodeBlock (bs : ByteString) : Encoder := fun dst offset =>
  if bs = [] then .good dst offset
  else if dst.length < offset + bs.length then .bad StatusCode.badEncodingError dst offset
  else copyIn bs dst offset

/-- The same for reading. -/
def decodeBlock (k : ℕ) : Decoder ByteString := fun src offset =>
  if src.length < offset + k then .bad StatusCode.badDecodingError offset
  else copyOut k src offset

/-- Elements as they lie in memory. -/
def Values.memory {f : Fixed} : Values (.fixed f) → ByteString
  | .nil => []
  | .cons (.fixed n) vs => toBytes f.size n.toNat ++ vs.memory

/-- `UA_Array_encodeBinary`, given the loop over the elements. -/
def encodeArray : {t : DataType} → Values t → Encoder → Encoder
  | .fixed _, vs, _ => (Int32.encodeBinary vs.length).andThen (encodeBlock vs.memory)
  | _, vs, loop => (Int32.encodeBinary vs.length).andThen loop

/-- `UA_Array_encodeBinary` of the bytes of a text, which is how a structured type encodes it. -/
def encodeByteArray (s : Text) : Encoder :=
  (Int32.encodeBinary s.length).andThen (encodeBlock s.data)

/-- `UA_Array_encodeBinary` of array dimensions. -/
def encodeDimensions (dims : List (BitVec 32)) : Encoder :=
  (Int32.encodeBinary dims.length).andThen
    (encodeBlock (dims.flatMap fun d => toBytes 4 d.toNat))

/-- `UA_Array_decodeBinary`, given the loop over the elements: the memory is bounded, and an array
that needs more than 32 times the bytes that are left is refused. -/
def decodeAllocated {α : Type} (heap : Heap) (size : ℕ) (elements : Decoder α) : Decoder α :=
  fun src offset =>
    if 104857600 < size then .bad StatusCode.badOutOfMemory offset
    else if src.length < offset + size / 32 then .bad StatusCode.badDecodingError offset
    else if heap size then elements src offset
    else .bad StatusCode.badOutOfMemory offset

/-- `UA_Array_decodeBinary`: a count that is not positive allocates nothing. -/
def decodeArray {α : Type} (heap : Heap) (memSize : ℕ) (n : ℤ) (empty : α)
    (elements : ℕ → Decoder α) : Decoder (Option α) :=
  if n < 0 then Reader.yield none
  else if n = 0 then Reader.yield (some empty)
  else (decodeAllocated heap (memSize * n.toNat) (elements n.toNat)).map some

/-- Elements from their memory. -/
def fixedValues (f : Fixed) : ℕ → ByteString → Values (.fixed f)
  | 0, _ => .nil
  | n + 1, bs =>
      .cons (.fixed (BitVec.ofNat _ (ofBytes (bs.take f.size))))
        (fixedValues f n (bs.drop f.size))

/-- The loop over the elements. -/
def decodeLoop {t : DataType} (element : Decoder (Value t)) : ℕ → Decoder (Values t)
  | 0 => Reader.yield .nil
  | n + 1 => element.andThen fun v => (decodeLoop element n).map (.cons v)

/-- The elements: as a block, or in a loop. -/
def decodeElements : (t : DataType) → Decoder (Value t) → ℕ → Decoder (Values t)
  | .fixed f, _, n => (decodeBlock (f.size * n)).map (fixedValues f n)
  | _, element, n => decodeLoop element n

/-- A single element, which is an array of one for the decoder. -/
def decodeElement : (t : DataType) → Decoder (Value t) → Decoder (Value t)
  | .fixed f, _ => (decodeBlock f.size).map fun bs => .fixed (BitVec.ofNat _ (ofBytes bs))
  | _, element => element

/-- The bytes of a text, as a structured type has them. -/
def decodeByteArray (heap : Heap) : Decoder Text :=
  Int32.decodeBinary.andThen fun n => decodeArray heap 1 n [] decodeBlock

/-- Numbers of four bytes from their memory. -/
def words : ℕ → ByteString → List (BitVec 32)
  | 0, _ => []
  | n + 1, bs => BitVec.ofNat 32 (ofBytes (bs.take 4)) :: words n (bs.drop 4)

/-- Array dimensions: none at all is the null pointer. -/
def decodeDimensions (heap : Heap) : Decoder (Option (List (BitVec 32))) :=
  Int32.decodeBinary.andThen fun n =>
    (decodeArray heap 4 n [] fun k => (decodeBlock (4 * k)).map (words k)).map
      (Option.filter fun dims => dims ≠ [])

/-! ## Data values and diagnostic infos -/

/-- A field that is there. -/
def encodeOption {α : Type} (encode : α → Encoder) : Option α → Encoder
  | none => Writer.nothing
  | some x => encode x

/-- `MAX_PICO_SECONDS`, compared as a signed number. -/
def clampPicoseconds (x : UInt16) : UInt16 :=
  if 1000 < x ∧ x < 0x8000 then 1000 else x

namespace Stamps

/-- The flags of a data value. -/
def flags (s : Stamps) (hasValue : Bool) : UInt8 :=
  (if hasValue then 0x01 else 0) ||| (if s.status.isSome then 0x02 else 0) |||
    (if s.sourceTimestamp.isSome then 0x04 else 0) |||
      (if s.serverTimestamp.isSome then 0x08 else 0) |||
        (if s.sourcePicoseconds.isSome then 0x10 else 0) |||
          (if s.serverPicoseconds.isSome then 0x20 else 0)

/-- `UA_DataValue_encodeBinary` behind the variant. -/
def encodeBinary (s : Stamps) : Encoder :=
  (encodeOption UInt32.encodeBinary s.status).also <|
    (encodeOption UInt64.encodeBinary s.sourceTimestamp).also <|
      (encodeOption UInt16.encodeBinary s.sourcePicoseconds).also <|
        (encodeOption UInt64.encodeBinary s.serverTimestamp).also
          (encodeOption UInt16.encodeBinary s.serverPicoseconds)

/-- `UA_DataValue_decodeBinary` behind the variant. -/
def decodeBinary (flags : UInt8) : Decoder Stamps :=
  ((Reader.when (flags &&& 0x02 ≠ 0) UInt32.decodeBinary).also <|
    (Reader.when (flags &&& 0x04 ≠ 0) UInt64.decodeBinary).also <|
      (Reader.when (flags &&& 0x10 ≠ 0) UInt16.decodeBinary).also <|
        (Reader.when (flags &&& 0x08 ≠ 0) UInt64.decodeBinary).also
          (Reader.when (flags &&& 0x20 ≠ 0) UInt16.decodeBinary)).map fun r =>
            { status := r.1
              sourceTimestamp := r.2.1
              sourcePicoseconds := r.2.2.1.map clampPicoseconds
              serverTimestamp := r.2.2.2.1
              serverPicoseconds := r.2.2.2.2.map clampPicoseconds }

/-- `UA_DataValue_calcSizeBinary` without the variant. -/
def calcSizeBinary (s : Stamps) : ℕ :=
  1 + (if s.status.isSome then 4 else 0) + (if s.sourceTimestamp.isSome then 8 else 0) +
    (if s.sourcePicoseconds.isSome then 2 else 0) + (if s.serverTimestamp.isSome then 8 else 0) +
      (if s.serverPicoseconds.isSome then 2 else 0)

end Stamps

namespace Diagnostic

/-- The flags of a diagnostic info. -/
def flags (d : Diagnostic) (hasInner : Bool) : UInt8 :=
  (if d.symbolicId.isSome then 0x01 else 0) ||| (if d.namespaceUri.isSome then 0x02 else 0) |||
    (if d.localizedText.isSome then 0x04 else 0) ||| (if d.locale.isSome then 0x08 else 0) |||
      (if d.additionalInfo.isSome then 0x10 else 0) |||
        (if d.innerStatusCode.isSome then 0x20 else 0) ||| (if hasInner then 0x40 else 0)

/-- The fields of a diagnostic info, without the inner one. -/
def encodeFields (d : Diagnostic) : Encoder :=
  (encodeOption UInt32.encodeBinary d.symbolicId).also <|
    (encodeOption UInt32.encodeBinary d.namespaceUri).also <|
      (encodeOption UInt32.encodeBinary d.localizedText).also <|
        (encodeOption UInt32.encodeBinary d.locale).also <|
          (encodeOption Text.encodeBinary d.additionalInfo).also
            (encodeOption UInt32.encodeBinary d.innerStatusCode)

/-- `UA_DiagnosticInfo_encodeBinary`. -/
def encodeBinary : Diagnostic → List Diagnostic → Encoder
  | d, [] => (Byte.encodeBinary (d.flags false)).also d.encodeFields
  | d, inner :: rest =>
      (Byte.encodeBinary (d.flags true)).also (d.encodeFields.also (encodeBinary inner rest))

/-- The fields that the flags announce. -/
def decodeFields (heap : Heap) (flags : UInt8) : Decoder Diagnostic :=
  ((Reader.when (flags &&& 0x01 ≠ 0) UInt32.decodeBinary).also <|
    (Reader.when (flags &&& 0x02 ≠ 0) UInt32.decodeBinary).also <|
      (Reader.when (flags &&& 0x04 ≠ 0) UInt32.decodeBinary).also <|
        (Reader.when (flags &&& 0x08 ≠ 0) UInt32.decodeBinary).also <|
          (Reader.when (flags &&& 0x10 ≠ 0) (Text.decodeBinary heap)).also
            (Reader.when (flags &&& 0x20 ≠ 0) UInt32.decodeBinary)).map fun r =>
              { symbolicId := r.1
                namespaceUri := r.2.1
                localizedText := r.2.2.1
                locale := r.2.2.2.1
                additionalInfo := r.2.2.2.2.1
                innerStatusCode := r.2.2.2.2.2 }

/-- The inner diagnostic info: without memory, or when it cannot be decoded, another status. -/
def decodeInner (heap : Heap) (inner : Decoder (Diagnostic × List Diagnostic)) :
    Decoder (Diagnostic × List Diagnostic) := fun src offset =>
  if heap 56 then
    inner.orRefuse StatusCode.badInternalError src offset
  else
    .bad StatusCode.badOutOfMemory offset

/-- `UA_DiagnosticInfo_decodeBinary`, so deep at most. -/
def decodeBinary (heap : Heap) : ℕ → Decoder (Diagnostic × List Diagnostic)
  | 0 => fun _ _ => .fault
  | depth + 1 =>
      Byte.decodeBinary.andThen fun flags =>
        ((decodeFields heap flags).also
          (Reader.when (flags &&& 0x40 ≠ 0) (decodeInner heap (decodeBinary heap depth)))).map
            fun r => (r.1, r.2.elim [] fun inner => inner.1 :: inner.2)

/-- `UA_DiagnosticInfo_calcSizeBinary`. -/
def calcSizeBinary : Diagnostic → List Diagnostic → ℕ
  | d, inner =>
      1 + (if d.symbolicId.isSome then 4 else 0) + (if d.namespaceUri.isSome then 4 else 0) +
        (if d.localizedText.isSome then 4 else 0) + (if d.locale.isSome then 4 else 0) +
          (d.additionalInfo.elim 0 Text.calcSizeBinary) +
            (if d.innerStatusCode.isSome then 4 else 0) +
              match inner with
              | [] => 0
              | d' :: rest => calcSizeBinary d' rest

end Diagnostic

/-! ## Encoders -/

/-- The type ids of the binary encodings are two above those of the types. -/
def binaryTypeId (t : DataType) : NodeId :=
  { namespaceIndex := 0, identifier := .numeric (t.typeId + 2) }

/-- An element of a variant: what is not builtin is wrapped in an extension object. -/
def wrapElement (t : DataType) (element : Encoder) : Encoder :=
  if t.isBuiltin then
    element
  else
    (binaryTypeId t).encodeBinary.also <| (Byte.encodeBinary 1).also <|
      Writer.framed 4 element fun n => Int32.encodeBinary n

/-- The encoding byte of a variant. -/
def variantByte (t : DataType) (isArray hasDimensions : Bool) : UInt8 :=
  (0x3f &&& if t.isBuiltin then t.typeId.toUInt8 else 22) |||
    (if isArray then 0x80 else 0) ||| (if isArray && hasDimensions then 0x40 else 0)

mutual

/-- `UA_encodeBinary`. -/
def Value.encodeBinary : {t : DataType} → Value t → Encoder
  | .fixed f, .fixed n => encodeInteger f.size n.toNat
  | _, .text s => encodeByteArray s
  | _, .guid g => g.encodeBinary
  | _, .nodeId id => id.encodeBinary
  | _, .expandedNodeId id => id.encodeBinary
  | _, .qualifiedName q => (UInt16.encodeBinary q.namespaceIndex).andThen (encodeByteArray q.name)
  | _, .localizedText l => l.encodeBinary
  | _, .extensionObject e => e.encodeBinary
  | _, .dataValue s => (Byte.encodeBinary (s.flags false)).also s.encodeBinary
  | _, .dataValueOf v s =>
      (Byte.encodeBinary (s.flags true)).also (v.encodeBinary.also s.encodeBinary)
  | _, @Value.scalar t v =>
      (Byte.encodeBinary (variantByte t false false)).also (wrapElement t v.encodeBinary)
  | _, @Value.array t vs dims =>
      (Byte.encodeBinary (variantByte t true dims.isSome)).also <|
        (Int32.encodeBinary vs.length).also <| vs.encodeElements.also
          (encodeOption encodeDimensions dims)
  | _, .nullArray t dims =>
      (Byte.encodeBinary (variantByte t true dims.isSome)).also <|
        (Int32.encodeBinary (-1)).also (encodeOption encodeDimensions dims)
  | _, .diagnosticInfo d inner => d.encodeBinary inner
  | _, .record fs => fs.encodeBinary

/-- The loop of `UA_Array_encodeBinary`, which stops when an element is refused. -/
def Values.encodeLoop : {t : DataType} → Values t → Encoder
  | _, .nil => Writer.nothing
  | _, .cons v vs => v.encodeBinary.andThen vs.encodeLoop

/-- The loop of `UA_Variant_encodeBinary`, which goes on. -/
def Values.encodeElements : {t : DataType} → Values t → Encoder
  | _, .nil => Writer.nothing
  | _, @Values.cons t v vs => (wrapElement t v.encodeBinary).also vs.encodeElements

/-- The loop of `UA_encodeBinary` over the members, which stops. -/
def Fields.encodeBinary : {ms : Members} → Fields ms → Encoder
  | _, .nil => Writer.nothing
  | _, .single v fs => v.encodeBinary.andThen fs.encodeBinary
  | _, .null fs => (Int32.encodeBinary (-1)).andThen fs.encodeBinary
  | _, .array vs fs => (encodeArray vs vs.encodeLoop).andThen fs.encodeBinary

end

/-! ## Decoders -/

/-- The table `UA_TYPES`, and the memory. -/
structure Environment where
  types : List DataType
  heap : Heap

/-- The loop over `UA_TYPES` that looks for the type of an extension object. -/
def lookup (types : List DataType) (typeId : NodeId) : Option DataType :=
  types.find? fun t => typeId = { namespaceIndex := 0, identifier := .numeric t.typeId }

mutual

/-- `UA_decodeBinary`, given the decoder of variants. -/
def decodeType (env : Environment) (variant : Decoder (Value .variant)) :
    (t : DataType) → Decoder (Value t)
  | .fixed f => (decodeInteger f.size).map fun n => .fixed (BitVec.ofNat _ n)
  | .text _ => (decodeByteArray env.heap).map .text
  | .guid => Guid.decodeBinary.map .guid
  | .nodeId => (NodeId.decodeBinary env.heap).map .nodeId
  | .expandedNodeId => (ExpandedNodeId.decodeBinary env.heap).map .expandedNodeId
  | .qualifiedName =>
      UInt16.decodeBinary.andThen fun ns => (decodeByteArray env.heap).map fun name =>
        .qualifiedName { namespaceIndex := ns, name := name }
  | .localizedText => (LocalizedText.decodeBinary env.heap).map .localizedText
  | .extensionObject => (ExtensionObject.decodeBinary env.heap).map .extensionObject
  | .dataValue =>
      Byte.decodeBinary.andThen fun flags =>
        ((Reader.when (flags &&& 0x01 ≠ 0) variant).also (Stamps.decodeBinary flags)).map fun r =>
          r.1.elim (.dataValue r.2) fun v => .dataValueOf v r.2
  | .variant => variant
  | .diagnosticInfo => fun src offset =>
      (Diagnostic.decodeBinary env.heap (src.length + 1)).map (fun r => .diagnosticInfo r.1 r.2)
        src offset
  | .record _ _ members => (decodeMembers env variant members).map .record

/-- The loop of `UA_decodeBinary` over the members. -/
def decodeMembers (env : Environment) (variant : Decoder (Value .variant)) :
    (ms : Members) → Decoder (Fields ms)
  | .nil => Reader.yield .nil
  | .single t ms =>
      (decodeType env variant t).andThen fun v => (decodeMembers env variant ms).map (.single v)
  | .array t ms =>
      Int32.decodeBinary.andThen fun n =>
        (decodeArray env.heap t.memSize n .nil
          (decodeElements t (decodeType env variant t))).andThen fun vs =>
            (decodeMembers env variant ms).map fun fs => vs.elim (.null fs) fun vs => .array vs fs

end

/-- The type of the body, when the decoder knows it. -/
def bodyType (types : List DataType) (typeId : NodeId) (encoding : UInt8) : Option DataType :=
  if typeId.namespaceIndex = 0 ∧ encoding = 1 then lookup types typeId else none

/-- A scalar extension object in a variant: a body of a known type is decoded, any other is left
as it is. -/
def decodeExtension (env : Environment) (variant : Decoder (Value .variant)) :
    Decoder (Value .variant) := fun src offset =>
  ((NodeId.decodeBinary env.heap).andThen fun typeId => Byte.decodeBinary.andThen fun encoding =>
    match bodyType env.types typeId encoding with
    | some t => fun src offset' =>
        if env.heap t.memSize then (decodeType env variant t).map .scalar src offset' else .fault
    | none => fun src _ =>
        if env.heap 48 then
          (ExtensionObject.decodeBinary env.heap).map (fun e => .scalar (.extensionObject e)) src
            offset
        else
          .fault) src offset

/-- An array in a variant, with its dimensions. -/
def decodeVariantArray (env : Environment) (variant : Decoder (Value .variant)) (t : DataType)
    (hasDimensions : Bool) : Decoder (Value .variant) :=
  Int32.decodeBinary.andThen fun n =>
    (decodeArray env.heap t.memSize n .nil
      (decodeElements t (decodeType env variant t))).andThen fun vs =>
        (Reader.when hasDimensions (decodeDimensions env.heap)).map fun dims =>
          vs.elim (.nullArray t (dims.getD none)) fun vs => .array vs (dims.getD none)

/-- A single builtin value in a variant. -/
def decodeScalar (env : Environment) (variant : Decoder (Value .variant)) (t : DataType) :
    Decoder (Value .variant) :=
  (decodeAllocated env.heap t.memSize (decodeElement t (decodeType env variant t))).map .scalar

/-- `UA_Variant_decodeBinary` behind the encoding byte. -/
def decodeVariantBody (env : Environment) (variant : Decoder (Value .variant))
    (encodingByte : UInt8) : Decoder (Value .variant) :=
  match DataType.builtins[(encodingByte &&& 0x3f).toNat - 1]? with
  | none => Reader.refuse StatusCode.badDecodingError
  | some t =>
      if encodingByte &&& 0x3f = 0 then
        Reader.refuse StatusCode.badDecodingError
      else if encodingByte &&& 0x80 ≠ 0 then
        decodeVariantArray env variant t (encodingByte &&& 0x40 ≠ 0)
      else if encodingByte &&& 0x3f = 22 then
        decodeExtension env variant
      else
        decodeScalar env variant t

/-- `UA_Variant_decodeBinary`, so deep at most. -/
def decodeVariant (env : Environment) : ℕ → Decoder (Value .variant)
  | 0 => fun _ _ => .fault
  | depth + 1 => Byte.decodeBinary.andThen (decodeVariantBody env (decodeVariant env depth))

/-- `UA_decodeBinary`. -/
def decodeBinary (env : Environment) (t : DataType) : Decoder (Value t) := fun src offset =>
  decodeType env (decodeVariant env (src.length + 1)) t src offset

/-! ## Sizes -/

mutual

/-- `UA_calcSizeBinary`. -/
def Value.calcSizeBinary : {t : DataType} → Value t → ℕ
  | .fixed f, .fixed _ => f.size
  | _, .text s => s.calcSizeBinary
  | _, .guid _ => 16
  | _, .nodeId id => id.calcSizeBinary
  | _, .expandedNodeId id => id.calcSizeBinary
  | _, .qualifiedName q => 2 + q.name.calcSizeBinary
  | _, .localizedText l => l.calcSizeBinary
  | _, .extensionObject e => e.calcSizeBinary
  | _, .dataValue s => s.calcSizeBinary
  | _, .dataValueOf v s => s.calcSizeBinary + v.calcSizeBinary
  | _, @Value.scalar t v => 1 + v.calcSizeBinary + (if t.isBuiltin then 0 else 9)
  | _, @Value.array t vs dims =>
      1 + (4 + vs.calcSizeBinary) + (if t.isBuiltin then 0 else 9 * vs.length) +
        dims.elim 0 fun dims => 4 + 4 * dims.length
  | _, .nullArray _ dims => 1 + 4 + dims.elim 0 fun dims => 4 + 4 * dims.length
  | _, .diagnosticInfo d inner => d.calcSizeBinary inner
  | _, .record fs => fs.calcSizeBinary

/-- `UA_Array_calcSizeBinary` without the count; elements of a fixed size are counted alike. -/
def Values.calcSizeBinary : {t : DataType} → Values t → ℕ
  | _, .nil => 0
  | _, .cons v vs => v.calcSizeBinary + vs.calcSizeBinary

/-- The loop of `UA_calcSizeBinary` over the members. -/
def Fields.calcSizeBinary : {ms : Members} → Fields ms → ℕ
  | _, .nil => 0
  | _, .single v fs => v.calcSizeBinary + fs.calcSizeBinary
  | _, .null fs => 4 + fs.calcSizeBinary
  | _, .array vs fs => 4 + vs.calcSizeBinary + fs.calcSizeBinary

end

end Encoding

end ForteOpcUa
