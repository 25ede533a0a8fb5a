import ForteOpcUa.Encoding.Values
import ForteOpcUa.Memory.LittleEndian
import ForteOpcUa.Memory.MachineIntegers
import ForteOpcUa.Serial.Reading
import ForteOpcUa.Serial.Writing

/-!
# Builtin — encoders and decoders of the builtin types

`ua_types_encoding_binary.c`, the types that contain no variant.  The machine is little-endian.

Offsets are compared with lengths as `UA_Int32`, which wraps them from `2 ^ 31` on; a copy outside
the buffer is a fault.
-/

namespace ForteOpcUa

namespace Encoding

open Memory Serial

/-- An encoder of `ua_types_encoding_binary.h`. -/
abbrev Encoder : Type :=
  Writer StatusCode

/-- A decoder. -/
abbrev Decoder (α : Type) : Type :=
  Reader StatusCode α

/-- `malloc`, by the size of the block. -/
abbrev Heap : Type :=
  ℕ → Bool

/-- `memcpy` into the buffer. -/
def copyIn (bs : ByteString) : Encoder := fun dst offset =>
  match store dst offset bs with
  | none => .fault
  | some dst' => .good dst' (offset + bs.length)

/-- `memcpy` out of the buffer. -/
def copyOut (k : ℕ) : Decoder ByteString := fun src offset =>
  match slice src offset k with
  | none => .fault
  | some bs => .good bs (offset + k)

/-! ## Integers -/

/-- The encoders of integers of `k` bytes. -/
def encodeInteger (k n : ℕ) : Encoder := fun dst offset =>
  if (dst.length : ℤ) < int32 (offset + k : ℕ) then
    .bad StatusCode.badEncodingError dst offset
  else
    copyIn (toBytes k n) dst offset

/-- The decoders of integers of `k` bytes. -/
def decodeInteger (k : ℕ) : Decoder ℕ := fun src offset =>
  if (src.length : ℤ) < int32 (offset + k : ℕ) then
    .bad StatusCode.badDecodingError offset
  else
    (copyOut k).map ofBytes src offset

def Byte.encodeBinary (x : UInt8) : Encoder :=
  encodeInteger 1 x.toNat

def UInt16.encodeBinary (x : UInt16) : Encoder :=
  encodeInteger 2 x.toNat

def UInt32.encodeBinary (x : UInt32) : Encoder :=
  encodeInteger 4 x.toNat

def UInt64.encodeBinary (x : UInt64) : Encoder :=
  encodeInteger 8 x.toNat

def Int32.encodeBinary (x : ℤ) : Encoder :=
  encodeInteger 4 (u32 x)

def Byte.decodeBinary : Decoder UInt8 :=
  (decodeInteger 1).map UInt8.ofNat

def UInt16.decodeBinary : Decoder UInt16 :=
  (decodeInteger 2).map UInt16.ofNat

def UInt32.decodeBinary : Decoder UInt32 :=
  (decodeInteger 4).map UInt32.ofNat

def UInt64.decodeBinary : Decoder UInt64 :=
  (decodeInteger 8).map UInt64.ofNat

def Int32.decodeBinary : Decoder ℤ :=
  (decodeInteger 4).map fun n : ℕ => int32 n

/-! ## Texts -/

namespace Text

/-- `length`, which is negative for the null text. -/
def length : Text → ℤ
  | none => -1
  | some bs => bs.length

/-- The bytes that are copied. -/
def data : Text → ByteString
  | none => []
  | some bs => bs

/-- `UA_String_encodeBinary`. -/
def encodeBinary (s : Text) : Encoder := fun dst offset =>
  let start := int32 (offset + 4 : ℕ)
  let stop := if s.hasData then int32 (start + s.length) else start
  if (dst.length : ℤ) < stop then
    .bad StatusCode.badEncodingError dst offset
  else
    ((Int32.encodeBinary s.length).also (copyIn s.data)) dst offset

/-- `UA_String_decodeBinary` once the length is known. -/
def decodeData (heap : Heap) (length : ℤ) : Decoder Text :=
  if length < 0 then
    Reader.yield none
  else if length = 0 then
    Reader.yield (some [])
  else fun src offset =>
    if (src.length : ℤ) < int32 (int32 offset + length) then
      .bad StatusCode.badDecodingError offset
    else if heap length.toNat then
      (copyOut length.toNat).map some src offset
    else
      .bad StatusCode.badOutOfMemory offset

/-- `UA_String_decodeBinary`. -/
def decodeBinary (heap : Heap) : Decoder Text :=
  (Int32.decodeBinary.orRefuse StatusCode.badInternalError).andThen (decodeData heap)

/-- `UA_String_calcSizeBinary`. -/
def calcSizeBinary (s : Text) : ℕ :=
  4 + s.data.length

end Text

/-! ## Guids and node ids -/

/-- Bytes one by one. -/
def encodeBytes : ByteString → Encoder
  | [] => Writer.nothing
  | b :: bs => (Byte.encodeBinary b).also (encodeBytes bs)

/-- So many bytes one by one. -/
def decodeBytes : (n : ℕ) → Decoder (Vector UInt8 n)
  | 0 => Reader.yield #v[]
  | n + 1 => ((decodeBytes n).also Byte.decodeBinary).map fun r => r.1.push r.2

namespace Guid

/-- `UA_Guid_encodeBinary`. -/
def encodeBinary (g : Guid) : Encoder :=
  (UInt32.encodeBinary g.data1).also <| (UInt16.encodeBinary g.data2).also <|
    (UInt16.encodeBinary g.data3).also (encodeBytes g.data4.toList)

/-- `UA_Guid_decodeBinary`. -/
def decodeBinary : Decoder Guid :=
  (UInt32.decodeBinary.also <| UInt16.decodeBinary.also <|
    UInt16.decodeBinary.also (decodeBytes 8)).map fun r =>
      { data1 := r.1, data2 := r.2.1, data3 := r.2.2.1, data4 := r.2.2.2 }

end Guid

namespace NodeId

/-- `UA_NodeId_encodeBinary`: a numeric id takes the shortest form.  `UA_BYTE_MAX` is 256, one more
than a byte holds. -/
def encodeBinary (id : NodeId) : Encoder :=
  match id.identifier with
  | .numeric value =>
      if value > 65535 ∨ id.namespaceIndex > 256 then
        (Byte.encodeBinary 2).also <| (UInt16.encodeBinary id.namespaceIndex).also
          (UInt32.encodeBinary value)
      else if value > 256 ∨ id.namespaceIndex > 0 then
        (Byte.encodeBinary 1).also <| (Byte.encodeBinary id.namespaceIndex.toUInt8).also
          (UInt16.encodeBinary value.toUInt16)
      else
        (Byte.encodeBinary 0).also (Byte.encodeBinary value.toUInt8)
  | .string value =>
      (Byte.encodeBinary 3).also <| (UInt16.encodeBinary id.namespaceIndex).also
        value.encodeBinary
  | .guid value =>
      (Byte.encodeBinary 4).also <| (UInt16.encodeBinary id.namespaceIndex).also
        value.encodeBinary
  | .byteString value =>
      (Byte.encodeBinary 5).also <| (UInt16.encodeBinary id.namespaceIndex).also
        value.encodeBinary

/-- `UA_NodeId_decodeBinary` behind the encoding byte. -/
def decodeBody (heap : Heap) (encodingByte : UInt8) : Decoder NodeId :=
  if encodingByte = 0 then
    Byte.decodeBinary.map fun value =>
      { namespaceIndex := 0, identifier := .numeric value.toUInt32 }
  else if encodingByte = 1 then
    (Byte.decodeBinary.also UInt16.decodeBinary).map fun r =>
      { namespaceIndex := r.1.toUInt16, identifier := .numeric r.2.toUInt32 }
  else if encodingByte = 2 then
    (UInt16.decodeBinary.also UInt32.decodeBinary).map fun r =>
      { namespaceIndex := r.1, identifier := .numeric r.2 }
  else if encodingByte = 3 then
    (UInt16.decodeBinary.also (Text.decodeBinary heap)).map fun r =>
      { namespaceIndex := r.1, identifier := .string r.2 }
  else if encodingByte = 4 then
    (UInt16.decodeBinary.also Guid.decodeBinary).map fun r =>
      { namespaceIndex := r.1, identifier := .guid r.2 }
  else if encodingByte = 5 then
    (UInt16.decodeBinary.also (Text.decodeBinary heap)).map fun r =>
      { namespaceIndex := r.1, identifier := .byteString r.2 }
  else
    Reader.refuse StatusCode.badInternalError

/-- `UA_NodeId_decodeBinary`. -/
def decodeBinary (heap : Heap) : Decoder NodeId :=
  Byte.decodeBinary.andThen (decodeBody heap)

/-- `UA_NodeId_calcSizeBinary`. -/
def calcSizeBinary (id : NodeId) : ℕ :=
  match id.identifier with
  | .numeric value =>
      if value > 65535 ∨ id.namespaceIndex > 256 then 7
      else if value > 256 ∨ id.namespaceIndex > 0 then 4
      else 2
  | .string value => 3 + value.calcSizeBinary
  | .guid _ => 3 + 128
  | .byteString value => 3 + value.calcSizeBinary

end NodeId

namespace ExpandedNodeId

/-- The flags of the fields that are encoded. -/
def flags (id : ExpandedNodeId) : UInt8 :=
  (if id.namespaceUri.hasData then 0x80 else 0) ||| (if id.serverIndex > 0 then 0x40 else 0)

/-- `dst->data[start] |= flags`. -/
def orAt (dst : ByteString) (start : ℕ) (flags : UInt8) : Option ByteString :=
  match dst[start]? with
  | none => none
  | some b => some (dst.set start (b ||| flags))

/-- `UA_ExpandedNodeId_encodeBinary`: the flags join the encoding byte of the node id, whether or
not that was written. -/
def encodeBinary (id : ExpandedNodeId) : Encoder := fun dst offset =>
  let fields := id.nodeId.encodeBinary.also <|
    (Writer.when id.namespaceUri.hasData id.namespaceUri.encodeBinary).also
      (Writer.when (id.serverIndex > 0) (UInt32.encodeBinary id.serverIndex))
  let setFlags := fun dst' =>
    if id.flags = 0 then some dst' else orAt dst' (u32 offset) id.flags
  match fields dst offset with
  | .fault => .fault
  | .bad status dst' offset' =>
      match setFlags dst' with
      | none => .fault
      | some dst'' => .bad status dst'' offset'
  | .good dst' offset' =>
      match setFlags dst' with
      | none => .fault
      | some dst'' => .good dst'' offset'

/-- The fields behind the node id, as the flags say. -/
def decodeRest (heap : Heap) (encodingByte : UInt8) : Decoder (Option Text × Option UInt32) :=
  (Reader.when (encodingByte &&& 0x80 ≠ 0) (Text.decodeBinary heap)).also
    (Reader.when (encodingByte &&& 0x40 ≠ 0) UInt32.decodeBinary)

/-- The id of the fields; behind a namespace URI the index is not used. -/
def ofFields (r : NodeId × Option Text × Option UInt32) : ExpandedNodeId :=
  { nodeId := if r.2.1.isSome then { r.1 with namespaceIndex := 0 } else r.1
    namespaceUri := r.2.1.getD none
    serverIndex := r.2.2.getD 0 }

/-- `UA_ExpandedNodeId_decodeBinary`: the flags are cleared in the buffer before the node id is
read. -/
def decodeBinary (heap : Heap) : Decoder ExpandedNodeId := fun src offset =>
  if (src.length : ℤ) ≤ int32 offset then
    .bad StatusCode.badDecodingError offset
  else
    match src[offset]? with
    | none => .fault
    | some encodingByte =>
        ((NodeId.decodeBinary heap).also (decodeRest heap encodingByte)).map ofFields
          (src.set offset (encodingByte &&& 0x3f)) offset

/-- `UA_ExpandedNodeId_calcSizeBinary`. -/
def calcSizeBinary (id : ExpandedNodeId) : ℕ :=
  id.nodeId.calcSizeBinary +
    (if id.namespaceUri.hasData then id.namespaceUri.calcSizeBinary else 0) +
      (if id.serverIndex > 0 then 4 else 0)

end ExpandedNodeId

/-! ## Localized texts and extension objects -/

namespace LocalizedText

/-- The mask of the texts that have data. -/
def mask (l : LocalizedText) : UInt8 :=
  (if l.locale.hasData then 0x01 else 0) ||| (if l.text.hasData then 0x02 else 0)

/-- `UA_LocalizedText_encodeBinary`. -/
def encodeBinary (l : LocalizedText) : Encoder :=
  (Byte.encodeBinary l.mask).also <| (Writer.when l.locale.hasData l.locale.encodeBinary).also
    (Writer.when l.text.hasData l.text.encodeBinary)

/-- `UA_LocalizedText_decodeBinary`. -/
def decodeBinary (heap : Heap) : Decoder LocalizedText :=
  Byte.decodeBinary.andThen fun encodingMask =>
    ((Reader.when (encodingMask &&& 0x01 ≠ 0) (Text.decodeBinary heap)).also
      (Reader.when (encodingMask &&& 0x02 ≠ 0) (Text.decodeBinary heap))).map fun r =>
        { locale := r.1.getD none, text := r.2.getD none }

/-- `UA_LocalizedText_calcSizeBinary`. -/
def calcSizeBinary (l : LocalizedText) : ℕ :=
  1 + (if l.locale.hasData then l.locale.calcSizeBinary else 0) +
    (if l.text.hasData then l.text.calcSizeBinary else 0)

end LocalizedText

namespace ExtensionObject

/-- `encoding`. -/
def encoding (e : ExtensionObject) : UInt8 :=
  match e.body with
  | .none => 0
  | .byteString _ => 1
  | .xml _ => 2

/-- `UA_ExtensionObject_encodeBinary`. -/
def encodeBinary (e : ExtensionObject) : Encoder :=
  e.typeId.encodeBinary.also <| (Byte.encodeBinary e.encoding).also <|
    match e.body with
    | .none => Writer.nothing
    | .byteString body => body.encodeBinary
    | .xml body => body.encodeBinary

/-- The body behind the encoding byte. -/
def decodeBody (heap : Heap) (encoding : UInt8) : Decoder Body :=
  if encoding = 0 then
    Reader.yield .none
  else if encoding = 1 then
    (Text.decodeBinary heap).map .byteString
  else if encoding = 2 then
    (Text.decodeBinary heap).map .xml
  else
    Reader.refuse StatusCode.badDecodingError

/-- `UA_ExtensionObject_decodeBinary`. -/
def decodeBinary (heap : Heap) : Decoder ExtensionObject :=
  ((NodeId.decodeBinary heap).also Byte.decodeBinary).andThen fun r =>
    (decodeBody heap r.2).map fun body => { typeId := r.1, body := body }

/-- `UA_ExtensionObject_calcSizeBinary`. -/
def calcSizeBinary (e : ExtensionObject) : ℕ :=
  e.typeId.calcSizeBinary + 1 +
    match e.body with
    | .none => 0
    | .byteString body => body.calcSizeBinary
    | .xml body => body.calcSizeBinary

end ExtensionObject

end Encoding

end ForteOpcUa
