import ForteOpcUa.Encoding.Structured

/-!
# WireFormat — the bytes of a value

What the binary encoding says about a value, without buffers and offsets:

- `Value.bytes`      : its bytes,
- `Value.normal`     : the value as the bytes carry it; some distinctions are not encoded,
- `Value.Plain`      : it contains no expanded node id with flags,
- `Value.Parseable`  : its arrays pass the checks of the decoder, and its extension objects are of
  types the decoder does not know.
-/

namespace ForteOpcUa

namespace Encoding

open Memory

/-! ## Builtin types -/

/-- A number of 32 bits. -/
def int32Bytes (x : ℤ) : ByteString :=
  toBytes 4 (u32 x)

/-- Length and data. -/
def Text.bytes (s : Text) : ByteString :=
  int32Bytes s.length ++ s.data

/-- A text without data is null when it is left out. -/
def Text.normal (s : Text) : Text :=
  if s.hasData then s else none

def Guid.bytes (g : Guid) : ByteString :=
  toBytes 4 g.data1.toNat ++ (toBytes 2 g.data2.toNat ++ (toBytes 2 g.data3.toNat ++
    g.data4.toList))

namespace NodeId

/-- The form of the id. -/
def encodingByte (id : NodeId) : UInt8 :=
  match id.identifier with
  | .numeric value =>
      if value > 65535 ∨ id.namespaceIndex > 256 then 2
      else if value > 256 ∨ id.namespaceIndex > 0 then 1
      else 0
  | .string _ => 3
  | .guid _ => 4
  | .byteString _ => 5

/-- What follows the encoding byte. -/
def body (id : NodeId) : ByteString :=
  match id.identifier with
  | .numeric value =>
      if value > 65535 ∨ id.namespaceIndex > 256 then
        toBytes 2 id.namespaceIndex.toNat ++ toBytes 4 value.toNat
      else if value > 256 ∨ id.namespaceIndex > 0 then
        toBytes 1 id.namespaceIndex.toUInt8.toNat ++ toBytes 2 value.toUInt16.toNat
      else
        toBytes 1 value.toUInt8.toNat
  | .string value => toBytes 2 id.namespaceIndex.toNat ++ value.bytes
  | .guid value => toBytes 2 id.namespaceIndex.toNat ++ value.bytes
  | .byteString value => toBytes 2 id.namespaceIndex.toNat ++ value.bytes

def bytes (id : NodeId) : ByteString :=
  id.encodingByte :: id.body

/-- A namespace index 256, and a number 256 in namespace 0, are written as one byte and come back
as 0. -/
def normal (id : NodeId) : NodeId :=
  match id.identifier with
  | .numeric value =>
      if value ≤ 65535 ∧ id.namespaceIndex = 256 then { id with namespaceIndex := 0 }
      else if value = 256 ∧ id.namespaceIndex = 0 then { id with identifier := .numeric 0 }
      else id
  | _ => id

end NodeId

namespace ExpandedNodeId

/-- The fields behind the node id. -/
def rest (id : ExpandedNodeId) : ByteString :=
  (if id.namespaceUri.hasData then id.namespaceUri.bytes else []) ++
    (if id.serverIndex > 0 then toBytes 4 id.serverIndex.toNat else [])

def bytes (id : ExpandedNodeId) : ByteString :=
  (id.nodeId.encodingByte ||| id.flags) :: (id.nodeId.body ++ id.rest)

/-- With a namespace URI the namespace index is ignored. -/
def normal (id : ExpandedNodeId) : ExpandedNodeId :=
  { nodeId :=
      if id.namespaceUri.hasData then { id.nodeId.normal with namespaceIndex := 0 }
      else id.nodeId.normal
    namespaceUri := id.namespaceUri.normal
    serverIndex := id.serverIndex }

end ExpandedNodeId

def QualifiedName.bytes (q : QualifiedName) : ByteString :=
  toBytes 2 q.namespaceIndex.toNat ++ q.name.bytes

namespace LocalizedText

def bytes (l : LocalizedText) : ByteString :=
  l.mask :: ((if l.locale.hasData then l.locale.bytes else []) ++
    (if l.text.hasData then l.text.bytes else []))

def normal (l : LocalizedText) : LocalizedText :=
  { locale := l.locale.normal, text := l.text.normal }

end LocalizedText

namespace ExtensionObject

def bytes (e : ExtensionObject) : ByteString :=
  e.typeId.bytes ++ (e.encoding :: match e.body with
    | .none => []
    | .byteString body => body.bytes
    | .xml body => body.bytes)

def normal (e : ExtensionObject) : ExtensionObject :=
  { e with typeId := e.typeId.normal }

/-- The decoder does not look into the body. -/
def Opaque (types : List DataType) (e : ExtensionObject) : Prop :=
  ∀ body, e.body = .byteString body → lookup types e.typeId.normal = none

end ExtensionObject

/-- A field that is there. -/
def optionBytes {α : Type} (bytes : α → ByteString) (x : Option α) : ByteString :=
  x.elim [] bytes

namespace Stamps

def bytes (s : Stamps) : ByteString :=
  optionBytes (fun x => toBytes 4 x.toNat) s.status ++
    (optionBytes (fun x => toBytes 8 x.toNat) s.sourceTimestamp ++
      (optionBytes (fun x => toBytes 2 x.toNat) s.sourcePicoseconds ++
        (optionBytes (fun x => toBytes 8 x.toNat) s.serverTimestamp ++
          optionBytes (fun x => toBytes 2 x.toNat) s.serverPicoseconds)))

def normal (s : Stamps) : Stamps :=
  { s with
    sourcePicoseconds := s.sourcePicoseconds.map clampPicoseconds
    serverPicoseconds := s.serverPicoseconds.map clampPicoseconds }

end Stamps

namespace Diagnostic

def fieldBytes (d : Diagnostic) : ByteString :=
  optionBytes (fun x => toBytes 4 x.toNat) d.symbolicId ++
    (optionBytes (fun x => toBytes 4 x.toNat) d.namespaceUri ++
      (optionBytes (fun x => toBytes 4 x.toNat) d.localizedText ++
        (optionBytes (fun x => toBytes 4 x.toNat) d.locale ++
          (optionBytes Text.bytes d.additionalInfo ++
            optionBytes (fun x => toBytes 4 x.toNat) d.innerStatusCode))))

def bytes : Diagnostic → List Diagnostic → ByteString
  | d, [] => d.flags false :: d.fieldBytes
  | d, inner :: rest => d.flags true :: (d.fieldBytes ++ bytes inner rest)

end Diagnostic

/-! ## Values -/

/-- The dimensions of an array. -/
def dimensionBytes (dims : List (BitVec 32)) : ByteString :=
  int32Bytes dims.length ++ dims.flatMap fun d => toBytes 4 d.toNat

/-- An element of a variant, in an extension object if it is not builtin. -/
def wrapBytes (t : DataType) (bs : ByteString) : ByteString :=
  if t.isBuiltin then bs else (binaryTypeId t).bytes ++ (1 :: (int32Bytes bs.length ++ bs))

mutual

def Value.bytes : {t : DataType} → Value t → ByteString
  | .fixed f, .fixed n => toBytes f.size n.toNat
  | _, .text s => s.bytes
  | _, .guid g => g.bytes
  | _, .nodeId id => id.bytes
  | _, .expandedNodeId id => id.bytes
  | _, .qualifiedName q => q.bytes
  | _, .localizedText l => l.bytes
  | _, .extensionObject e => e.bytes
  | _, .dataValue s => s.flags false :: s.bytes
  | _, .dataValueOf v s => s.flags true :: (v.bytes ++ s.bytes)
  | _, @Value.scalar t v => variantByte t false false :: wrapBytes t v.bytes
  | _, @Value.array t vs dims =>
      variantByte t true dims.isSome ::
        (int32Bytes vs.length ++ (vs.elementBytes ++ optionBytes dimensionBytes dims))
  | _, .nullArray t dims =>
      variantByte t true dims.isSome :: (int32Bytes (-1) ++ optionBytes dimensionBytes dims)
  | _, .diagnosticInfo d inner => d.bytes inner
  | _, .record fs => fs.bytes

/-- The elements of an array. -/
def Values.bytes : {t : DataType} → Values t → ByteString
  | _, .nil => []
  | _, .cons v vs => v.bytes ++ vs.bytes

/-- The elements of an array in a variant. -/
def Values.elementBytes : {t : DataType} → Values t → ByteString
  | _, .nil => []
  | _, @Values.cons t v vs => wrapBytes t v.bytes ++ vs.elementBytes

def Fields.bytes : {ms : Members} → Fields ms → ByteString
  | _, .nil => []
  | _, .single v fs => v.bytes ++ fs.bytes
  | _, .null fs => int32Bytes (-1) ++ fs.bytes
  | _, .array vs fs => (int32Bytes vs.length ++ vs.bytes) ++ fs.bytes

end

/-! ## What is not carried -/

/-- A value of a type that is not builtin, in its extension object. -/
def wrapObject (t : DataType) (bs : ByteString) : ExtensionObject :=
  { typeId := binaryTypeId t, body := .byteString (some bs) }

/-- The elements in extension objects. -/
def Values.wrapped : {t : DataType} → Values t → Values .extensionObject
  | _, .nil => .nil
  | _, @Values.cons t v vs => .cons (.extensionObject (wrapObject t v.bytes)) vs.wrapped

/-- The same as they come back. -/
def Values.received : {t : DataType} → Values t → Values .extensionObject
  | _, .nil => .nil
  | _, @Values.cons t v vs => .cons (.extensionObject (wrapObject t v.bytes).normal) vs.received

/-- No dimensions at all are a null pointer. -/
def normalDimensions (dims : Option (List (BitVec 32))) : Option (List (BitVec 32)) :=
  dims.filter fun dims => dims ≠ []

mutual

def Value.normal : {t : DataType} → Value t → Value t
  | _, .expandedNodeId id => .expandedNodeId id.normal
  | _, .localizedText l => .localizedText l.normal
  | _, .dataValue s => .dataValue s.normal
  | _, .dataValueOf v s => .dataValueOf v.normal s.normal
  | _, @Value.scalar t v =>
      if t.isBuiltin then .scalar v.normal
      else .scalar (.extensionObject (wrapObject t v.bytes).normal)
  | _, @Value.array t vs dims =>
      if t.isBuiltin then .array vs.normal (normalDimensions dims)
      else .array vs.received (normalDimensions dims)
  | _, .nullArray t dims =>
      .nullArray (if t.isBuiltin then t else .extensionObject) (normalDimensions dims)
  | _, .record fs => .record fs.normal
  | _, .fixed n => .fixed n
  | _, .text s => .text s
  | _, .guid g => .guid g
  | _, .nodeId id => .nodeId id.normal
  | _, .qualifiedName q => .qualifiedName q
  | _, .extensionObject e => .extensionObject e.normal
  | _, .diagnosticInfo d inner => .diagnosticInfo d inner

def Values.normal : {t : DataType} → Values t → Values t
  | _, .nil => .nil
  | _, .cons v vs => .cons v.normal vs.normal

def Fields.normal : {ms : Members} → Fields ms → Fields ms
  | _, .nil => .nil
  | _, .single v fs => .single v.normal fs.normal
  | _, .null fs => .null fs.normal
  | _, .array vs fs => .array vs.normal fs.normal

end

/-! ## Conditions -/

mutual

/-- No expanded node id in the value has flags. -/
def Value.Plain : {t : DataType} → Value t → Prop
  | _, .expandedNodeId id => id.flags = 0
  | _, .dataValueOf v _ => v.Plain
  | _, .scalar v => v.Plain
  | _, .array vs _ => vs.Plain
  | _, .record fs => fs.Plain
  | _, .fixed _ => True
  | _, .text _ => True
  | _, .guid _ => True
  | _, .nodeId _ => True
  | _, .qualifiedName _ => True
  | _, .localizedText _ => True
  | _, .extensionObject _ => True
  | _, .dataValue _ => True
  | _, .nullArray _ _ => True
  | _, .diagnosticInfo _ _ => True

def Values.Plain : {t : DataType} → Values t → Prop
  | _, .nil => True
  | _, .cons v vs => v.Plain ∧ vs.Plain

def Fields.Plain : {ms : Members} → Fields ms → Prop
  | _, .nil => True
  | _, .single v fs => v.Plain ∧ fs.Plain
  | _, .null fs => fs.Plain
  | _, .array vs fs => vs.Plain ∧ fs.Plain

end

/-- So much memory for an array passes the checks of the decoder, when so many bytes are left. -/
def Allocatable (size left : ℕ) : Prop :=
  size ≤ 104857600 ∧ size / 32 ≤ left

instance (size left : ℕ) : Decidable (Allocatable size left) :=
  inferInstanceAs (Decidable (_ ∧ _))

/-- The dimensions pass the checks. -/
def dimensionsAllocatable (dims : Option (List (BitVec 32))) : Prop :=
  ∀ ds, dims = some ds → 4 * ds.length ≤ 104857600

mutual

/-- The decoder accepts the value. -/
def Value.Parseable (types : List DataType) : {t : DataType} → Value t → Prop
  | _, .text s => s.data.length ≤ 104857600
  | _, .qualifiedName q => q.name.data.length ≤ 104857600
  | _, .dataValueOf v _ => v.Parseable types
  | _, @Value.scalar t v =>
      match t, v with
      | .record .., _ => lookup types (binaryTypeId t).normal = none
      | .extensionObject, .extensionObject e => e.Opaque types
      | _, v => v.Parseable types ∧ Allocatable t.memSize v.bytes.length
  | _, @Value.array t vs dims =>
      dimensionsAllocatable dims ∧
        if t.isBuiltin then
          vs.Parseable types ∧ Allocatable (t.memSize * vs.length) vs.bytes.length
        else
          48 * vs.length ≤ 104857600
  | _, .nullArray _ dims => dimensionsAllocatable dims
  | _, .record fs => fs.Parseable types
  | _, .fixed _ => True
  | _, .guid _ => True
  | _, .nodeId _ => True
  | _, .expandedNodeId _ => True
  | _, .localizedText _ => True
  | _, .extensionObject _ => True
  | _, .dataValue _ => True
  | _, .diagnosticInfo _ _ => True

def Values.Parseable (types : List DataType) : {t : DataType} → Values t → Prop
  | _, .nil => True
  | _, .cons v vs => v.Parseable types ∧ vs.Parseable types

def Fields.Parseable (types : List DataType) : {ms : Members} → Fields ms → Prop
  | _, .nil => True
  | _, .single v fs => v.Parseable types ∧ fs.Parseable types
  | _, .null fs => fs.Parseable types
  | _, @Fields.array t _ vs fs =>
      vs.length < 2 ^ 31 ∧ vs.Parseable types ∧
        Allocatable (t.memSize * vs.length) vs.bytes.length ∧ fs.Parseable types

end

end Encoding

end ForteOpcUa
