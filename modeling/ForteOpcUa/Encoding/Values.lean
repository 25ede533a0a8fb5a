import ForteOpcUa.Server.Types

/-!
# Values — what the binary encoding carries

The types of `ua_types.h` as they go over the wire, where a null text and an empty one differ:

- `NodeId`, `QualifiedName`, `ExtensionObject`, ... : the builtin types with an encoding of their own,
- `DataType`  : a builtin type, or a record with its members as in the table `UA_TYPES`,
- `Value t`   : a value of type `t`, with its elements and fields,
- `Fields`, `Values` : the fields of a record, the elements of an array.

An enumeration is an `int32`.  The members of a record are given by their types; where in memory
they lie is left out.
-/

namespace ForteOpcUa

namespace Encoding

/-! ## Builtin types -/

/-- `UA_String` and `UA_ByteString`: null, or so many bytes. -/
abbrev Text : Type :=
  Option ByteString

/-- `length > 0`, which is when there are data. -/
def Text.hasData : Text → Bool
  | some (_ :: _) => true
  | _ => false

/-- `UA_Guid`. -/
structure Guid where
  data1 : UInt32
  data2 : UInt16
  data3 : UInt16
  data4 : Vector UInt8 8
  deriving DecidableEq

/-- The identifier of a node id. -/
inductive Identifier
  | numeric (value : UInt32)
  | string (value : Text)
  | guid (value : Guid)
  | byteString (value : Text)
  deriving DecidableEq

/-- `UA_NodeId`. -/
structure NodeId where
  namespaceIndex : UInt16
  identifier : Identifier
  deriving DecidableEq

/-- `UA_ExpandedNodeId`. -/
structure ExpandedNodeId where
  nodeId : NodeId
  namespaceUri : Text
  serverIndex : UInt32
  deriving DecidableEq

/-- `UA_QualifiedName`. -/
structure QualifiedName where
  namespaceIndex : UInt16
  name : Text
  deriving DecidableEq

/-- `UA_LocalizedText`. -/
structure LocalizedText where
  locale : Text
  text : Text
  deriving DecidableEq

/-- The body of an extension object, with its encoding. -/
inductive Body
  | none
  | byteString (body : Text)
  | xml (body : Text)
  deriving DecidableEq

/-- `UA_ExtensionObject`. -/
structure ExtensionObject where
  typeId : NodeId
  body : Body
  deriving DecidableEq

/-- `UA_DataValue` without its variant; a field is there when its flag is set. -/
structure Stamps where
  status : Option UInt32
  sourceTimestamp : Option UInt64
  sourcePicoseconds : Option UInt16
  serverTimestamp : Option UInt64
  serverPicoseconds : Option UInt16
  deriving DecidableEq

/-- `UA_DiagnosticInfo` without the inner one. -/
structure Diagnostic where
  symbolicId : Option UInt32
  namespaceUri : Option UInt32
  localizedText : Option UInt32
  locale : Option UInt32
  additionalInfo : Option Text
  innerStatusCode : Option UInt32
  deriving DecidableEq

/-! ## Types -/

/-- The builtin types that are copied byte by byte, `zeroCopyable` in the table. -/
inductive Fixed
  | boolean | sByte | byte | int16 | uInt16 | int32 | uInt32 | int64 | uInt64 | float | double
  | dateTime | statusCode
  deriving DecidableEq

/-- The number of bytes, in memory and on the wire. -/
def Fixed.size : Fixed → ℕ
  | .boolean | .sByte | .byte => 1
  | .int16 | .uInt16 => 2
  | .int32 | .uInt32 | .float | .statusCode => 4
  | .int64 | .uInt64 | .double | .dateTime => 8

/-- The builtin types that are an array of bytes in the table. -/
inductive TextType
  | string | byteString | xmlElement
  deriving DecidableEq

mutual

/-- `UA_DataType`: a builtin type, or a record with its type id in namespace 0 and its size in
memory. -/
inductive DataType
  | fixed (f : Fixed)
  | text (t : TextType)
  | guid
  | nodeId
  | expandedNodeId
  | qualifiedName
  | localizedText
  | extensionObject
  | dataValue
  | variant
  | diagnosticInfo
  | record (typeId : UInt32) (memSize : ℕ) (members : Members)

/-- `UA_DataTypeMember`s: of a type, or of an array of it. -/
inductive Members
  | nil
  | single (t : DataType) (rest : Members)
  | array (t : DataType) (rest : Members)

end

namespace DataType

/-- `sizeof` the type, on a machine with 64-bit pointers. -/
def memSize : DataType → ℕ
  | .fixed f => f.size
  | .text _ => 16
  | .guid => 16
  | .nodeId => 24
  | .expandedNodeId => 48
  | .qualifiedName => 24
  | .localizedText => 32
  | .extensionObject => 48
  | .dataValue => 88
  | .variant => 40
  | .diagnosticInfo => 56
  | .record _ memSize _ => memSize

/-- The numeric identifier of the type. -/
def typeId : DataType → UInt32
  | .fixed .boolean => 1
  | .fixed .sByte => 2
  | .fixed .byte => 3
  | .fixed .int16 => 4
  | .fixed .uInt16 => 5
  | .fixed .int32 => 6
  | .fixed .uInt32 => 7
  | .fixed .int64 => 8
  | .fixed .uInt64 => 9
  | .fixed .float => 10
  | .fixed .double => 11
  | .text .string => 12
  | .fixed .dateTime => 13
  | .guid => 14
  | .text .byteString => 15
  | .text .xmlElement => 16
  | .nodeId => 17
  | .expandedNodeId => 18
  | .fixed .statusCode => 19
  | .qualifiedName => 20
  | .localizedText => 21
  | .extensionObject => 22
  | .dataValue => 23
  | .variant => 24
  | .diagnosticInfo => 25
  | .record typeId _ _ => typeId

/-- `UA_IS_BUILTIN`. -/
def isBuiltin : DataType → Bool
  | .record .. => false
  | _ => true

/-- The first 25 entries of `UA_TYPES`. -/
def builtins : List DataType :=
  [.fixed .boolean, .fixed .sByte, .fixed .byte, .fixed .int16, .fixed .uInt16, .fixed .int32,
    .fixed .uInt32, .fixed .int64, .fixed .uInt64, .fixed .float, .fixed .double, .text .string,
    .fixed .dateTime, .guid, .text .byteString, .text .xmlElement, .nodeId, .expandedNodeId,
    .fixed .statusCode, .qualifiedName, .localizedText, .extensionObject, .dataValue, .variant,
    .diagnosticInfo]

end DataType

/-! ## Values -/

mutual

/-- A value of a type. -/
inductive Value : DataType → Type
  | fixed {f : Fixed} (n : BitVec (8 * f.size)) : Value (.fixed f)
  | text {t : TextType} (s : Text) : Value (.text t)
  | guid (g : Guid) : Value .guid
  | nodeId (id : NodeId) : Value .nodeId
  | expandedNodeId (id : ExpandedNodeId) : Value .expandedNodeId
  | qualifiedName (q : QualifiedName) : Value .qualifiedName
  | localizedText (l : LocalizedText) : Value .localizedText
  | extensionObject (e : ExtensionObject) : Value .extensionObject
  | dataValue (s : Stamps) : Value .dataValue
  | dataValueOf (v : Value .variant) (s : Stamps) : Value .dataValue
  | scalar {t : DataType} (v : Value t) : Value .variant
  | array {t : DataType} (vs : Values t) (arrayDimensions : Option (List (BitVec 32))) :
      Value .variant
  | nullArray (t : DataType) (arrayDimensions : Option (List (BitVec 32))) : Value .variant
  | diagnosticInfo (d : Diagnostic) (inner : List Diagnostic) : Value .diagnosticInfo
  | record {typeId : UInt32} {memSize : ℕ} {members : Members} (fs : Fields members) :
      Value (.record typeId memSize members)

/-- The elements of an array. -/
inductive Values : DataType → Type
  | nil {t : DataType} : Values t
  | cons {t : DataType} (v : Value t) (vs : Values t) : Values t

/-- The fields of a record; an array may be null. -/
inductive Fields : Members → Type
  | nil : Fields .nil
  | single {t : DataType} {ms : Members} (v : Value t) (fs : Fields ms) : Fields (.single t ms)
  | null {t : DataType} {ms : Members} (fs : Fields ms) : Fields (.array t ms)
  | array {t : DataType} {ms : Members} (vs : Values t) (fs : Fields ms) : Fields (.array t ms)

end

/-- The number of elements. -/
def Values.length {t : DataType} : Values t → ℕ
  | .nil => 0
  | .cons _ vs => vs.length + 1

end Encoding

end ForteOpcUa
