import Mathlib.Data.List.Basic
import ForteOpcUa.Memory.LittleEndian

/-!
# Types — the built-in OPC UA types the blocks and the server exchange

The embedding keeps the words of `ua_types.h`:

- `ByteString`   : `UA_String` and `UA_ByteString` (one C type), the null string as `[]`,
- `NodeId`       : namespace index and tagged identifier, `UA_NodeId_equal` being equality,
- `StatusCode`   : the 32-bit codes of `ua_statuscodes.h` that the modelled services return,
- `DataType`     : the fields of `UA_DataType` that the services compare, and the first fifteen
  entries of `UA_TYPES`,
- `Variant`      : a type, an array length (`-1` for a scalar) and the data bytes,
- `Name`         : a nonempty zero-free text, which is what the string dictionary holds.
-/

namespace ForteOpcUa

/-! ## Strings and identifiers -/

/-- A sequence of bytes; the null string and the empty string are both `[]`. -/
abbrev ByteString : Type :=
  List UInt8

/-- The bytes of an ASCII literal. -/
def ascii (s : String) : ByteString :=
  s.toList.map fun c => c.toNat.toUInt8

/-- The identifier of a node, with the tag of `UA_NodeIdType`. -/
inductive Identifier
  | numeric (value : UInt32)
  | string (value : ByteString)
  | guid (value : Vector UInt8 16)
  | byteString (value : ByteString)
  deriving DecidableEq

/-- `UA_NodeId`. -/
structure NodeId where
  namespaceIndex : UInt16
  identifier : Identifier
  deriving DecidableEq

namespace NodeId

/-- `UA_NODEID_NUMERIC`. -/
def numeric (ns : UInt16) (value : UInt32) : NodeId :=
  { namespaceIndex := ns, identifier := .numeric value }

/-- `UA_NODEID_STRING_ALLOC`. -/
def string (ns : UInt16) (value : ByteString) : NodeId :=
  { namespaceIndex := ns, identifier := .string value }

/-- `UA_NODEID_NULL`. -/
def null : NodeId :=
  numeric 0 0

/-- The test `UA_Server_addExistingNode` makes with the namespace index cleared: such an id asks
the server for a fresh one. -/
def isUnnamed (id : NodeId) : Bool :=
  match id.identifier with
  | .numeric value => value = 0
  | .string value => value = []
  | .guid value => value = Vector.replicate 16 0
  | .byteString value => value = []

@[simp]
theorem string_inj {ns ns' : UInt16} {s s' : ByteString} :
    string ns s = string ns' s' ↔ ns = ns' ∧ s = s' := by
  simp [string]

@[simp]
theorem string_ne_numeric (ns ns' : UInt16) (s : ByteString) (value : UInt32) :
    string ns s ≠ numeric ns' value := by
  simp [string, numeric]

@[simp]
theorem numeric_ne_string (ns ns' : UInt16) (s : ByteString) (value : UInt32) :
    numeric ns' value ≠ string ns s :=
  (string_ne_numeric ns ns' s value).symm

end NodeId

/-- `UA_NS0ID_OBJECTSFOLDER` as a node id. -/
def objectsFolder : NodeId :=
  NodeId.numeric 0 85

/-- `UA_NS0ID_ORGANIZES` as a node id. -/
def organizes : NodeId :=
  NodeId.numeric 0 35

/-- `UA_QualifiedName`. -/
structure QualifiedName where
  namespaceIndex : UInt16
  name : ByteString
  deriving DecidableEq

/-- `UA_LocalizedText`. -/
structure LocalizedText where
  locale : ByteString
  text : ByteString
  deriving DecidableEq

/-! ## Status codes -/

/-- `UA_StatusCode`. -/
abbrev StatusCode : Type :=
  UInt32

namespace StatusCode

def good : StatusCode := 0x00
def badInternalError : StatusCode := 0x80020000
def badOutOfMemory : StatusCode := 0x80030000
def badEncodingError : StatusCode := 0x80060000
def badDecodingError : StatusCode := 0x80070000
def badNodeIdInvalid : StatusCode := 0x80330000
def badNodeIdUnknown : StatusCode := 0x80340000
def badAttributeIdInvalid : StatusCode := 0x80350000
def badReferenceTypeIdInvalid : StatusCode := 0x804c0000
def badParentNodeIdInvalid : StatusCode := 0x805b0000
def badReferenceNotAllowed : StatusCode := 0x805c0000
def badNodeIdRejected : StatusCode := 0x805d0000
def badNodeIdExists : StatusCode := 0x805e0000
def badNodeClassInvalid : StatusCode := 0x805f0000
def badTypeMismatch : StatusCode := 0x80740000
def badNoData : StatusCode := 0x809b0000
def badConnectionClosed : StatusCode := 0x80ae0000
def uncertainReferenceNotDeleted : StatusCode := 0x40bc0000

@[simp] theorem badInternalError_ne_good : badInternalError ≠ good := by decide
@[simp] theorem badOutOfMemory_ne_good : badOutOfMemory ≠ good := by decide
@[simp] theorem badNodeIdInvalid_ne_good : badNodeIdInvalid ≠ good := by decide
@[simp] theorem badNodeIdUnknown_ne_good : badNodeIdUnknown ≠ good := by decide
@[simp] theorem badNodeIdExists_ne_good : badNodeIdExists ≠ good := by decide
@[simp] theorem badTypeMismatch_ne_good : badTypeMismatch ≠ good := by decide
@[simp] theorem badNodeClassInvalid_ne_good : badNodeClassInvalid ≠ good := by decide
@[simp] theorem badNoData_ne_good : badNoData ≠ good := by decide
@[simp] theorem badConnectionClosed_ne_good : badConnectionClosed ≠ good := by decide

end StatusCode

/-! ## Data types and values -/

/-- The fields of `UA_DataType` that tell types apart. -/
structure DataType where
  typeId : NodeId
  memSize : ℕ
  typeIndex : ℕ
  namespaceZero : Bool
  deriving DecidableEq

/-- A built-in type: entry `index` of `UA_TYPES`, with node id `index + 1`. -/
def DataType.builtin (index memSize : ℕ) : DataType :=
  { typeId := NodeId.numeric 0 (UInt32.ofNat (index + 1))
    memSize := memSize
    typeIndex := index
    namespaceZero := true }

namespace TYPES

/-- `UA_TYPES_BOOLEAN` and its successors: the indices into the type table. -/
abbrev boolean : ℕ := 0
abbrev sbyte : ℕ := 1
abbrev byte : ℕ := 2
abbrev int16 : ℕ := 3
abbrev uint16 : ℕ := 4
abbrev int32 : ℕ := 5
abbrev uint32 : ℕ := 6
abbrev int64 : ℕ := 7
abbrev uint64 : ℕ := 8
abbrev float : ℕ := 9
abbrev double : ℕ := 10
abbrev string : ℕ := 11
abbrev dateTime : ℕ := 12
abbrev guid : ℕ := 13
abbrev byteString : ℕ := 14

end TYPES

/-- The first fifteen entries of `UA_TYPES`; the size of a string is that of its descriptor. -/
def uaTypes (index : ℕ) : DataType :=
  DataType.builtin index ([1, 1, 1, 2, 2, 4, 4, 8, 8, 4, 8, 16, 8, 16, 16].getD index 0)

/-- Numeric ids of the data type nodes, `UA_NS0ID_BOOLEAN` and so on: one more than the index. -/
def NS0ID.boolean : ℕ := 1

/-- `UA_Variant`: empty (`arrayLength = -1`, no data), a scalar (`arrayLength = -1` with data) or
an array.  `data` holds the bytes of the value. -/
structure Variant where
  type : DataType
  arrayLength : Int
  data : Option ByteString
  deriving DecidableEq

namespace Variant

/-- `UA_Variant_init`. -/
def init : Variant :=
  { type := uaTypes TYPES.boolean, arrayLength := -1, data := none }

/-- `UA_Variant_isScalar`. -/
def isScalar (v : Variant) : Bool :=
  v.data.isSome && v.arrayLength = -1

/-- `UA_Variant_setScalarCopy`: copy `type.memSize` bytes from the memory at `p`. -/
def setScalarCopy (p : ByteString) (type : DataType) : Variant :=
  { type := type, arrayLength := -1, data := some (p.take type.memSize) }

/-- The `UA_Int32` at the data pointer. -/
def int32 (v : Variant) : Int32 :=
  Int32.ofBitVec (BitVec.ofNat 32 (Memory.ofBytes (v.data.getD [])))

end Variant

/-- The bytes of a `UA_Int32`. -/
def int32Bytes (value : Int32) : ByteString :=
  Memory.toBytes 4 value.toBitVec.toNat

/-- A `UA_Int32` is read back as it was stored. -/
@[simp]
theorem int32_int32Bytes (value : Int32) (type : DataType) (n : Int) :
    Variant.int32 { type := type, arrayLength := n, data := some (int32Bytes value) } = value := by
  have hlt : value.toBitVec.toNat < 256 ^ 4 := value.toBitVec.isLt
  have hval : Memory.ofBytes (int32Bytes value) = value.toBitVec.toNat := by
    calc
      Memory.ofBytes (int32Bytes value)
          = value.toBitVec.toNat % 256 ^ 4 := Memory.ofBytes_toBytes 4 _
      _ = value.toBitVec.toNat := Nat.mod_eq_of_lt hlt
  simp [Variant.int32, hval]

/-! ## Names of function blocks and ports -/

/-- A text the string dictionary can hold as a name: nonempty and without a zero byte. -/
structure Name where
  text : ByteString
  nonempty : text ≠ []
  zeroFree : 0 ∉ text
  deriving DecidableEq

namespace Name

/-- The byte `.`, which separates the two parts of a variable's id. -/
def dot : UInt8 := 46

/-- The name contains no dot. -/
def DotFree (n : Name) : Prop :=
  dot ∉ n.text

instance (n : Name) : Decidable n.DotFree :=
  inferInstanceAs (Decidable (dot ∉ n.text))

@[ext]
theorem ext {m n : Name} (h : m.text = n.text) : m = n := by
  cases m
  cases n
  cases h
  rfl

end Name

end ForteOpcUa
