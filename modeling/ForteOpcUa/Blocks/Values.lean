import ForteOpcUa.Server.Types

/-!
# Values — what travels on FORTE data connections

- `CiecType`, `CiecAny` : the elementary IEC types with an OPC UA counterpart and their values,
- `ConnectionPoint`     : the source of a data connection, a function block and one of its output
  ports; the port index is within the block's interface.
-/

namespace ForteOpcUa

/-- The elementary IEC types that the list beside `write_type` pairs with OPC UA types. -/
inductive CiecType
  | bool
  | sint
  | usint
  | int
  | uint
  | dint
  | udint
  | lint
  | ulint
  | real
  | lreal
  | string
  deriving DecidableEq

/-- The index of the OPC UA counterpart in the type table. -/
def CiecType.counterpart : CiecType → ℕ
  | bool => TYPES.boolean
  | sint => TYPES.sbyte
  | usint => TYPES.byte
  | int => TYPES.int16
  | uint => TYPES.uint16
  | dint => TYPES.int32
  | udint => TYPES.uint32
  | lint => TYPES.int64
  | ulint => TYPES.uint64
  | real => TYPES.float
  | lreal => TYPES.double
  | string => TYPES.string

/-- A value of an elementary type; `REAL` and `LREAL` by their bit patterns. -/
inductive CiecAny
  | bool (value : Bool)
  | sint (value : Int8)
  | usint (value : UInt8)
  | int (value : Int16)
  | uint (value : UInt16)
  | dint (value : Int32)
  | udint (value : UInt32)
  | lint (value : Int64)
  | ulint (value : UInt64)
  | real (bits : UInt32)
  | lreal (bits : UInt64)
  | string (value : ByteString)
  deriving DecidableEq

namespace CiecAny

/-- The type of a value. -/
def type : CiecAny → CiecType
  | bool _ => .bool
  | sint _ => .sint
  | usint _ => .usint
  | int _ => .int
  | uint _ => .uint
  | dint _ => .dint
  | udint _ => .udint
  | lint _ => .lint
  | ulint _ => .ulint
  | real _ => .real
  | lreal _ => .lreal
  | string _ => .string

/-- The bytes of the value as its OPC UA counterpart stores them. -/
def bytes : CiecAny → ByteString
  | bool value => Memory.toBytes 1 value.toNat
  | sint value => Memory.toBytes 1 value.toBitVec.toNat
  | usint value => Memory.toBytes 1 value.toNat
  | int value => Memory.toBytes 2 value.toBitVec.toNat
  | uint value => Memory.toBytes 2 value.toNat
  | dint value => Memory.toBytes 4 value.toBitVec.toNat
  | udint value => Memory.toBytes 4 value.toNat
  | lint value => Memory.toBytes 8 value.toBitVec.toNat
  | ulint value => Memory.toBytes 8 value.toNat
  | real bits => Memory.toBytes 4 bits.toNat
  | lreal bits => Memory.toBytes 8 bits.toNat
  | string value => value

end CiecAny

/-! ## Connections -/

/-- An output port: an entry of `m_aunDONames` and `m_aunDODataTypeNames`. -/
structure OutputPort where
  name : Name
  dataType : CiecType
  deriving DecidableEq

/-- The part of a `CFunctionBlock` a connection end can ask for. -/
structure FunctionBlock where
  instanceName : Name
  outputs : List OutputPort
  deriving DecidableEq

/-- `SConnectionPoint`: a block and the index of one of its output ports. -/
structure ConnectionPoint where
  mFB : FunctionBlock
  mPortId : Fin mFB.outputs.length

namespace ConnectionPoint

/-- The instance name of the source block, `sourceFBName`. -/
def sourceFBName (p : ConnectionPoint) : Name :=
  p.mFB.instanceName

/-- The name of the source port, `sourceDataPointName`. -/
def sourceDataPointName (p : ConnectionPoint) : Name :=
  (p.mFB.outputs.get p.mPortId).name

/-- The type of the source port. -/
def dataType (p : ConnectionPoint) : CiecType :=
  (p.mFB.outputs.get p.mPortId).dataType

end ConnectionPoint

end ForteOpcUa
