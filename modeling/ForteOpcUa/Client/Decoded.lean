import ForteOpcUa.Client.Calls
import ForteOpcUa.Memory.CString

/-!
# Decoded — browse replies as they lie in memory

`UA_NodeId_decodeBinary` fills a union behind a tag, and a reader who ignores the tag sees the
bytes of one member as another.  The types here keep what such a reader can tell apart:

- `RawString`         : a null string (length `-1`) is not an empty one (length `0`),
- `RawNodeId`         : namespace index and tagged identifier,
- `RawBrowseResponse` : a reply over these ids, `decoded` being what the tags say it is,
- `Platform`, `printed`: what `%.*s` makes of `identifier.string`, whatever the tag.
-/

namespace ForteOpcUa

/-! ## Identifiers -/

/-- `UA_String` as `UA_String_decodeBinary` leaves it: `none` is the null string. -/
abbrev RawString : Type :=
  Option ByteString

/-- The identifier of a decoded node id, with the tag of `UA_NodeIdType`. -/
inductive RawIdentifier
  | numeric (value : UInt32)
  | string (value : RawString)
  | guid (value : Vector UInt8 16)
  | byteString (value : RawString)
  deriving DecidableEq

/-- The identifier without the difference between null and empty. -/
def RawIdentifier.decoded : RawIdentifier → Identifier
  | numeric value => .numeric value
  | string value => .string (value.getD [])
  | guid value => .guid value
  | byteString value => .byteString (value.getD [])

/-- A decoded `UA_NodeId`. -/
structure RawNodeId where
  namespaceIndex : UInt16
  identifier : RawIdentifier
  deriving DecidableEq

namespace RawNodeId

/-- The node id that namespace index and tag make of it. -/
def decoded (id : RawNodeId) : NodeId :=
  { namespaceIndex := id.namespaceIndex, identifier := id.identifier.decoded }

/-- The string id `value` of namespace `ns`. -/
def string (ns : UInt16) (value : ByteString) : RawNodeId :=
  { namespaceIndex := ns, identifier := .string (some value) }

/-- The identifier type is `UA_NODEIDTYPE_STRING`. -/
def IsString (id : RawNodeId) : Prop :=
  ∃ value, id.identifier = .string value

/-- A nonempty string is decoded from nothing but itself. -/
theorem decoded_eq_string {id : RawNodeId} {ns : UInt16} {value : ByteString} (h : value ≠ []) :
    id.decoded = NodeId.string ns value ↔ id = string ns value := by
  rcases id with ⟨ns', identifier⟩
  cases identifier with
  | numeric _ => simp [decoded, RawIdentifier.decoded, NodeId.string, string]
  | guid _ => simp [decoded, RawIdentifier.decoded, NodeId.string, string]
  | byteString _ => simp [decoded, RawIdentifier.decoded, NodeId.string, string]
  | string raw =>
      cases raw with
      | none => simp [decoded, RawIdentifier.decoded, NodeId.string, string, h.symm]
      | some bytes => simp [decoded, RawIdentifier.decoded, NodeId.string, string]

end RawNodeId

/-! ## Replies -/

/-- A decoded `UA_ReferenceDescription`. -/
structure RawReferenceDescription where
  referenceTypeId : NodeId
  isForward : Bool
  nodeId : RawNodeId
  deriving DecidableEq

/-- A decoded `UA_BrowseResult`. -/
structure RawBrowseResult where
  statusCode : StatusCode
  references : List RawReferenceDescription
  deriving DecidableEq

/-- A decoded `UA_BrowseResponse`. -/
structure RawBrowseResponse where
  serviceResult : StatusCode
  results : List RawBrowseResult
  deriving DecidableEq

/-- The reference with its target as the tag says. -/
def RawReferenceDescription.decoded (ref : RawReferenceDescription) :
    Server.ReferenceDescription where
  referenceTypeId := ref.referenceTypeId
  isForward := ref.isForward
  nodeId := ref.nodeId.decoded

/-- The result with its targets as their tags say. -/
def RawBrowseResult.decoded (result : RawBrowseResult) : Server.BrowseResult where
  statusCode := result.statusCode
  references := result.references.map RawReferenceDescription.decoded

namespace RawBrowseResponse

/-- The reply with its targets as their tags say. -/
def decoded (bResp : RawBrowseResponse) : BrowseResponse where
  serviceResult := bResp.serviceResult
  results := bResp.results.map RawBrowseResult.decoded

/-- The targets in the order in which nested loops over results and references visit them. -/
def targets (bResp : RawBrowseResponse) : List RawNodeId :=
  bResp.results.flatMap fun result => result.references.map RawReferenceDescription.nodeId

end RawBrowseResponse

/-! ## What `%.*s` prints -/

/-- What the C library and the machine decide about a read that C leaves undefined: the text that
`%.*s` prints for a null pointer under a precision, and for a pointer and a length made of the
bytes of a guid.  `none` is an access fault. -/
structure Platform where
  null : Int32 → Option ByteString
  guid : Vector UInt8 16 → Option ByteString

/-- The GNU C library, whose `(null)` needs six places; a read at an address made of a guid
faults. -/
def glibc : Platform where
  null precision := if precision < 0 ∨ 6 ≤ precision then some (ascii "(null)") else some []
  guid _ := none

namespace Platform

variable (P : Platform)

/-- `%.*s` with a null pointer; under precision `0` nothing is read. -/
def printedNull (precision : Int32) : Option ByteString :=
  if precision = 0 then some [] else (P.null precision).map (Memory.upTo 0)

/-- `%.*s` with the length and the data of a string: at most its bytes, up to the first zero. -/
def printedString : RawString → Option ByteString
  | some value => some (Memory.upTo 0 value)
  | none => P.printedNull (-1)

/-- `%.*s` with `identifier.string.length` and `identifier.string.data`.  The union was zeroed
before it was filled, so a numeric id leaves its value as the length of a null pointer. -/
def printed (id : RawNodeId) : Option ByteString :=
  match id.identifier with
  | .numeric value => P.printedNull value.toInt32
  | .string value => P.printedString value
  | .guid value => (P.guid value).map (Memory.upTo 0)
  | .byteString value => P.printedString value

end Platform

end ForteOpcUa
