import ForteOpcUa.Server.NodeStore

/-!
# Services — the node management, view and attribute services of the server

Each service of `open62541.c` that the blocks call is one function from the server to its reply
and the next server, so that a service is atomic:

- `addNodesSingle`    : `Service_AddNodes_single_unparsed`, `Service_AddNodes_single` and
  `UA_Server_addExistingNode`,
- `deleteNodesSingle` : `Service_DeleteNodes_single`,
- `browseSingle`      : `Service_Browse_single`, without continuation points,
- `readSingle`        : `Service_Read_single` of the value attribute,
- `writeSingle`       : `Service_Write_single` of the value attribute.

Edits go through `editNode`, as `UA_Server_editNode` does in the single-threaded build.  The node
store is the map of `NodeStore`; `Accesses` has the same services over any node store.
-/

namespace ForteOpcUa

/-- The part of `UA_Server` the services use. -/
@[ext]
structure Server where
  namespacesSize : ℕ
  nodestore : NodeStore

namespace Server

/-- A server without any node, with the two namespaces of `UA_Server_new`. -/
def empty : Server :=
  { namespacesSize := 2, nodestore := NodeStore.empty }

/-- The node stored under `id`. -/
abbrev get (σ : Server) (id : NodeId) : Option Node :=
  σ.nodestore.get id

/-- Store a node under its id. -/
def put (σ : Server) (n : Node) : Server :=
  { σ with nodestore := σ.nodestore.put n }

theorem get_put (σ : Server) (n : Node) (id : NodeId) :
    (σ.put n).get id = if id = n.nodeId then some n else σ.get id :=
  σ.nodestore.get_put n id

/-- `UA_Server_editNode`: run the callback on the stored node, in place. -/
def editNode (σ : Server) (id : NodeId) (callback : Node → StatusCode × Node) :
    StatusCode × Server :=
  match σ.get id with
  | none => (StatusCode.badNodeIdUnknown, σ)
  -- The callback works on the node in the store; the id is the key and stays.
  | some n => ((callback n).1, σ.put { (callback n).2 with nodeId := n.nodeId })

/-! ## References -/

/-- `UA_AddReferencesItem`. -/
structure AddReferencesItem where
  sourceNodeId : NodeId
  referenceTypeId : NodeId
  isForward : Bool
  targetNodeId : NodeId

/-- `addOneWayReference`: append one entry to the reference list. -/
def addOneWayReference (item : AddReferencesItem) (n : Node) : StatusCode × Node :=
  (StatusCode.good, { n with
    references := n.references ++ [{
      referenceTypeId := item.referenceTypeId
      isInverse := !item.isForward
      targetId := item.targetNodeId }] })

/-- `Service_AddReferences_single`: the entry at the source, then the opposite one at the
target. -/
def addReferencesSingle (σ : Server) (item : AddReferencesItem) : StatusCode × Server :=
  let first := σ.editNode item.sourceNodeId (addOneWayReference item)
  -- Without a source node there is no second entry.
  if first.1 = StatusCode.good then
    first.2.editNode item.targetNodeId (addOneWayReference {
      sourceNodeId := item.targetNodeId
      referenceTypeId := item.referenceTypeId
      isForward := !item.isForward
      targetNodeId := item.sourceNodeId })
  else
    first

/-- `UA_DeleteReferencesItem`. -/
structure DeleteReferencesItem where
  sourceNodeId : NodeId
  referenceTypeId : NodeId
  isForward : Bool
  targetNodeId : NodeId

/-- The entries `deleteOneWayReference` drops. -/
def DeleteReferencesItem.matches (item : DeleteReferencesItem) (r : ReferenceNode) : Bool :=
  item.targetNodeId = r.targetId && item.referenceTypeId = r.referenceTypeId &&
    item.isForward != r.isInverse

/-- The loop of `deleteOneWayReference` from index `i - 1` down: a matching entry is overwritten
by the last one. -/
def deleteMatching (item : DeleteReferencesItem) :
    ℕ → List ReferenceNode → List ReferenceNode
  | 0, refs => refs
  | i + 1, refs =>
      match refs[i]? with
      | none => deleteMatching item i refs
      | some r =>
          if item.matches r then
            -- The last entry takes the place of the deleted one.
            deleteMatching item i ((refs.set i (refs.getLastD r)).dropLast)
          else
            deleteMatching item i refs

/-- `deleteOneWayReference`. -/
def deleteOneWayReference (item : DeleteReferencesItem) (n : Node) : StatusCode × Node :=
  if n.references.any item.matches then
    (StatusCode.good,
      { n with references := deleteMatching item n.references.length n.references })
  else
    (StatusCode.uncertainReferenceNotDeleted, n)

/-- `Service_DeleteReferences_single` for one direction. -/
def deleteReferencesSingle (σ : Server) (item : DeleteReferencesItem) : StatusCode × Server :=
  σ.editNode item.sourceNodeId (deleteOneWayReference item)

/-! ## Node management -/

/-- The attributes a client sends for the two node classes the blocks create. -/
inductive NodeAttributes
  | object (displayName : LocalizedText)
  | variable (displayName : LocalizedText) (value : Variant)
  deriving DecidableEq

/-- `UA_AddNodesItem` without a type definition, for a node that names its own id. -/
structure AddNodesItem where
  parentNodeId : NodeId
  referenceTypeId : NodeId
  requestedNewNodeId : NodeId
  browseName : QualifiedName
  attributes : NodeAttributes
  named : requestedNewNodeId.isUnnamed = false
  deriving DecidableEq

/-- The node class of the item is `UA_NODECLASS_VARIABLE`. -/
def AddNodesItem.isVariable (item : AddNodesItem) : Bool :=
  match item.attributes with
  | .object _ => false
  | .variable _ _ => true

/-- `objectNodeFromAttributes` and `variableNodeFromAttributes`. -/
def nodeFromAttributes (item : AddNodesItem) : Node :=
  match item.attributes with
  | .object displayName => {
      nodeId := item.requestedNewNodeId
      browseName := item.browseName
      displayName := displayName
      references := []
      body := .object }
  | .variable displayName value => {
      nodeId := item.requestedNewNodeId
      browseName := item.browseName
      displayName := displayName
      references := []
      body := .variable value }

/-- `UA_Server_addExistingNode` for a node that names its own id. -/
def addExistingNode (σ : Server) (node : Node) (parentNodeId referenceTypeId : NodeId) :
    StatusCode × Server :=
  if σ.namespacesSize ≤ node.nodeId.namespaceIndex.toNat then
    (StatusCode.badNodeIdInvalid, σ)
  else
    -- Parent and reference type are looked up before the node is stored.
    match σ.get parentNodeId with
    | none => (StatusCode.badParentNodeIdInvalid, σ)
    | some parent =>
        match σ.get referenceTypeId with
        | none => (StatusCode.badReferenceTypeIdInvalid, σ)
        | some referenceType =>
            match referenceType.body with
            | .referenceType true => (StatusCode.badReferenceNotAllowed, σ)
            | .referenceType false =>
                match σ.nodestore.insert node with
                -- The new node is only freed again; parent and store are untouched.
                | none => (StatusCode.badNodeIdExists, σ)
                | some nodestore =>
                    -- `todo: error handling`: the result for the reference is dropped.
                    (StatusCode.good, (addReferencesSingle { σ with nodestore := nodestore } {
                      sourceNodeId := node.nodeId
                      referenceTypeId := referenceType.nodeId
                      isForward := false
                      targetNodeId := parent.nodeId }).2)
            -- The id names a node of another class.
            | _ => (StatusCode.badReferenceTypeIdInvalid, σ)

/-- `Service_AddNodes_single_unparsed` and `Service_AddNodes_single`: no nodes of namespace 0
over the wire. -/
def addNodesSingle (σ : Server) (item : AddNodesItem) : StatusCode × Server :=
  if item.requestedNewNodeId.namespaceIndex = 0 then
    (StatusCode.badNodeIdRejected, σ)
  else
    σ.addExistingNode (nodeFromAttributes item) item.parentNodeId item.referenceTypeId

/-- `Service_DeleteNodes_single`.  With `deleteReferences` the server asks each referenced node
to drop its entry for the deleted one, under the null reference type. -/
def deleteNodesSingle (σ : Server) (id : NodeId) (deleteReferences : Bool) :
    StatusCode × Server :=
  match σ.get id with
  | none => (StatusCode.badNodeIdInvalid, σ)
  | some node =>
      let cleared :=
        if deleteReferences then
          node.references.foldl (fun σ r => (σ.deleteReferencesSingle {
            sourceNodeId := r.targetId
            referenceTypeId := NodeId.null
            isForward := r.isInverse
            targetNodeId := id }).2) σ
        else
          σ
      (StatusCode.good, { cleared with nodestore := cleared.nodestore.remove id })

/-! ## View -/

/-- `UA_ReferenceDescription`. -/
structure ReferenceDescription where
  referenceTypeId : NodeId
  isForward : Bool
  nodeId : NodeId
  deriving DecidableEq

/-- `UA_BrowseResult`. -/
structure BrowseResult where
  statusCode : StatusCode
  references : List ReferenceDescription
  deriving DecidableEq

/-- `returnRelevantNode` and `fillReferenceDescription` for a forward browse over all reference
types and node classes: an entry in the wrong direction or without a target is skipped. -/
def describe (σ : Server) (r : ReferenceNode) : Option ReferenceDescription :=
  if r.isInverse then
    none
  else
    -- An entry whose target was deleted is passed over in silence.
    (σ.get r.targetId).map fun target => {
      referenceTypeId := r.referenceTypeId
      isForward := true
      nodeId := target.nodeId }

/-- `Service_Browse_single` with the default description of the blocks. -/
def browseSingle (σ : Server) (id : NodeId) : BrowseResult :=
  match σ.get id with
  | none => { statusCode := StatusCode.badNodeIdUnknown, references := [] }
  | some node => {
      statusCode := StatusCode.good
      references := node.references.filterMap σ.describe }

/-! ## Attributes -/

/-- `UA_DataValue`. -/
structure DataValue where
  hasValue : Bool
  value : Variant
  hasStatus : Bool
  status : StatusCode
  deriving DecidableEq

/-- `UA_DataValue_init`. -/
def DataValue.init : DataValue :=
  { hasValue := false, value := Variant.init, hasStatus := false, status := StatusCode.good }

/-- `Service_Read_single` of the value attribute. -/
def readSingle (σ : Server) (id : NodeId) : DataValue :=
  match σ.get id with
  | none => { DataValue.init with hasStatus := true, status := StatusCode.badNodeIdUnknown }
  | some node =>
      match node.body with
      | .variable value => { DataValue.init with hasValue := true, value := value }
      | .variableType value => { DataValue.init with hasValue := true, value := value }
      | _ => { DataValue.init with hasStatus := true, status := StatusCode.badAttributeIdInvalid }

/-- The variant `MoveValueIntoNode` stores: types must agree, up to an enumeration sent as its
base type and a byte string written to a byte array. -/
def castValue (oldV newV : Variant) : Except StatusCode Variant :=
  if oldV.type.typeId = newV.type.typeId then
    .ok newV
  else if oldV.type.namespaceZero && newV.type.namespaceZero &&
      oldV.type.typeIndex = newV.type.typeIndex then
    -- An enumeration sent as `Int32` and the like: same index in namespace 0.
    .ok { newV with type := oldV.type }
  else if oldV.type = uaTypes TYPES.byte && !oldV.isScalar &&
      newV.type = uaTypes TYPES.byteString && newV.isScalar then
    .ok {
      type := uaTypes TYPES.byte
      arrayLength := (newV.data.getD []).length
      data := newV.data }
  else
    .error StatusCode.badTypeMismatch

/-- `MoveAttributeIntoNode` of the value attribute, with `MoveValueIntoNode`. -/
def moveValueIntoNode (newV : Variant) (node : Node) : StatusCode × Node :=
  match node.body with
  | .variable oldV =>
      match castValue oldV newV with
      | .ok value => (StatusCode.good, { node with body := .variable value })
      | .error status => (status, node)
  | .variableType oldV =>
      match castValue oldV newV with
      | .ok value => (StatusCode.good, { node with body := .variableType value })
      | .error status => (status, node)
  | _ => (StatusCode.badNodeClassInvalid, node)

/-- `Service_Write_single` of the value attribute, the value being present in the request. -/
def writeSingle (σ : Server) (id : NodeId) (value : Variant) : StatusCode × Server :=
  if value.data = none then
    (StatusCode.badNoData, σ)
  else
    σ.editNode id (moveValueIntoNode value)

end Server

end ForteOpcUa
