import ForteOpcUa.Blocks.Values
import ForteOpcUa.Client.Calls

/-!
# ExecuteEvent — the event handlers of the four blocks

`executeEvent` of `OPC_UA_PUBLISH`, `OPC_UA_READ`, `OPC_UA_WRITE` and `OP_UA_SUBSCRIBE`, each as a
program over the client library:

- reading an input is an argument, assigning `OUT` and sending an output event are requests,
- an early `break` is the end of a branch, and a branch that falls through goes on below,
- the statuses that the code only prints are dropped after the request.

The two search loops of `OPC_UA_PUBLISH` compare each target with the wanted name by formatting
its identifier and `strcmp`.  What that pair of calls reports for a node id is the parameter
`sameText`; `exactText` is the report that names exactly the string id of namespace 1.
-/

namespace ForteOpcUa

open Interaction
open Interaction.Prog

/-- Issue one request of the client library or of the block itself. -/
def ask (o : Call) : Prog Client o.Reply :=
  perform (S := Client) o

@[simp]
theorem ask_eq (o : Call) : ask o = Prog.call (S := Client) o Prog.ret :=
  rfl

/-- `scm_nEventREQID`. -/
def eventREQ : ℕ := 0

/-- `scm_nEventCNFID`, the only output event of each block. -/
def eventCNF : ℕ := 0

/-- The address written in `OPC_UA_PUBLISH.cpp` and `OPC_UA_WRITE.cpp`. -/
def localServer : ByteString :=
  ascii "opc.tcp://localhost:16664"

/-! ## OPC_UA_PUBLISH -/

namespace OpcUaPublish

/-- What `sprintf` with `%.*s` and `strcmp` report for the target of a reference. -/
abbrev SameText : Type :=
  NodeId → ByteString → Bool

/-- The report that holds of exactly the string id of namespace 1. -/
def exactText : SameText :=
  fun id wanted => id = NodeId.string 1 wanted

/-- The search loop over all references of all results. -/
def search (sameText : SameText) (bResp : BrowseResponse) (wanted : ByteString) : Bool :=
  bResp.results.any fun result => result.references.any fun ref => sameText ref.nodeId wanted

/-- `UA_Boolean write_value = 0`, as the byte at its address. -/
def writeValue : ByteString :=
  [0]

/-- `int write_type = UA_NS0ID_BOOLEAN`. -/
def writeType : ℕ :=
  NS0ID.boolean

/-- The id of the object of a function block. -/
def objectId (fb_id : Name) : NodeId :=
  NodeId.string 1 fb_id.text

/-- `sprintf(varBrowse_id, "%s.%s", fb_id, var_id)` in `executeEvent`. -/
def varBrowseId (fb_id var_id : Name) : ByteString :=
  fb_id.text ++ Name.dot :: var_id.text

/-- `sprintf(browse, "%s.%s", fb_id, var_id)` in `createVariableNode`. -/
def browseText (fb_id var_id : Name) : ByteString :=
  fb_id.text ++ Name.dot :: var_id.text

/-- The request of `createFBNode`. -/
def objectItem (fb_id : Name) : Server.AddNodesItem where
  parentNodeId := objectsFolder
  referenceTypeId := organizes
  requestedNewNodeId := objectId fb_id
  browseName := { namespaceIndex := 0, name := fb_id.text }
  attributes := .object { locale := ascii "en_US", text := ascii "FB-" ++ fb_id.text }
  named := by simpa [objectId, NodeId.string, NodeId.isUnnamed] using fb_id.nonempty

/-- `createFBNode`. -/
def createFBNode (client : Handle) (fb_id : Name) : Prog Client Unit := do
  let _retval ← ask (.addNode client (objectItem fb_id))

/-- The request of `createVariableNode`. -/
def variableItem (fb_id var_id : Name) : Server.AddNodesItem where
  parentNodeId := objectId fb_id
  referenceTypeId := organizes
  requestedNewNodeId := NodeId.string 1 (browseText fb_id var_id)
  browseName := { namespaceIndex := 0, name := browseText fb_id var_id }
  attributes := .variable
    { locale := ascii "en_US", text := ascii "Variable-" ++ var_id.text }
    (Variant.setScalarCopy writeValue (uaTypes writeType))
  named := by simp [browseText, NodeId.string, NodeId.isUnnamed]

/-- `createVariableNode`. -/
def createVariableNode (client : Handle) (fb_id var_id : Name) : Prog Client Unit := do
  let _retval ← ask (.addNode client (variableItem fb_id var_id))

/-- The inputs of the block at a request: the connection of `IN`, if there is one, and the value
it delivered, which has the type of the source port. -/
structure Inputs where
  connection : Option ConnectionPoint
  IN : CiecAny
  typed : ∀ p, connection = some p → IN.type = p.dataType

/-- `FORTE_OPC_UA_PUBLISH::executeEvent`. -/
def executeEvent (sameText : SameText) (pa_nEIID : ℕ) (inputs : Inputs) : Prog Client Unit := do
  if pa_nEIID = eventREQ then
    match inputs.connection with
    -- The outer `else`: only the log message and the common tail.
    | none => ask (.sendOutputEvent eventCNF)
    | some source =>
        let fb_id := source.sourceFBName
        let var_id := source.sourceDataPointName
        let client ← ask .clientNew
        let retval ← ask (.connect client localServer)
        if retval ≠ StatusCode.good then
          -- `break`
          ask (.clientDelete client)
          ask (.sendOutputEvent eventCNF)
        else
          let bResp ← ask (.browse client objectsFolder)
          -- `if(!node_found)`; an empty or failed reply finds nothing.
          if search sameText bResp fb_id.text = false then
            createFBNode client fb_id
            createVariableNode client fb_id var_id
          else
            -- The object is taken to exist, and only its variable is looked for.
            let bResp ← ask (.browse client (objectId fb_id))
            if search sameText bResp (varBrowseId fb_id var_id) then
              let _retval ← ask
                (.deleteNode client (NodeId.string 1 (varBrowseId fb_id var_id)) false)
            createVariableNode client fb_id var_id
          -- Both branches come here, whatever the services answered.
          let _retval ← ask (.disconnect client)
          ask (.clientDelete client)
          ask (.sendOutputEvent eventCNF)

end OpcUaPublish

/-! ## OPC_UA_READ and OP_UA_SUBSCRIBE -/

/-- The condition under which the reply's value is taken: a good service result and a first
result that holds a scalar `Int32`. -/
def ReadResponse.firstInt32 (rResp : ReadResponse) : Option Int32 :=
  match rResp.results with
  | [] => none
  | result :: _ =>
      if rResp.serviceResult = StatusCode.good && result.hasValue && result.value.isScalar &&
          result.value.type = uaTypes TYPES.int32 then
        some result.value.int32
      else
        none

/-- The handler that `OPC_UA_READ` and `OP_UA_SUBSCRIBE` share.  A failed connect does not leave
the handler: it goes on with the deleted client. -/
def readValue (eventId : ℕ) (SERVER NODE : ByteString) : Prog Client Unit := do
  ask (.assignOUT 0)
  let client ← ask .clientNew
  let connected ← ask (.connect client SERVER)
  -- No `break` here.
  if connected ≠ StatusCode.good then
    ask (.clientDelete client)
    ask (.sendOutputEvent eventId)
  let rResp ← ask (.read client (NodeId.string 1 NODE))
  -- The one condition of the source, and its `else`.
  match rResp.firstInt32 with
  | some value => ask (.assignOUT value)
  | none => ask (.sendOutputEvent eventId)
  let _retval ← ask (.disconnect client)
  ask (.clientDelete client)
  ask (.sendOutputEvent eventId)

/-- `FORTE_OPC_UA_READ::executeEvent`. -/
def OpcUaRead.executeEvent (pa_nEIID : ℕ) (SERVER NODE : ByteString) : Prog Client Unit := do
  if pa_nEIID = eventREQ then
    readValue eventCNF SERVER NODE

/-- `FORTE_OP_UA_SUBSCRIBE::executeEvent`. -/
def OpUaSubscribe.executeEvent (pa_nEIID : ℕ) (SERVER NODE : ByteString) :
    Prog Client Unit := do
  if pa_nEIID = eventREQ then
    readValue eventCNF SERVER NODE

/-! ## OPC_UA_WRITE -/

namespace OpcUaWrite

/-- The node named in `OPC_UA_WRITE.cpp`. -/
def theAnswer : NodeId :=
  NodeId.string 1 (ascii "the.answer")

/-- The variant put into the request: a scalar `Int32` at the address of `value`. -/
def requestValue (value : Int32) : Variant :=
  { type := uaTypes TYPES.int32, arrayLength := -1, data := some (int32Bytes value) }

/-- `FORTE_OPC_UA_WRITE::executeEvent`.  The inputs `SERVER` and `NODE` are declared but never
read, and a failed connect leaves the handler without an output event. -/
def executeEvent (pa_nEIID : ℕ) (_SERVER _NODE : ByteString) (IN : Int16) :
    Prog Client Unit := do
  if pa_nEIID = eventREQ then
    let client ← ask .clientNew
    let retval ← ask (.connect client localServer)
    if retval ≠ StatusCode.good then
      ask (.clientDelete client)
    else
      let value : Int32 := IN.toInt32
      let _wResp ← ask (.write client theAnswer (requestValue value))
      -- The storage type is left at `UA_VARIANT_DATA`, so this frees `&value`.
      ask .writeRequestDeleteMembers
      let _retval ← ask (.disconnect client)
      ask (.clientDelete client)
      ask (.sendOutputEvent eventCNF)

end OpcUaWrite

/-! ## Requests to the four blocks -/

/-- A `REQ` event delivered to one of the blocks, with the inputs it finds. -/
inductive Request
  | publish (inputs : OpcUaPublish.Inputs)
  | read (SERVER NODE : ByteString)
  | subscribe (SERVER NODE : ByteString)
  | write (SERVER NODE : ByteString) (IN : Int16)

/-- The handler that a `REQ` event starts. -/
def Request.program (sameText : OpcUaPublish.SameText) : Request → Prog Client Unit
  | publish inputs => OpcUaPublish.executeEvent sameText eventREQ inputs
  | read SERVER NODE => OpcUaRead.executeEvent eventREQ SERVER NODE
  | subscribe SERVER NODE => OpUaSubscribe.executeEvent eventREQ SERVER NODE
  | write SERVER NODE IN => OpcUaWrite.executeEvent eventREQ SERVER NODE IN

end ForteOpcUa
