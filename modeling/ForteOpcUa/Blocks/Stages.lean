import ForteOpcUa.Blocks.ExecuteEvent

/-!
# Stages — the handlers cut at their requests

A handler stands, between two requests, at one of a few points.  Each point is a program of its
own, the rest of the handler from there on, and `executeEvent` is the program of the first point.
The trace theorems say what each stage can do under any environment; the concurrency results use
the stages as the program counters of a publisher.
-/

namespace ForteOpcUa

open Interaction
open Interaction.Prog

/-- Disconnect, release the client and confirm. -/
def finish (client : Handle) (eventId : ℕ) : Prog Client Unit :=
  .call (.disconnect client) fun _ =>
    .call (.clientDelete client) fun _ =>
      .call (.sendOutputEvent eventId) .ret

/-! ## OPC_UA_PUBLISH -/

namespace OpcUaPublish

variable (sameText : SameText) (client : Handle) (fb_id var_id : Name)

/-- About to add the variable node. -/
def addItemStage : Prog Client Unit :=
  .call (.addNode client (variableItem fb_id var_id)) fun _ => finish client eventCNF

/-- About to delete the variable node that was found. -/
def deleteStage : Prog Client Unit :=
  .call (.deleteNode client (NodeId.string 1 (varBrowseId fb_id var_id)) false) fun _ =>
    addItemStage client fb_id var_id

/-- About to browse the object of the function block. -/
def browseItemStage : Prog Client Unit :=
  .call (.browse client (objectId fb_id)) fun bResp =>
    if search sameText bResp (varBrowseId fb_id var_id) then
      deleteStage client fb_id var_id
    else
      addItemStage client fb_id var_id

/-- About to add the object of the function block. -/
def addObjectStage : Prog Client Unit :=
  .call (.addNode client (objectItem fb_id)) fun _ => addItemStage client fb_id var_id

/-- About to browse the objects folder. -/
def browseStage : Prog Client Unit :=
  .call (.browse client objectsFolder) fun bResp =>
    if search sameText bResp fb_id.text = false then
      addObjectStage client fb_id var_id
    else
      browseItemStage sameText client fb_id var_id

/-- About to connect. -/
def connectStage : Prog Client Unit :=
  .call (.connect client localServer) fun retval =>
    if retval = StatusCode.good then
      browseStage sameText client fb_id var_id
    else
      .call (.clientDelete client) fun _ => .call (.sendOutputEvent eventCNF) .ret

/-- About to create the client. -/
def newStage : Prog Client Unit :=
  .call .clientNew fun client => connectStage sameText client fb_id var_id

variable {sameText client fb_id var_id}

/-- The id of an object is a string, that of the objects folder a number. -/
theorem objectId_ne_objectsFolder (fb_id : Name) : objectId fb_id ≠ objectsFolder := by
  simp [objectId, objectsFolder]

/-- Without a connection the handler only confirms. -/
theorem executeEvent_unconnected {inputs : Inputs} (h : inputs.connection = none) :
    executeEvent sameText eventREQ inputs = .call (.sendOutputEvent eventCNF) .ret := by
  simp [executeEvent, h]

/-- With a connection the handler is its first stage. -/
theorem executeEvent_connected {inputs : Inputs} {source : ConnectionPoint}
    (h : inputs.connection = some source) :
    executeEvent sameText eventREQ inputs =
      newStage sameText source.sourceFBName source.sourceDataPointName := by
  -- The `do` block reassociates to the stages, one `bind` after the other.
  simp [executeEvent, h, createFBNode, createVariableNode, newStage, connectStage, browseStage,
    browseItemStage, addObjectStage, deleteStage, addItemStage, finish]

/-- The requests of a publisher of data point `(fb_id, var_id)`. -/
def Issued (fb_id var_id : Name) : Call → Prop
  | .clientNew => True
  | .connect _ url => url = localServer
  | .browse _ id => id = objectsFolder ∨ id = objectId fb_id
  | .addNode _ item => item = objectItem fb_id ∨ item = variableItem fb_id var_id
  | .deleteNode _ id deleteTargetReferences =>
      id = NodeId.string 1 (varBrowseId fb_id var_id) ∧ deleteTargetReferences = false
  | .read _ _ => False
  | .write _ _ _ => False
  | .writeRequestDeleteMembers => False
  | .disconnect _ => True
  | .clientDelete _ => True
  | .assignOUT _ => False
  | .sendOutputEvent eventId => eventId = eventCNF

/-- A publisher names no node but its own object and variable and the objects folder. -/
theorem newStage_issued (sameText : SameText) (fb_id var_id : Name) :
    (newStage sameText fb_id var_id).Always (Issued fb_id var_id) := by
  simp [newStage, connectStage, browseStage, browseItemStage, addObjectStage, deleteStage,
    addItemStage, finish, Issued]

end OpcUaPublish

/-! ## OPC_UA_READ and OP_UA_SUBSCRIBE -/

/-- About to read, whatever happened to the connection. -/
def readStage (eventId : ℕ) (client : Handle) (NODE : ByteString) : Prog Client Unit :=
  .call (.read client (NodeId.string 1 NODE)) fun rResp =>
    match rResp.firstInt32 with
    | some value => .call (.assignOUT value) fun _ => finish client eventId
    | none => .call (.sendOutputEvent eventId) fun _ => finish client eventId

theorem readValue_eq (eventId : ℕ) (SERVER NODE : ByteString) :
    readValue eventId SERVER NODE =
      .call (.assignOUT 0) fun _ =>
        .call .clientNew fun client =>
          .call (.connect client SERVER) fun connected =>
            if connected = StatusCode.good then
              readStage eventId client NODE
            else
              .call (.clientDelete client) fun _ =>
                .call (.sendOutputEvent eventId) fun _ => readStage eventId client NODE := by
  simp only [readValue, ask_eq, call_bind, ret_bind, ne_eq, ite_not]
  rfl

/-! ## OPC_UA_WRITE -/

namespace OpcUaWrite

theorem executeEvent_eq (SERVER NODE : ByteString) (IN : Int16) :
    executeEvent eventREQ SERVER NODE IN =
      .call .clientNew fun client =>
        .call (.connect client localServer) fun retval =>
          if retval = StatusCode.good then
            .call (.write client theAnswer (requestValue IN.toInt32)) fun _ =>
              .call .writeRequestDeleteMembers fun _ => finish client eventCNF
          else
            .call (.clientDelete client) .ret := by
  simp [executeEvent, finish]

end OpcUaWrite

end ForteOpcUa
