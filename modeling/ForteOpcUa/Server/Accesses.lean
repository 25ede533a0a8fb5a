import ForteOpcUa.Interaction.Agreement
import ForteOpcUa.Server.Specs

/-!
# Accesses — what the services do with the node store

`Services` has each service as one function on the map that the node store is meant to be.  Here the
same services are programs over the operations of `ua_nodestore.h`, so that they can be executed
against any node store:

- `Access`           : one operation, as a service calls it,
- `addNodesSingle` … : the services, one access after the other,
- `result_addNodesSingle` … : executed against the map they are the functions of `Services`.
-/

namespace ForteOpcUa

open Interaction
open Interaction.Prog

/-- One operation of the node store. -/
inductive Access
  | get (id : NodeId)
  | editNode (id : NodeId) (callback : Node → StatusCode × Node)
  | insert (node : Node)
  | remove (id : NodeId)

/-- What each operation returns to the service. -/
abbrev Access.Reply : Access → Type
  | get _ => Option Node
  | editNode _ _ => StatusCode
  | insert _ => StatusCode
  | remove _ => StatusCode

/-- The interface of the node store. -/
abbrev Accesses : Signature :=
  { Op := Access, Reply := Access.Reply }

namespace Access

/-! ## Node management -/

/-- `Service_AddReferences_single`. -/
def addReferencesSingle (item : Server.AddReferencesItem) : Prog Accesses StatusCode :=
  .call (S := Accesses) (.editNode item.sourceNodeId (Server.addOneWayReference item))
    fun status =>
      -- Without a source node there is no second entry.
      if status = StatusCode.good then
        perform (S := Accesses) (.editNode item.targetNodeId (Server.addOneWayReference {
          sourceNodeId := item.targetNodeId
          referenceTypeId := item.referenceTypeId
          isForward := !item.isForward
          targetNodeId := item.sourceNodeId }))
      else
        .ret status

/-- `UA_Server_addExistingNode` for a node that names its own id. -/
def addExistingNode (namespacesSize : ℕ) (node : Node) (parentNodeId referenceTypeId : NodeId) :
    Prog Accesses StatusCode :=
  if namespacesSize ≤ node.nodeId.namespaceIndex.toNat then
    .ret StatusCode.badNodeIdInvalid
  else
    .call (S := Accesses) (.get parentNodeId) fun
      | none => .ret StatusCode.badParentNodeIdInvalid
      | some parent =>
          .call (S := Accesses) (.get referenceTypeId) fun
            | none => .ret StatusCode.badReferenceTypeIdInvalid
            | some referenceType =>
                match referenceType.body with
                | .referenceType true => .ret StatusCode.badReferenceNotAllowed
                | .referenceType false =>
                    .call (S := Accesses) (.insert node) fun status =>
                      if status = StatusCode.good then
                        -- `todo: error handling`: the result for the reference is dropped.
                        addReferencesSingle {
                          sourceNodeId := node.nodeId
                          referenceTypeId := referenceType.nodeId
                          isForward := false
                          targetNodeId := parent.nodeId } >>= fun _ => .ret StatusCode.good
                      else
                        -- Whatever the store refused the node for.
                        .ret StatusCode.badNodeIdExists
                | _ => .ret StatusCode.badReferenceTypeIdInvalid

/-- `Service_AddNodes_single_unparsed` and `Service_AddNodes_single`. -/
def addNodesSingle (namespacesSize : ℕ) (item : Server.AddNodesItem) : Prog Accesses StatusCode :=
  if item.requestedNewNodeId.namespaceIndex = 0 then
    .ret StatusCode.badNodeIdRejected
  else
    addExistingNode namespacesSize (Server.nodeFromAttributes item) item.parentNodeId
      item.referenceTypeId

/-- The loop of `Service_DeleteNodes_single` over the references of the node. -/
def deleteReferences (id : NodeId) : List ReferenceNode → Prog Accesses Unit
  | [] => .ret ()
  | r :: rs =>
      let item : Server.DeleteReferencesItem := {
        sourceNodeId := r.targetId
        referenceTypeId := NodeId.null
        isForward := r.isInverse
        targetNodeId := id }
      .call (S := Accesses) (.editNode item.sourceNodeId (Server.deleteOneWayReference item))
        fun _ => deleteReferences id rs

/-- `Service_DeleteNodes_single`. -/
def deleteNodesSingle (id : NodeId) (deleteTargetReferences : Bool) : Prog Accesses StatusCode :=
  .call (S := Accesses) (.get id) fun
    | none => .ret StatusCode.badNodeIdInvalid
    | some node =>
        deleteReferences id (if deleteTargetReferences then node.references else []) >>= fun _ =>
          perform (S := Accesses) (.remove id)

/-! ## View and attributes -/

/-- The loop of `Service_Browse_single` over the references of the node. -/
def describeAll : List ReferenceNode → Prog Accesses (List Server.ReferenceDescription)
  | [] => .ret []
  | r :: rs =>
      if r.isInverse then
        describeAll rs
      else
        .call (S := Accesses) (.get r.targetId) fun
          -- An entry whose target is not found is passed over in silence.
          | none => describeAll rs
          | some target =>
              describeAll rs >>= fun described => .ret ({
                referenceTypeId := r.referenceTypeId
                isForward := true
                nodeId := target.nodeId } :: described)

/-- `Service_Browse_single`. -/
def browseSingle (id : NodeId) : Prog Accesses Server.BrowseResult :=
  .call (S := Accesses) (.get id) fun
    | none => .ret { statusCode := StatusCode.badNodeIdUnknown, references := [] }
    | some node =>
        describeAll node.references >>= fun described =>
          .ret { statusCode := StatusCode.good, references := described }

/-- `Service_Read_single` of the value attribute. -/
def readSingle (id : NodeId) : Prog Accesses Server.DataValue :=
  .call (S := Accesses) (.get id) fun
    | none => .ret { Server.DataValue.init with
        hasStatus := true, status := StatusCode.badNodeIdUnknown }
    | some node => .ret (match node.body with
        | .variable value => { Server.DataValue.init with hasValue := true, value := value }
        | .variableType value => { Server.DataValue.init with hasValue := true, value := value }
        | _ => { Server.DataValue.init with
            hasStatus := true, status := StatusCode.badAttributeIdInvalid })

/-- `Service_Write_single` of the value attribute. -/
def writeSingle (id : NodeId) (value : Variant) : Prog Accesses StatusCode :=
  if value.data = none then
    .ret StatusCode.badNoData
  else
    perform (S := Accesses) (.editNode id (Server.moveValueIntoNode value))

end Access

/-! ## Against the map -/

namespace Server

/-- The operations on the map. -/
def access : Prog.Handler Accesses Server
  | .get id, σ => (σ.get id, σ)
  | .editNode id callback, σ => σ.editNode id callback
  | .insert node, σ =>
      match σ.nodestore.insert node with
      | none => (StatusCode.badNodeIdExists, σ)
      | some nodestore => (StatusCode.good, { σ with nodestore := nodestore })
  | .remove id, σ =>
      (if (σ.get id).isSome then StatusCode.good else StatusCode.badNodeIdUnknown,
        { σ with nodestore := σ.nodestore.remove id })

theorem access_insert_none {σ : Server} {node : Node} (h : σ.nodestore.insert node = none) :
    access (.insert node) σ = (StatusCode.badNodeIdExists, σ) := by
  simp [access, h]

theorem access_insert_some {σ : Server} {node : Node} {nodestore : NodeStore}
    (h : σ.nodestore.insert node = some nodestore) :
    access (.insert node) σ = (StatusCode.good, { σ with nodestore := nodestore }) := by
  simp [access, h]

theorem result_addReferencesSingle (σ : Server) (item : AddReferencesItem) :
    result access (Access.addReferencesSingle item) σ = σ.addReferencesSingle item := by
  rw [Access.addReferencesSingle, addReferencesSingle, result_call]
  by_cases hfirst : (σ.editNode item.sourceNodeId (addOneWayReference item)).1 = StatusCode.good
  · simp [access, hfirst, perform]
  · simp [access, hfirst]

theorem result_addExistingNode (σ : Server) (node : Node) (parentNodeId referenceTypeId : NodeId) :
    result access (Access.addExistingNode σ.namespacesSize node parentNodeId referenceTypeId) σ =
      σ.addExistingNode node parentNodeId referenceTypeId := by
  rw [Access.addExistingNode, addExistingNode]
  split
  · rfl
  · rw [result_call]
    cases hparent : σ.get parentNodeId with
    | none => simp [access, hparent]
    | some parent =>
        cases htype : σ.get referenceTypeId with
        | none => simp [access, hparent, htype]
        | some referenceType =>
            simp only [access, hparent, htype, result_call]
            cases hbody : referenceType.body with
            | referenceType isAbstract =>
                cases isAbstract with
                | true => rfl
                | false =>
                    dsimp only
                    rw [result_call]
                    cases hinsert : σ.nodestore.insert node with
                    | none => simp [access_insert_none hinsert]
                    | some nodestore =>
                        simp [access_insert_some hinsert, result_addReferencesSingle]
            | _ => rfl

theorem result_addNodesSingle (σ : Server) (item : AddNodesItem) :
    result access (Access.addNodesSingle σ.namespacesSize item) σ = σ.addNodesSingle item := by
  rw [Access.addNodesSingle, addNodesSingle]
  split
  · rfl
  · exact result_addExistingNode ..

theorem result_deleteReferences (σ : Server) (id : NodeId) (rs : List ReferenceNode) :
    (result access (Access.deleteReferences id rs) σ).2 =
      rs.foldl (fun σ r => (σ.deleteReferencesSingle {
        sourceNodeId := r.targetId
        referenceTypeId := NodeId.null
        isForward := r.isInverse
        targetNodeId := id }).2) σ := by
  induction rs generalizing σ with
  | nil => rfl
  | cons r rs ih => exact ih _

theorem result_deleteNodesSingle (σ : Server) (id : NodeId) (refs : Bool) :
    result access (Access.deleteNodesSingle id refs) σ = σ.deleteNodesSingle id refs := by
  rw [Access.deleteNodesSingle, deleteNodesSingle, result_call]
  dsimp only [access]
  cases hid : σ.get id with
  | none => rfl
  | some node =>
      dsimp only
      rw [result_bind, result_deleteReferences]
      -- Dropping references leaves the node where it is, so the removal finds it.
      have hthere : σ.get id ≠ none := by simp [hid]
      cases refs with
      | false => simp [perform, access, hid]
      | true =>
          have hstill := get_foldl_deleteReferencesSingle_ne_none hthere
            (fun r => {
              sourceNodeId := r.targetId
              referenceTypeId := NodeId.null
              isForward := r.isInverse
              targetNodeId := id }) node.references
          have hsome := Option.isSome_iff_ne_none.2 hstill
          simp only [if_true, perform, result_call, result_ret, access, hsome]

theorem result_describeAll (σ : Server) (rs : List ReferenceNode) :
    result access (Access.describeAll rs) σ = (rs.filterMap σ.describe, σ) := by
  induction rs with
  | nil => rfl
  | cons r rs ih =>
      rw [Access.describeAll, List.filterMap_cons, describe]
      split
      · exact ih
      · rw [result_call]
        dsimp only [access]
        cases σ.get r.targetId with
        | none => exact ih
        | some target =>
            dsimp only
            rw [result_bind, ih]
            rfl

theorem result_browseSingle (σ : Server) (id : NodeId) :
    result access (Access.browseSingle id) σ = (σ.browseSingle id, σ) := by
  rw [Access.browseSingle, browseSingle, result_call]
  dsimp only [access]
  cases σ.get id with
  | none => rfl
  | some node =>
      dsimp only
      rw [result_bind, result_describeAll]
      rfl

theorem result_readSingle (σ : Server) (id : NodeId) :
    result access (Access.readSingle id) σ = (σ.readSingle id, σ) := by
  rw [Access.readSingle, readSingle, result_call]
  dsimp only [access]
  cases σ.get id with
  | none => rfl
  | some node => rfl

theorem result_writeSingle (σ : Server) (id : NodeId) (value : Variant) :
    result access (Access.writeSingle id value) σ = σ.writeSingle id value := by
  rw [Access.writeSingle, writeSingle]
  split
  · rfl
  · rfl

end Server

end ForteOpcUa
