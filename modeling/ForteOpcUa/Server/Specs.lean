import ForteOpcUa.Server.Standard

/-!
# Specs — what each service does to the node store

One specification for each service, so that no later module unfolds a service:

- `addNodesSingle`    : three cases, refused for its place, refused as existing, accepted,
- `deleteNodesSingle` : refused as missing, or the one node is taken out,
- `browseSingle`      : the targets of the forward references that exist,
- `readSingle`, `writeSingle` : the value of a variable node.
-/

namespace ForteOpcUa

namespace Server

theorem nodeId_of_get {σ : Server} {id : NodeId} {n : Node} (h : σ.get id = some n) :
    n.nodeId = id :=
  σ.nodestore.keyed id n h

theorem ext_get {σ τ : Server} (hns : σ.namespacesSize = τ.namespacesSize)
    (hget : ∀ id, σ.get id = τ.get id) : σ = τ :=
  Server.ext hns (NodeStore.ext hget)

/-- Of two nodes stored under one id the later one stays. -/
theorem put_put {σ : Server} {m n : Node} (h : m.nodeId = n.nodeId) :
    (σ.put m).put n = σ.put n := by
  refine ext_get rfl fun id => ?_
  rw [get_put, get_put, get_put, h]
  split <;> rfl

/-- The request names a place where the server would add a node: everything but the id being
free. -/
structure Addable (σ : Server) (item : AddNodesItem) : Prop where
  namespaceNonzero : item.requestedNewNodeId.namespaceIndex ≠ 0
  namespaceKnown : item.requestedNewNodeId.namespaceIndex.toNat < σ.namespacesSize
  parent : σ.get item.parentNodeId ≠ none
  referenceType : σ.IsReferenceType item.referenceTypeId

/-! ## Adding a node -/

/-- The node an accepted request leaves: its only reference is the one back to the parent. -/
def childNode (item : AddNodesItem) : Node :=
  { nodeFromAttributes item with
    references := [{
      referenceTypeId := item.referenceTypeId
      isInverse := true
      targetId := item.parentNodeId }] }

/-- The forward reference an accepted request appends to the parent. -/
def childReference (item : AddNodesItem) : ReferenceNode :=
  { referenceTypeId := item.referenceTypeId
    isInverse := false
    targetId := item.requestedNewNodeId }

/-- The parent after an accepted request. -/
def withReference (n : Node) (r : ReferenceNode) : Node :=
  { n with references := n.references ++ [r] }

@[simp]
theorem nodeFromAttributes_nodeId (item : AddNodesItem) :
    (nodeFromAttributes item).nodeId = item.requestedNewNodeId := by
  unfold nodeFromAttributes
  split <;> rfl

@[simp]
theorem nodeFromAttributes_references (item : AddNodesItem) :
    (nodeFromAttributes item).references = [] := by
  unfold nodeFromAttributes
  split <;> rfl

@[simp]
theorem childNode_nodeId (item : AddNodesItem) :
    (childNode item).nodeId = item.requestedNewNodeId :=
  nodeFromAttributes_nodeId item

/-- An edit that keeps the node id replaces the one node. -/
theorem editNode_of_get {σ : Server} {id : NodeId} {n : Node} {callback : Node → StatusCode × Node}
    (h : σ.get id = some n) (hid : (callback n).2.nodeId = n.nodeId) :
    σ.editNode id callback = ((callback n).1, σ.put (callback n).2) := by
  have hkeep : { (callback n).2 with nodeId := n.nodeId } = (callback n).2 := by
    rw [← hid]
  simp [editNode, h, hkeep]

theorem editNode_of_none {σ : Server} {id : NodeId} {callback : Node → StatusCode × Node}
    (h : σ.get id = none) : σ.editNode id callback = (StatusCode.badNodeIdUnknown, σ) := by
  simp [editNode, h]

/-- The two edits of `Service_AddReferences_single`, source first. -/
theorem addReferencesSingle_eq (σ : Server) (item : AddReferencesItem) {source target : Node}
    (hs : σ.get item.sourceNodeId = some source) (ht : σ.get item.targetNodeId = some target)
    (hne : item.targetNodeId ≠ item.sourceNodeId) :
    σ.addReferencesSingle item = (StatusCode.good,
      (σ.put (withReference source
        ⟨item.referenceTypeId, !item.isForward, item.targetNodeId⟩)).put
          (withReference target ⟨item.referenceTypeId, item.isForward, item.sourceNodeId⟩)) := by
  have hfirst : σ.editNode item.sourceNodeId (addOneWayReference item) =
      (StatusCode.good, σ.put (withReference source
        ⟨item.referenceTypeId, !item.isForward, item.targetNodeId⟩)) :=
    editNode_of_get hs rfl
  have ht' : (σ.put (withReference source
      ⟨item.referenceTypeId, !item.isForward, item.targetNodeId⟩)).get item.targetNodeId =
        some target := by
    have hsid : source.nodeId = item.sourceNodeId := nodeId_of_get hs
    rw [get_put, if_neg (by simpa [withReference, hsid] using hne), ht]
  simp only [addReferencesSingle, hfirst, if_true]
  rw [editNode_of_get ht' rfl]
  simp [addOneWayReference, withReference]

/-- The server after an accepted request with parent `parent`. -/
def adopt (σ : Server) (item : AddNodesItem) (parent : Node) : Server :=
  (σ.put (childNode item)).put (withReference parent (childReference item))

theorem get_adopt {σ : Server} {item : AddNodesItem} {parent : Node}
    (hp : σ.get item.parentNodeId = some parent) (id : NodeId) :
    (σ.adopt item parent).get id =
      if id = item.parentNodeId then some (withReference parent (childReference item))
      else if id = item.requestedNewNodeId then some (childNode item)
      else σ.get id := by
  have hpid : (withReference parent (childReference item)).nodeId = item.parentNodeId := by
    simpa [withReference] using nodeId_of_get hp
  rw [adopt, get_put, get_put, hpid, childNode_nodeId]

section AddNodes

variable {σ : Server} {item : AddNodesItem}

/-- A free place: the node is added below its parent. -/
theorem addNodesSingle_absent (h : σ.Addable item) (hfree : σ.get item.requestedNewNodeId = none) :
    ∃ parent, σ.get item.parentNodeId = some parent ∧
      σ.addNodesSingle item = (StatusCode.good, σ.adopt item parent) := by
  rcases Option.ne_none_iff_exists'.1 h.parent with ⟨parent, hp⟩
  rcases h.referenceType with ⟨referenceType, hr, hbody⟩
  refine ⟨parent, hp, ?_⟩
  have hne : item.parentNodeId ≠ item.requestedNewNodeId := by
    intro heq
    rw [heq, hfree] at hp
    cases hp
  have hpid : parent.nodeId = item.parentNodeId := nodeId_of_get hp
  have hrid : referenceType.nodeId = item.referenceTypeId := nodeId_of_get hr
  have hinsert : σ.nodestore.insert (nodeFromAttributes item) =
      some (σ.nodestore.put (nodeFromAttributes item)) := by
    have hget : σ.nodestore.get item.requestedNewNodeId = none := hfree
    simp [NodeStore.insert, hget]
  have hself : (σ.put (nodeFromAttributes item)).get item.requestedNewNodeId =
      some (nodeFromAttributes item) := by simp [get_put]
  have hparent : (σ.put (nodeFromAttributes item)).get item.parentNodeId = some parent := by
    simp [get_put, hne, hp]
  have href := addReferencesSingle_eq (σ.put (nodeFromAttributes item)) {
      sourceNodeId := item.requestedNewNodeId
      referenceTypeId := item.referenceTypeId
      isForward := false
      targetNodeId := item.parentNodeId } hself hparent hne
  have hplace : ¬ σ.namespacesSize ≤ item.requestedNewNodeId.namespaceIndex.toNat :=
    Nat.not_le.2 h.namespaceKnown
  have hput : { σ with nodestore := σ.nodestore.put (nodeFromAttributes item) } =
      σ.put (nodeFromAttributes item) := rfl
  have hchild : withReference (nodeFromAttributes item)
      ⟨item.referenceTypeId, !false, item.parentNodeId⟩ = childNode item := by
    simp [withReference, childNode]
  simp only [addNodesSingle, addExistingNode, h.namespaceNonzero, hplace, hp, hr, hbody, hinsert,
    hpid, hrid, nodeFromAttributes_nodeId, hput, href, if_false]
  rw [hchild, put_put (m := nodeFromAttributes item) (n := childNode item) (by simp), adopt,
    childReference]

/-- A good place whose id is taken: refused as existing. -/
theorem addNodesSingle_present (h : σ.Addable item) {n : Node}
    (htaken : σ.get item.requestedNewNodeId = some n) :
    σ.addNodesSingle item = (StatusCode.badNodeIdExists, σ) := by
  rcases Option.ne_none_iff_exists'.1 h.parent with ⟨parent, hp⟩
  rcases h.referenceType with ⟨referenceType, hr, hbody⟩
  have hplace : ¬ σ.namespacesSize ≤ item.requestedNewNodeId.namespaceIndex.toNat :=
    Nat.not_le.2 h.namespaceKnown
  have hinsert : σ.nodestore.insert (nodeFromAttributes item) = none := by
    have hget : σ.nodestore.get item.requestedNewNodeId = some n := htaken
    simp [NodeStore.insert, hget]
  simp only [addNodesSingle, addExistingNode, h.namespaceNonzero, hplace, hp, hr, hbody, hinsert,
    nodeFromAttributes_nodeId, if_false]

/-- No place for the node: refused, and not as existing. -/
theorem addNodesSingle_misplaced (h : ¬ σ.Addable item) :
    ∃ status, status ≠ StatusCode.good ∧ status ≠ StatusCode.badNodeIdExists ∧
      σ.addNodesSingle item = (status, σ) := by
  -- In the order in which the server checks: each check that fails has a status of its own.
  by_cases hzero : item.requestedNewNodeId.namespaceIndex = 0
  · refine ⟨StatusCode.badNodeIdRejected, by decide, by decide, ?_⟩
    simp [addNodesSingle, hzero]
  by_cases hplace : σ.namespacesSize ≤ item.requestedNewNodeId.namespaceIndex.toNat
  · refine ⟨StatusCode.badNodeIdInvalid, by decide, by decide, ?_⟩
    simp [addNodesSingle, addExistingNode, hzero, hplace]
  cases hp : σ.get item.parentNodeId with
  | none =>
      refine ⟨StatusCode.badParentNodeIdInvalid, by decide, by decide, ?_⟩
      simp [addNodesSingle, addExistingNode, hzero, hplace, hp]
  | some parent =>
      cases hr : σ.get item.referenceTypeId with
      | none =>
          refine ⟨StatusCode.badReferenceTypeIdInvalid, by decide, by decide, ?_⟩
          simp [addNodesSingle, addExistingNode, hzero, hplace, hp, hr]
      | some referenceType =>
          cases hbody : referenceType.body with
          | referenceType isAbstract =>
              cases isAbstract with
              | true =>
                  refine ⟨StatusCode.badReferenceNotAllowed, by decide, by decide, ?_⟩
                  simp [addNodesSingle, addExistingNode, hzero, hplace, hp, hr, hbody]
              | false =>
                  -- Every check passed, so the place was good after all.
                  refine absurd ⟨hzero, Nat.lt_of_not_le hplace, ?_, ?_⟩ h
                  · simp [hp]
                  · exact ⟨referenceType, hr, hbody⟩
          | _ =>
              refine ⟨StatusCode.badReferenceTypeIdInvalid, by decide, by decide, ?_⟩
              simp [addNodesSingle, addExistingNode, hzero, hplace, hp, hr, hbody]

/-- The three outcomes of `Service_AddNodes_single_unparsed`. -/
theorem addNodesSingle_cases (σ : Server) (item : AddNodesItem) :
    (∃ status, status ≠ StatusCode.good ∧ σ.addNodesSingle item = (status, σ)) ∨
    (∃ parent, σ.Addable item ∧ σ.get item.requestedNewNodeId = none ∧
      σ.get item.parentNodeId = some parent ∧
      σ.addNodesSingle item = (StatusCode.good, σ.adopt item parent)) := by
  -- A good place is refused only for its id; a bad one never comes to the id.
  by_cases h : σ.Addable item
  · cases hget : σ.get item.requestedNewNodeId with
    | none =>
        rcases addNodesSingle_absent h hget with ⟨parent, hp, heq⟩
        exact Or.inr ⟨parent, h, rfl, hp, heq⟩
    | some n =>
        exact Or.inl ⟨StatusCode.badNodeIdExists, by decide, addNodesSingle_present h hget⟩
  · rcases addNodesSingle_misplaced h with ⟨status, hgood, -, heq⟩
    exact Or.inl ⟨status, hgood, heq⟩

end AddNodes

/-! ## Deleting a node -/

/-- Take a node out of the store; the references of other nodes to it stay. -/
def without (σ : Server) (id : NodeId) : Server :=
  { σ with nodestore := σ.nodestore.remove id }

theorem get_without (σ : Server) (id id' : NodeId) :
    (σ.without id).get id' = if id' = id then none else σ.get id' :=
  σ.nodestore.get_remove id id'

theorem deleteNodesSingle_absent {σ : Server} {id : NodeId} (h : σ.get id = none) :
    σ.deleteNodesSingle id false = (StatusCode.badNodeIdInvalid, σ) := by
  simp [deleteNodesSingle, h]

theorem deleteNodesSingle_present {σ : Server} {id : NodeId} {n : Node}
    (h : σ.get id = some n) :
    σ.deleteNodesSingle id false = (StatusCode.good, σ.without id) := by
  simp [deleteNodesSingle, h, without]

/-! ## Nodes that go on existing -/

section Existence

variable {σ : Server} {id : NodeId}

theorem get_editNode_ne_none (h : σ.get id ≠ none) (id' : NodeId)
    (callback : Node → StatusCode × Node) : (σ.editNode id' callback).2.get id ≠ none := by
  cases hget : σ.get id' with
  | none => simpa [editNode, hget] using h
  | some n =>
      have hedit : (σ.editNode id' callback).2 =
          σ.put { (callback n).2 with nodeId := n.nodeId } := by
        simp [editNode, hget]
      rw [hedit, get_put]
      split
      · simp
      · exact h

/-- Adding a node takes none away. -/
theorem get_addNodesSingle_ne_none (h : σ.get id ≠ none) (item : AddNodesItem) :
    (σ.addNodesSingle item).2.get id ≠ none := by
  rcases addNodesSingle_cases σ item with ⟨status, -, heq⟩ | ⟨parent, -, -, hparent, heq⟩
  · rw [heq]
    exact h
  · rw [heq, get_adopt hparent]
    split
    · simp
    · split
      · simp
      · exact h

/-- A node that was added is there. -/
theorem get_addNodesSingle_good {item : AddNodesItem}
    (h : (σ.addNodesSingle item).1 = StatusCode.good) :
    (σ.addNodesSingle item).2.get item.requestedNewNodeId ≠ none := by
  rcases addNodesSingle_cases σ item with ⟨status, hbad, heq⟩ | ⟨parent, -, -, hparent, heq⟩
  · rw [heq] at h
    exact absurd h hbad
  · rw [heq, get_adopt hparent]
    split <;> simp

/-- Dropping the references to a deleted node takes no node away. -/
theorem get_foldl_deleteReferencesSingle_ne_none (h : σ.get id ≠ none)
    (item : ReferenceNode → DeleteReferencesItem) (rs : List ReferenceNode) :
    (rs.foldl (fun σ r => (σ.deleteReferencesSingle (item r)).2) σ).get id ≠ none := by
  induction rs generalizing σ with
  | nil => exact h
  | cons r rs ih => exact ih (get_editNode_ne_none h _ _)

/-- Deleting a node takes no other node away. -/
theorem get_deleteNodesSingle_ne_none (h : σ.get id ≠ none) (id' : NodeId) (refs : Bool) :
    (σ.deleteNodesSingle id' refs).2.get id ≠ none ∨
      id' = id ∧ (σ.deleteNodesSingle id' refs).1 = StatusCode.good := by
  cases hget : σ.get id' with
  | none =>
      left
      simpa [deleteNodesSingle, hget] using h
  | some n =>
      -- The node taken out is the one named; dropping references only edits the others.
      by_cases hid : id' = id
      · exact Or.inr ⟨hid, by simp [deleteNodesSingle, hget]⟩
      · left
        have hkept : ∃ τ : Server, τ.get id ≠ none ∧
            (σ.deleteNodesSingle id' refs).2 = τ.without id' := by
          cases refs with
          | false => exact ⟨σ, h, by simp [deleteNodesSingle, hget, without]⟩
          | true =>
              let item (r : ReferenceNode) : DeleteReferencesItem := {
                sourceNodeId := r.targetId
                referenceTypeId := NodeId.null
                isForward := r.isInverse
                targetNodeId := id' }
              exact ⟨_, get_foldl_deleteReferencesSingle_ne_none h item n.references,
                by simp [deleteNodesSingle, hget, without, item]⟩
        rcases hkept with ⟨τ, hτ, heq⟩
        rw [heq, get_without, if_neg (Ne.symm hid)]
        exact hτ

theorem get_writeSingle_ne_none (h : σ.get id ≠ none) (id' : NodeId) (value : Variant) :
    (σ.writeSingle id' value).2.get id ≠ none := by
  unfold writeSingle
  split
  · exact h
  · exact get_editNode_ne_none h _ _

end Existence

/-! ## Browsing -/

/-- A browse reports the targets of the forward references that exist. -/
theorem mem_browseSingle {σ : Server} {id target : NodeId} :
    (∃ d ∈ (σ.browseSingle id).references, d.nodeId = target) ↔
      ∃ n, σ.get id = some n ∧ n.Lists target ∧ σ.get target ≠ none := by
  cases h : σ.get id with
  | none =>
      simp [browseSingle, h]
  | some n =>
      simp only [browseSingle, h, List.mem_filterMap, Option.some.injEq, exists_eq_left',
        Node.Lists]
      constructor
      · rintro ⟨d, ⟨r, hr, hd⟩, rfl⟩
        unfold describe at hd
        split at hd
        · cases hd
        · rename_i hforward
          rcases Option.map_eq_some_iff.1 hd with ⟨t, ht, rfl⟩
          -- `describe` reports the id the target is stored under, which is the one referred to.
          have htid : t.nodeId = r.targetId := nodeId_of_get ht
          refine ⟨⟨r, hr, by simpa using hforward, htid.symm⟩, ?_⟩
          simp [htid, ht]
      · rintro ⟨⟨r, hr, hforward, rfl⟩, htarget⟩
        rcases Option.ne_none_iff_exists'.1 htarget with ⟨t, ht⟩
        refine ⟨⟨r.referenceTypeId, true, t.nodeId⟩, ⟨r, hr, ?_⟩, nodeId_of_get ht⟩
        simp [describe, hforward, ht]

/-- A browse reports an existing target once for every forward reference to it. -/
theorem countP_browseSingle {σ : Server} {id target : NodeId} {n : Node} (h : σ.get id = some n)
    (htarget : σ.get target ≠ none) :
    (σ.browseSingle id).references.countP (fun d => d.nodeId = target) =
      n.references.countP (ReferenceNode.isForwardTo target) := by
  simp only [browseSingle, h, List.countP_filterMap]
  apply List.countP_congr
  intro r _
  unfold describe ReferenceNode.isForwardTo
  -- Entry by entry: counted on both sides, or dropped on the left and not counted on the right.
  by_cases hinverse : r.isInverse = true
  · simp [hinverse]
  by_cases hid : r.targetId = target
  · subst hid
    rcases Option.ne_none_iff_exists'.1 htarget with ⟨t, ht⟩
    simp [hinverse, ht, nodeId_of_get ht]
  · cases ht : σ.get r.targetId with
    | none => simp [hinverse, hid]
    | some t => simp [hinverse, hid, nodeId_of_get ht]

/-! ## Reading and writing a value -/

end Server

/-- The value attribute, for the two node classes that have one. -/
def Node.value? (n : Node) : Option Variant :=
  match n.body with
  | .variable value => some value
  | .variableType value => some value
  | _ => none

/-- The node with another value attribute. -/
def Node.setValue (n : Node) (value : Variant) : Node :=
  match n.body with
  | .variable _ => { n with body := .variable value }
  | .variableType _ => { n with body := .variableType value }
  | _ => n

@[simp]
theorem Node.setValue_nodeId (n : Node) (value : Variant) : (n.setValue value).nodeId = n.nodeId := by
  unfold Node.setValue
  split <;> rfl

theorem Node.value?_setValue {n : Node} {old : Variant} (h : n.value? = some old)
    (value : Variant) : (n.setValue value).value? = some value := by
  unfold Node.value? at h
  unfold Node.setValue
  split at h <;> simp_all [Node.value?]

theorem Node.setValue_eq_self_iff {n : Node} {old : Variant} (h : n.value? = some old)
    (value : Variant) : n.setValue value = n ↔ value = old := by
  constructor
  · intro heq
    have hval := Node.value?_setValue h value
    rw [heq, h] at hval
    exact (Option.some.inj hval).symm
  · rintro rfl
    rcases n with ⟨id, browseName, displayName, references, body⟩
    cases body with
    | «variable» v => cases h; rfl
    | variableType v => cases h; rfl
    | _ => cases h

namespace Server

/-- A node with a value is read as it is stored. -/
theorem readSingle_value {σ : Server} {id : NodeId} {n : Node} {value : Variant}
    (h : σ.get id = some n) (hvalue : n.value? = some value) :
    σ.readSingle id = { DataValue.init with hasValue := true, value := value } := by
  unfold Node.value? at hvalue
  unfold readSingle
  split at hvalue <;> simp_all

/-- A read reports an unknown node exactly where there is none. -/
theorem readSingle_unknown {σ : Server} {id : NodeId} :
    (σ.readSingle id).status = StatusCode.badNodeIdUnknown ↔ σ.get id = none := by
  unfold readSingle
  split
  · rename_i hget
    simp [hget]
  · rename_i n hget
    rw [hget]
    -- A node that is there is answered with its value or a bad attribute, not as unknown.
    refine iff_of_false ?_ (by simp)
    split <;> simp [DataValue.init, StatusCode.good, StatusCode.badNodeIdUnknown,
      StatusCode.badAttributeIdInvalid]

/-- The only error of the cast is a type mismatch. -/
theorem castValue_error {oldV newV : Variant} {status : StatusCode}
    (h : castValue oldV newV = .error status) : status = StatusCode.badTypeMismatch := by
  unfold castValue at h
  split at h
  · cases h
  split at h
  · cases h
  split at h
  · cases h
  · cases h
    rfl

/-- Moving a value into a node succeeds exactly for a node with a value of a castable type. -/
theorem moveValueIntoNode_good {newV : Variant} {n : Node}
    (h : (moveValueIntoNode newV n).1 = StatusCode.good) :
    ∃ old value, n.value? = some old ∧ castValue old newV = .ok value ∧
      moveValueIntoNode newV n = (StatusCode.good, n.setValue value) := by
  rcases n with ⟨id, browseName, displayName, references, body⟩
  cases body with
  | «variable» old =>
      cases hcast : castValue old newV with
      | ok value =>
          exact ⟨old, value, rfl, hcast, by simp [moveValueIntoNode, hcast, Node.setValue]⟩
      | error status =>
          simp only [moveValueIntoNode, hcast] at h
          rw [castValue_error hcast] at h
          exact absurd h StatusCode.badTypeMismatch_ne_good
  | variableType old =>
      cases hcast : castValue old newV with
      | ok value =>
          exact ⟨old, value, rfl, hcast, by simp [moveValueIntoNode, hcast, Node.setValue]⟩
      | error status =>
          simp only [moveValueIntoNode, hcast] at h
          rw [castValue_error hcast] at h
          exact absurd h StatusCode.badTypeMismatch_ne_good
  | _ => exact absurd h StatusCode.badNodeClassInvalid_ne_good

/-- A write that succeeds stores the value, cast to the type of the stored one. -/
theorem writeSingle_good {σ : Server} {id : NodeId} {newV : Variant}
    (h : (σ.writeSingle id newV).1 = StatusCode.good) :
    ∃ n old value, σ.get id = some n ∧ n.value? = some old ∧ castValue old newV = .ok value ∧
      (σ.writeSingle id newV).2 = σ.put (n.setValue value) := by
  unfold writeSingle at h ⊢
  split at h
  · exact absurd h StatusCode.badNoData_ne_good
  · rename_i hdata
    rw [if_neg hdata]
    cases hget : σ.get id with
    -- Without the node the edit fails, with it the callback decides.
    | none =>
        rw [editNode_of_none hget] at h
        exact absurd h StatusCode.badNodeIdUnknown_ne_good
    | some n =>
        have hgood : (moveValueIntoNode newV n).1 = StatusCode.good := by
          simpa [editNode, hget] using h
        rcases moveValueIntoNode_good hgood with ⟨old, value, hold, hcast, hmove⟩
        refine ⟨n, old, value, rfl, hold, hcast, ?_⟩
        rw [editNode_of_get hget (by rw [hmove]; simp), hmove]

end Server

end ForteOpcUa
