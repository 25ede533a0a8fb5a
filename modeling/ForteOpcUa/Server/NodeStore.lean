import ForteOpcUa.Server.Types

/-!
# NodeStore — nodes keyed by their node ids

`NodeStore` is the map that `ua_nodestore.h` documents: at most one node per id, each stored
under its own id, which is a field of the structure.  `insert` refuses an id that is taken and
`remove` takes a node out.

The store of the server is the hash table of `Store.NodeTable`, which is this map as long as no
removal cuts the walk to another node (`TableServer.access_agrees`).
-/

namespace ForteOpcUa

/-- `UA_ReferenceNode`: one entry of a node's reference list. -/
structure ReferenceNode where
  referenceTypeId : NodeId
  isInverse : Bool
  targetId : NodeId
  deriving DecidableEq

/-- The entry is a forward reference to `target`. -/
def ReferenceNode.isForwardTo (target : NodeId) (r : ReferenceNode) : Bool :=
  !r.isInverse && r.targetId = target

/-- The node class and the attributes of it that the services read. -/
inductive NodeBody
  | object
  | variable (value : Variant)
  | method
  | objectType
  | variableType (value : Variant)
  | referenceType (isAbstract : Bool)
  | dataType
  | view
  deriving DecidableEq

/-- `UA_Node`. -/
structure Node where
  nodeId : NodeId
  browseName : QualifiedName
  displayName : LocalizedText
  references : List ReferenceNode
  body : NodeBody
  deriving DecidableEq

/-- The node has a forward reference to `target`. -/
def Node.Lists (n : Node) (target : NodeId) : Prop :=
  ∃ r ∈ n.references, r.isInverse = false ∧ r.targetId = target

/-- What `UA_NodeStore` is meant to be: every node is found under its own id. -/
structure NodeStore where
  get : NodeId → Option Node
  keyed : ∀ id n, get id = some n → n.nodeId = id

namespace NodeStore

@[ext]
theorem ext {ns ns' : NodeStore} (h : ∀ id, ns.get id = ns'.get id) : ns = ns' := by
  cases ns
  cases ns'
  have hget := funext h
  cases hget
  rfl

/-- A map without nodes, as after `UA_NodeStore_new`. -/
def empty : NodeStore :=
  { get := fun _ => none
    keyed := by
      intro id n h
      cases h }

/-- Store `n` under its id, whatever was there. -/
def put (ns : NodeStore) (n : Node) : NodeStore :=
  { get := Function.update ns.get n.nodeId (some n)
    keyed := by
      intro id m h
      by_cases hid : id = n.nodeId
      · subst hid
        rw [Function.update_self] at h
        cases h
        rfl
      · rw [Function.update_of_ne hid] at h
        exact ns.keyed id m h }

@[simp]
theorem get_put_self (ns : NodeStore) (n : Node) : (ns.put n).get n.nodeId = some n :=
  Function.update_self ..

theorem get_put (ns : NodeStore) (n : Node) (id : NodeId) :
    (ns.put n).get id = if id = n.nodeId then some n else ns.get id := by
  by_cases hid : id = n.nodeId
  · subst hid
    simp
  · simp [put, hid]

/-- `UA_NodeStore_insert` on the map, for a node that names its id; `none` is `BADNODEIDEXISTS`. -/
def insert (ns : NodeStore) (n : Node) : Option NodeStore :=
  match ns.get n.nodeId with
  | some _ => none
  | none => some (ns.put n)

/-- What `UA_NodeStore_remove` promises: no other node is touched. -/
def remove (ns : NodeStore) (id : NodeId) : NodeStore :=
  { get := Function.update ns.get id none
    keyed := by
      intro id' m h
      by_cases hid : id' = id
      · subst hid
        rw [Function.update_self] at h
        cases h
      · rw [Function.update_of_ne hid] at h
        exact ns.keyed id' m h }

theorem get_remove (ns : NodeStore) (id id' : NodeId) :
    (ns.remove id).get id' = if id' = id then none else ns.get id' := by
  by_cases hid : id' = id
  · subst hid
    simp [remove]
  · simp [remove, hid]

end NodeStore

end ForteOpcUa
