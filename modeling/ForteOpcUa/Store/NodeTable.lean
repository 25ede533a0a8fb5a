import ForteOpcUa.Memory.MachineIntegers
import ForteOpcUa.Probing.DoubleHashing
import ForteOpcUa.Probing.Table
import ForteOpcUa.Server.NodeStore
import ForteOpcUa.Store.Hashing

/-!
# NodeTable — the hash map behind the node store

`ua_nodestore.c` keeps the nodes in an array of pointers, a place being found by double hashing:

- `NodeTable`       : `struct UA_NodeStore`, an entry being a node at its address,
- `containsNodeId`  : the search for an id,
- `expand`          : the move into an array of another size,
- `insert`, `replace`, `get`, `remove` : the operations of `ua_nodestore.h`,
- `editNode`        : `UA_Server_editNode` of the single-threaded build.

Sizes and counts are 32-bit integers: `u32` and `int32` wrap them where the code does arithmetic.
An operation is `none` where the search loop of the code would not end.
-/

namespace ForteOpcUa

namespace Store

open Memory Probing

/-! ## Memory -/

/-- What `malloc` grants during one operation: an array of so many bytes, the copy of a text in a
node id, and an entry, at a new address.  Arrays stay below 8 GiB. -/
structure Allocator where
  table : ℕ → Bool
  bounded : ∀ bytes, table bytes = true → bytes < 2 ^ 33
  copy : Bool
  entry : Option ℕ

/-- `struct nodeEntry`, without the count of its users. -/
structure NodeEntry where
  address : ℕ
  node : Node
  deriving DecidableEq

/-- The key of an entry. -/
def NodeEntry.nodeId (e : NodeEntry) : NodeId :=
  e.node.nodeId

/-- `struct UA_NodeStore`. -/
structure NodeTable where
  entries : List (Option NodeEntry)
  size : ℕ
  count : ℕ
  sizePrimeIndex : ℕ

namespace NodeTable

/-- The entry at place `i`. -/
def slot (ns : NodeTable) (i : ℕ) : Option NodeEntry :=
  ns.entries.getD i none

/-- Write place `i`. -/
def setSlot (ns : NodeTable) (i : ℕ) (e : Option NodeEntry) : NodeTable :=
  { ns with entries := ns.entries.set i e }

/-! ## Search -/

/-- One step of the loop of `containsNodeId`. -/
def nextIndex (size stride i : ℕ) : ℕ :=
  let j := u32 (i + stride)
  if size ≤ j then j - size else j

/-- The places that `containsNodeId` visits for an id. -/
def scheme (size : ℕ) : Scheme NodeId ℕ where
  start id := mod (hash id).toNat size
  next id := nextIndex size (mod2 (hash id).toNat size)

/-- `containsNodeId`: whether the id was found, and the place where the search stopped.  After
`size` places the loop of the code would visit the same ones again. -/
def containsNodeId (ns : NodeTable) (id : NodeId) : Option (Bool × ℕ) :=
  (search (stopsFor NodeEntry.nodeId ns.slot id) ((scheme ns.size).next id) ns.size
    ((scheme ns.size).start id)).map fun i => ((ns.slot i).isSome, i)

/-! ## Resizing -/

/-- The loop of `expand`: every entry of the old array goes where the search for its id stops in
the new one, until `count` entries are moved. -/
def rehash : List (Option NodeEntry) → ℕ → NodeTable → Option NodeTable
  | [], _, ns => some ns
  | none :: es, j, ns => rehash es j ns
  | some _ :: _, 0, ns => some ns
  | some e :: es, j + 1, ns =>
      match ns.containsNodeId e.nodeId with
      | none => none
      | some (_, i) => rehash es j (ns.setSlot i (some e))

/-- An array without entries. -/
def blank (size count sizePrimeIndex : ℕ) : NodeTable :=
  { entries := List.replicate size none
    size := size
    count := count
    sizePrimeIndex := sizePrimeIndex }

/-- `UA_NodeStore_new`, when it gets its memory. -/
def new : NodeTable :=
  let sizePrimeIndex := higherPrimeIndex 32
  blank (primes.getD sizePrimeIndex 0) 0 sizePrimeIndex

/-- The table is neither too full nor too empty: `expand` leaves it alone. -/
def fits (ns : NodeTable) : Bool :=
  let osize := int32 ns.size
  let count := int32 ns.count
  int32 (count * 2) < osize && (osize < int32 (count * 8) || osize ≤ 32)

/-- `nindex`: where the list of sizes reaches twice the count. -/
def nindex (ns : NodeTable) : ℕ :=
  higherPrimeIndex (u32 (int32 (int32 ns.count * 2)))

/-- `nsize`. -/
def nsize (ns : NodeTable) : ℤ :=
  int32 (primes.getD ns.nindex 0)

/-- The memory for `nsize` pointers is granted; the product is one of 64-bit integers. -/
def granted (alloc : Allocator) (ns : NodeTable) : Bool :=
  alloc.table (8 * ns.nsize % 2 ^ 64).toNat

/-- `expand`. -/
def expand (alloc : Allocator) (ns : NodeTable) : Option (StatusCode × NodeTable) :=
  if ns.fits then
    some (StatusCode.good, ns)
  else if granted alloc ns then
    (rehash ns.entries (int32 ns.count).toNat (blank ns.nsize.toNat ns.count ns.nindex)).map
      fun ns' => (StatusCode.good, ns')
  else
    some (StatusCode.badOutOfMemory, ns)

/-! ## Operations -/

/-- The id of the node itself or, for an unnamed one, a numeric id to be chosen.  A text that
cannot be copied leaves the null id in the copy that is tested. -/
def asksForId (alloc : Allocator) (id : NodeId) : Bool :=
  id.isUnnamed ||
    match id.identifier with
    | .string _ => !alloc.copy
    | .byteString _ => !alloc.copy
    | _ => false

/-- The candidates for the id of an unnamed node: namespace 0 becomes namespace 1. -/
def candidate (ns : UInt16) (identifier : ℕ) : NodeId :=
  NodeId.numeric (if ns = 0 then 1 else ns) (UInt32.ofNat identifier)

/-- The candidate is not in the table. -/
def isFresh (ns : NodeTable) (id : NodeId) : Bool :=
  match ns.containsNodeId id with
  | some (true, _) => false
  | _ => true

/-- The loop of `UA_NodeStore_insert` over candidates, from `count + 1` on. -/
def freshIdentifier (ns : NodeTable) (nsIndex : UInt16) : Option ℕ :=
  let identifier := ns.count + 1
  search (fun i => ns.isFresh (candidate nsIndex i)) (nextIndex ns.size (mod2 identifier ns.size))
    ns.size identifier

/-- The node as it is stored: under its own id, or under a new one. -/
def nameNode (alloc : Allocator) (ns : NodeTable) (node : Node) : Option Node :=
  if asksForId alloc node.nodeId then
    (ns.freshIdentifier node.nodeId.namespaceIndex).map fun i =>
      { node with nodeId := candidate node.nodeId.namespaceIndex i }
  else
    some node

/-- `UA_NodeStore_insert` once there is room. -/
def insertNamed (alloc : Allocator) (ns : NodeTable) (node : Node) :
    Option (StatusCode × Option NodeEntry × NodeTable) :=
  match ns.containsNodeId node.nodeId with
  | none => none
  | some (true, _) => some (StatusCode.badNodeIdExists, none, ns)
  | some (false, i) =>
      match alloc.entry with
      | none => some (StatusCode.badOutOfMemory, none, ns)
      | some address =>
          let e := { address := address, node := node }
          some (StatusCode.good, some e, { ns.setSlot i (some e) with count := u32 (ns.count + 1) })

/-- Three quarters full, the table is expanded before a node is inserted. -/
def makeRoom (alloc : Allocator) (ns : NodeTable) : Option (StatusCode × NodeTable) :=
  if u32 (ns.size * 3) ≤ u32 (ns.count * 4) then
    expand alloc ns
  else
    some (StatusCode.good, ns)

/-- `UA_NodeStore_insert`. -/
def insert (alloc : Allocator) (ns : NodeTable) (node : Node) :
    Option (StatusCode × Option NodeEntry × NodeTable) :=
  match makeRoom alloc ns with
  | none => none
  | some (status, ns') =>
      if status = StatusCode.good then
        match nameNode alloc ns' node with
        | none => none
        | some node' => insertNamed alloc ns' node'
      else
        some (StatusCode.badInternalError, none, ns')

/-- `UA_NodeStore_replace`: the old node must be the one in the table. -/
def replace (alloc : Allocator) (ns : NodeTable) (oldNode : ℕ) (node : Node) :
    Option (StatusCode × Option NodeEntry × NodeTable) :=
  match ns.containsNodeId node.nodeId with
  | none => none
  | some (false, _) => some (StatusCode.badNodeIdUnknown, none, ns)
  | some (true, i) =>
      if (ns.slot i).map NodeEntry.address = some oldNode then
        match alloc.entry with
        | none => some (StatusCode.badOutOfMemory, none, ns)
        | some address =>
            let e := { address := address, node := node }
            some (StatusCode.good, some e, ns.setSlot i (some e))
      else
        some (StatusCode.badInternalError, none, ns)

/-- `UA_NodeStore_get`. -/
def get (ns : NodeTable) (id : NodeId) : Option (Option NodeEntry) :=
  (ns.containsNodeId id).map fun found => if found.1 then ns.slot found.2 else none

/-- The table with one node less: its place is empty. -/
def vacate (ns : NodeTable) (i : ℕ) : NodeTable :=
  { ns.setSlot i none with count := u32 (ns.count - 1) }

/-- The table is very empty. -/
def isSparse (ns : NodeTable) : Bool :=
  u32 (ns.count * 8) < ns.size && 32 < ns.size

/-- `UA_NodeStore_remove`: the place is emptied; a sparse table shrinks. -/
def remove (alloc : Allocator) (ns : NodeTable) (id : NodeId) : Option (StatusCode × NodeTable) :=
  match ns.containsNodeId id with
  | none => none
  | some (false, _) => some (StatusCode.badNodeIdUnknown, ns)
  | some (true, i) =>
      if (ns.vacate i).isSparse then
        -- Whether shrinking succeeds is not looked at.
        (expand alloc (ns.vacate i)).map fun result => (StatusCode.good, result.2)
      else
        some (StatusCode.good, ns.vacate i)

/-- `UA_Server_editNode`: the callback works on the stored node; the id is the key and stays. -/
def editNode (ns : NodeTable) (id : NodeId) (callback : Node → StatusCode × Node) :
    Option (StatusCode × NodeTable) :=
  match ns.containsNodeId id with
  | none => none
  | some (false, _) => some (StatusCode.badNodeIdUnknown, ns)
  | some (true, i) =>
      match ns.slot i with
      | none => some (StatusCode.badNodeIdUnknown, ns)
      | some e =>
          let edited := { (callback e.node).2 with nodeId := e.node.nodeId }
          some ((callback e.node).1, ns.setSlot i (some { e with node := edited }))

end NodeTable

end Store

end ForteOpcUa
