import ForteOpcUa.Server.Standard
import ForteOpcUa.Store.TableServer

/-!
# Startup — the hash table of a server that has just been created

`UA_Server_new` fills namespace 0, one insertion after the other.  Where a node lies depends on its
id and on what was inserted before, so all of these ids are here, in the order of the code; of their
nodes `Server.new` has the two whose contents the publishers use.
-/

namespace ForteOpcUa

namespace Store

open NodeTable

/-- The numeric ids of the nodes that `UA_Server_new` inserts. -/
def namespaceZero : List UInt32 :=
  [31, 45, 33, 32, 34, 35, 36, 37, 38, 39, 40, 41, 44, 46, 47, 48, 49, 50, 51, 52, 53, 54, 56, 84,
    85, 86, 87, 91, 88, 58, 61, 2004, 2020, 2013, 2138, 3051, 90, 24, 1, 26, 10, 11, 27, 2, 4, 6,
    8, 28, 3, 5, 7, 9, 12, 13, 14, 15, 16, 17, 18, 19, 20, 21, 22, 862, 338, 23, 25, 29, 852, 89,
    62, 63, 68, 2253, 2255, 2254, 2268, 2271, 2735, 2269, 2274, 2294, 2256, 2257, 2258, 2259,
    2260, 2262, 2263, 2261, 2264, 2265, 2266, 2992, 2993]

/-- The node under such an id: the one of `Server.new`, or one of which only the id counts. -/
def startupNode (value : UInt32) : Node :=
  (Server.new.get (NodeId.numeric 0 value)).getD
    (Server.namedNode (NodeId.numeric 0 value) [] .object)

namespace TableServer

/-- With namespaces 0 and 1 and the table of `UA_NodeStore_new`. -/
def new (memory : ℕ → Allocator) : TableServer where
  namespacesSize := 2
  nodestore := NodeTable.new
  valid := models_new.faithful.toValid
  memory := memory

/-- Insert nodes, one after the other. -/
def insertAll (τ : TableServer) (nodes : List Node) : TableServer :=
  nodes.foldl (fun τ node => (access (.insert node) τ).2) τ

/-- An insertion leaves a table that finds all it holds, also when it is denied memory. -/
theorem faithful_insert {τ : TableServer} (h : τ.Faithful) (node : Node) :
    (access (.insert node) τ).2.Faithful := by
  rcases NodeTable.Faithful.models h with ⟨c, hm, -⟩
  rcases answers_insert hm (τ.memory 0) node with ⟨reply, ns', c', happ, -, hm'⟩
  rw [Faithful, (access_eq (a := .insert node) happ).2]
  exact hm'.faithful

theorem faithful_insertAll {τ : TableServer} (h : τ.Faithful) (nodes : List Node) :
    (τ.insertAll nodes).Faithful := by
  induction nodes generalizing τ with
  | nil => exact h
  | cons node nodes ih => exact ih (faithful_insert h node)

/-- The server of `UA_Server_new`, on a machine that grants all memory. -/
def startup : TableServer :=
  (new (granting true)).insertAll (namespaceZero.map startupNode)

theorem startup_faithful : startup.Faithful := by
  have hnew : (new (granting true)).Faithful := models_new.faithful
  exact faithful_insertAll hnew _

theorem startup_standard : startup.directory.Standard where
  namespaceOne := by decide
  folder := by decide +kernel
  organizes :=
    ⟨Server.namedNode organizes (ascii "Organizes") (.referenceType false), by decide +kernel, rfl⟩

end TableServer

end Store

end ForteOpcUa
