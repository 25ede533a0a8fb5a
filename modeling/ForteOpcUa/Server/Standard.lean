import ForteOpcUa.Server.Services

/-!
# Standard — what `UA_Server_new` sets up

Of the nodes of namespace 0 the publishers use two: the objects folder, below which they create
their objects, and the reference type `Organizes`.  `Server.new` holds these two; `Standard` is
what every server that `UA_Server_new` creates offers, with at least namespaces 0 and 1.
-/

namespace ForteOpcUa

namespace Server

/-- `copyNames`: browse name and display name of a node of namespace 0. -/
def namedNode (id : NodeId) (name : ByteString) (body : NodeBody) : Node :=
  { nodeId := id
    browseName := { namespaceIndex := 0, name := name }
    displayName := { locale := ascii "en_US", text := name }
    references := []
    body := body }

/-- The part of `UA_Server_new` that the publishers use. -/
def new : Server :=
  (empty.put (namedNode organizes (ascii "Organizes") (.referenceType false))).put
    (namedNode objectsFolder (ascii "Objects") .object)

/-- A node class that `UA_Server_addExistingNode` accepts as a reference type. -/
def IsReferenceType (σ : Server) (id : NodeId) : Prop :=
  ∃ n, σ.get id = some n ∧ n.body = .referenceType false

/-- Namespace 1, the objects folder and the reference type `Organizes` are there. -/
structure Standard (σ : Server) : Prop where
  namespaceOne : 2 ≤ σ.namespacesSize
  folder : σ.get objectsFolder ≠ none
  organizes : σ.IsReferenceType organizes

end Server

end ForteOpcUa
