import ForteOpcUa.Interaction.Interleaving
import ForteOpcUa.Server.Services

/-!
# Calls — the client library as requests and their answers

The blocks reach the outside through the client functions of `open62541.c` and through their own
outputs.  Each of these is one request of the signature `Client`:

- `Station` is the memory of one block: the state of each client it has created,
- `Network` maps an address to the server that listens there,
- `serveBy` answers a request, delegating to the services of a server, and `serve` is the one for
  the services of `Server`,
- `failed` is what `__UA_Client_Service` returns when the transport fails: an initialised response
  whose service result is the error.
-/

namespace ForteOpcUa

open Interaction

/-- A pointer to a `UA_Client`. -/
abbrev Handle : Type :=
  ℕ

/-! ## The interface -/

/-- What a block can ask for while it handles an event. -/
inductive Call
  | clientNew
  | connect (client : Handle) (endpointUrl : ByteString)
  | browse (client : Handle) (nodeId : NodeId)
  | addNode (client : Handle) (item : Server.AddNodesItem)
  | deleteNode (client : Handle) (nodeId : NodeId) (deleteTargetReferences : Bool)
  | read (client : Handle) (nodeId : NodeId)
  | write (client : Handle) (nodeId : NodeId) (value : Variant)
  | writeRequestDeleteMembers
  | disconnect (client : Handle)
  | clientDelete (client : Handle)
  | assignOUT (value : Int32)
  | sendOutputEvent (eventId : ℕ)
  deriving DecidableEq

/-- `UA_BrowseResponse`. -/
structure BrowseResponse where
  serviceResult : StatusCode
  results : List Server.BrowseResult
  deriving DecidableEq

/-- `UA_ReadResponse`. -/
structure ReadResponse where
  serviceResult : StatusCode
  results : List Server.DataValue
  deriving DecidableEq

/-- `UA_WriteResponse`. -/
structure WriteResponse where
  serviceResult : StatusCode
  results : List StatusCode
  deriving DecidableEq

/-- The reply to each request. -/
abbrev Call.Reply : Call → Type
  | clientNew => Handle
  | connect _ _ => StatusCode
  | browse _ _ => BrowseResponse
  | addNode _ _ => StatusCode
  | deleteNode _ _ _ => StatusCode
  | read _ _ => ReadResponse
  | write _ _ _ => WriteResponse
  | writeRequestDeleteMembers => Unit
  | disconnect _ => StatusCode
  | clientDelete _ => Unit
  | assignOUT _ => Unit
  | sendOutputEvent _ => Unit

/-- The signature of the client library and the block's outputs. -/
abbrev Client : Signature :=
  { Op := Call, Reply := Call.Reply }

/-! ## Clients and servers -/

/-- The state of one client of a block. -/
inductive Link
  | absent
  | fresh
  | connected (endpointUrl : ByteString)
  | broken
  | closed
  deriving DecidableEq

/-- The clients of one block: the next handle and the state of each. -/
structure Station where
  next : Handle
  link : Handle → Link

/-- No client has been created. -/
def Station.init : Station :=
  { next := 0, link := fun _ => .absent }

/-- Set the state of one client. -/
def Station.set (st : Station) (client : Handle) (l : Link) : Station :=
  { st with link := Function.update st.link client l }

@[simp]
theorem Station.set_link_self (st : Station) (client : Handle) (l : Link) :
    (st.set client l).link client = l :=
  Function.update_self ..

/-- A new client, under the next handle. -/
def Station.create (st : Station) : Station :=
  { (st.set st.next .fresh) with next := st.next + 1 }

@[simp]
theorem Station.create_link_self (st : Station) : st.create.link st.next = .fresh :=
  Function.update_self ..

/-- The servers, by address. -/
abbrev Network : Type :=
  ByteString → Option Server

/-- The services of a server, each with its result and the next state of the server. -/
structure Services (τ : Type) where
  browseSingle : τ → NodeId → Server.BrowseResult × τ
  addNodesSingle : τ → Server.AddNodesItem → StatusCode × τ
  deleteNodesSingle : τ → NodeId → Bool → StatusCode × τ
  readSingle : τ → NodeId → Server.DataValue × τ
  writeSingle : τ → NodeId → Variant → StatusCode × τ

/-- The services of `Server`; browsing and reading leave it as it is. -/
def Server.services : Services Server where
  browseSingle σ id := (σ.browseSingle id, σ)
  addNodesSingle σ item := σ.addNodesSingle item
  deleteNodesSingle σ id deleteTargetReferences := σ.deleteNodesSingle id deleteTargetReferences
  readSingle σ id := (σ.readSingle id, σ)
  writeSingle σ id value := σ.writeSingle id value

/-- Run a service at the server a client is connected to; without a connection the request gets
`lost` and no server is touched. -/
def atServer {β τ : Type} (client : Handle) (st : Station) (net : ByteString → Option τ) (lost : β)
    (service : τ → β × τ) : β × Station × (ByteString → Option τ) :=
  match st.link client with
  | .connected url =>
      match net url with
      | some σ => ((service σ).1, st, Function.update net url (some (service σ).2))
      | none => (lost, st, net)
  | _ => (lost, st, net)

/-! ## Answers -/

/-- The reply of a request whose transport failed with `status`; creating and deleting clients
and the block's own outputs cannot fail. -/
def failed (status : StatusCode) : (o : Call) → Option o.Reply
  | .clientNew => none
  | .connect _ _ => some status
  | .browse _ _ => some { serviceResult := status, results := [] }
  | .addNode _ _ => some status
  | .deleteNode _ _ _ => some status
  | .read _ _ => some { serviceResult := status, results := [] }
  | .write _ _ _ => some { serviceResult := status, results := [] }
  | .writeRequestDeleteMembers => none
  | .disconnect _ => some status
  | .clientDelete _ => none
  | .assignOUT _ => none
  | .sendOutputEvent _ => none

/-- The answer to a request when nothing fails, by servers with the given services. -/
def serveBy {τ : Type} (services : Services τ) : (o : Call) → Station → (ByteString → Option τ) →
    o.Reply × Station × (ByteString → Option τ)
  | .clientNew, st, net =>
      (st.next, st.create, net)
  | .connect c url, st, net =>
      match st.link c, net url with
      -- `UA_Client_connect` on a connected client returns at once.
      | .connected _, _ => (StatusCode.good, st, net)
      | _, some _ => (StatusCode.good, st.set c (.connected url), net)
      | _, none => (StatusCode.badConnectionClosed, st, net)
  | .browse c id, st, net =>
      atServer c st net
        { serviceResult := StatusCode.badConnectionClosed, results := [] }
        fun σ =>
          ({ serviceResult := StatusCode.good, results := [(services.browseSingle σ id).1] },
            (services.browseSingle σ id).2)
  | .addNode c item, st, net =>
      atServer c st net StatusCode.badConnectionClosed fun σ =>
        services.addNodesSingle σ item
  | .deleteNode c id deleteTargetReferences, st, net =>
      atServer c st net StatusCode.badConnectionClosed fun σ =>
        services.deleteNodesSingle σ id deleteTargetReferences
  | .read c id, st, net =>
      atServer c st net
        { serviceResult := StatusCode.badConnectionClosed, results := [] }
        fun σ =>
          ({ serviceResult := StatusCode.good, results := [(services.readSingle σ id).1] },
            (services.readSingle σ id).2)
  | .write c id value, st, net =>
      atServer c st net
        { serviceResult := StatusCode.badConnectionClosed, results := [] }
        fun σ =>
          ({ serviceResult := StatusCode.good, results := [(services.writeSingle σ id value).1] },
            (services.writeSingle σ id value).2)
  -- As far as it returns: it frees the variant's data, wherever they lie.
  | .writeRequestDeleteMembers, st, net => ((), st, net)
  | .disconnect c, st, net =>
      match st.link c with
      | .connected _ => (StatusCode.good, st.set c .closed, net)
      -- The close message cannot be sent any more.
      | .broken => (StatusCode.badConnectionClosed, st, net)
      | _ => (StatusCode.good, st, net)
  | .clientDelete c, st, net => ((), st.set c .absent, net)
  | .assignOUT _, st, net => ((), st, net)
  | .sendOutputEvent _, st, net => ((), st, net)

/-- The answer to a request when nothing fails. -/
def serve : (o : Call) → Station → Network → o.Reply × Station × Network :=
  serveBy Server.services

/-- The client a request is issued on. -/
def Call.client? : Call → Option Handle
  | clientNew => none
  | connect c _ => some c
  | browse c _ => some c
  | addNode c _ => some c
  | deleteNode c _ _ => some c
  | read c _ => some c
  | write c _ _ => some c
  | writeRequestDeleteMembers => none
  | disconnect c => some c
  | clientDelete c => some c
  | assignOUT _ => none
  | sendOutputEvent _ => none

/-- A broken connection stays broken: the client answers every later request itself. -/
def sever (o : Call) (st : Station) : Station :=
  match o.client? with
  | some c => st.set c .broken
  | none => st

/-- A transport fault carries the status the client library reports, which is never `GOOD`. -/
abbrev Fault : Type :=
  { status : StatusCode // status ≠ StatusCode.good }

/-- The blocks of a device as threads over the network: `request i r` is the program of the
`r`-th request of block `i`. -/
def device {ι : Type} (request : ι → ℕ → Prog Client Unit) :
    System Client ι Station Network Fault :=
  { request := request
    serve := serve
    failed := fun fault => failed fault.1
    sever := sever }

/-- The handler for blocks that run one after the other on one station. -/
def handler : Prog.Handler Client (Station × Network) :=
  fun o s => ((serve o s.1 s.2).1, (serve o s.1 s.2).2)

end ForteOpcUa
