import ForteOpcUa.Client.Calls
import ForteOpcUa.Server.Specs

/-!
# Attached — requests of a connected client

`Attached url c st net σ` says that client `c` of the station is connected to `url` and that the
server there is `σ`.  For an attached client each request is the service at that server; these
equations are all that is used of `serve` from here on.
-/

namespace ForteOpcUa

/-- The network with another server state at `url`. -/
def Network.set (net : Network) (url : ByteString) (σ : Server) : Network :=
  Function.update net url (some σ)

@[simp]
theorem Network.set_self (net : Network) (url : ByteString) (σ : Server) :
    net.set url σ url = some σ :=
  Function.update_self ..

theorem Network.set_of_ne (net : Network) {url url' : ByteString} (σ : Server)
    (h : url' ≠ url) : net.set url σ url' = net url' :=
  Function.update_of_ne h ..

@[simp]
theorem Network.set_set (net : Network) (url : ByteString) (σ τ : Server) :
    (net.set url σ).set url τ = net.set url τ :=
  Function.update_idem ..

theorem Network.set_eq_self {net : Network} {url : ByteString} {σ : Server}
    (h : net url = some σ) : net.set url σ = net := by
  rw [Network.set, ← h]
  exact Function.update_eq_self ..

/-- Client `c` is connected to `url`, where server `σ` listens. -/
structure Attached (url : ByteString) (c : Handle) (st : Station) (net : Network) (σ : Server) :
    Prop where
  link : st.link c = .connected url
  server : net url = some σ

namespace Attached

variable {url : ByteString} {c : Handle} {st : Station} {net : Network} {σ : Server}

theorem set (h : Attached url c st net σ) (τ : Server) : Attached url c st (net.set url τ) τ :=
  ⟨h.link, Network.set_self ..⟩

theorem atServer_eq (h : Attached url c st net σ) {β : Type} (lost : β)
    (service : Server → β × Server) :
    atServer c st net lost service = ((service σ).1, st, net.set url (service σ).2) := by
  simp [atServer, h.link, h.server, Network.set]

theorem browse (h : Attached url c st net σ) (id : NodeId) :
    serve (.browse c id) st net =
      ({ serviceResult := StatusCode.good, results := [σ.browseSingle id] }, st, net) := by
  simp only [serve, serveBy, Server.services, h.atServer_eq]
  rw [Network.set_eq_self h.server]

/-- A browse leaves the server as it is. -/
theorem browse_network (h : Attached url c st net σ) (id : NodeId) :
    (serve (.browse c id) st net).2.2 = net.set url σ := by
  rw [h.browse]
  exact (Network.set_eq_self h.server).symm

theorem addNode (h : Attached url c st net σ) (item : Server.AddNodesItem) :
    serve (.addNode c item) st net =
      ((σ.addNodesSingle item).1, st, net.set url (σ.addNodesSingle item).2) :=
  h.atServer_eq ..

theorem deleteNode (h : Attached url c st net σ) (id : NodeId) (refs : Bool) :
    serve (.deleteNode c id refs) st net =
      ((σ.deleteNodesSingle id refs).1, st, net.set url (σ.deleteNodesSingle id refs).2) :=
  h.atServer_eq ..

theorem read (h : Attached url c st net σ) (id : NodeId) :
    serve (.read c id) st net =
      ({ serviceResult := StatusCode.good, results := [σ.readSingle id] }, st, net) := by
  simp only [serve, serveBy, Server.services, h.atServer_eq]
  rw [Network.set_eq_self h.server]

theorem write (h : Attached url c st net σ) (id : NodeId) (value : Variant) :
    serve (.write c id value) st net =
      ({ serviceResult := StatusCode.good, results := [(σ.writeSingle id value).1] }, st,
        net.set url (σ.writeSingle id value).2) :=
  h.atServer_eq ..

theorem disconnect (h : Attached url c st net σ) :
    serve (.disconnect c) st net = (StatusCode.good, st.set c .closed, net) := by
  simp [serve, serveBy, h.link]

end Attached

/-- A new client connects exactly when a server listens. -/
theorem serve_connect {c : Handle} {st : Station} (h : st.link c = .fresh) (net : Network)
    (url : ByteString) :
    serve (.connect c url) st net =
      match net url with
      | some _ => (StatusCode.good, st.set c (.connected url), net)
      | none => (StatusCode.badConnectionClosed, st, net) := by
  simp only [serve, serveBy, h]
  cases net url <;> rfl

/-- A new client that has connected. -/
theorem attached_create {st : Station} {net : Network} {url : ByteString} {σ : Server}
    (h : net url = some σ) :
    Attached url st.next (st.create.set st.next (.connected url)) net σ :=
  ⟨Station.set_link_self .., h⟩

end ForteOpcUa
