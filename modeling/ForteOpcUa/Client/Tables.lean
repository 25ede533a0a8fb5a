import ForteOpcUa.Client.Calls
import ForteOpcUa.Store.TableServer

/-!
# Tables — requests to servers over hash tables

The device of `Calls`, with servers as they run: each service is executed against a hash table.

- `tableDevice`     : the same programs and the same clients over such servers,
- `SafeAt`          : the accesses of a request are safe at the server it reaches,
- `devices_agree`   : along safe requests the device is the one over the maps.
-/

namespace ForteOpcUa

open Interaction
open Store

/-- The servers over hash tables, by address. -/
abbrev TableNetwork : Type :=
  ByteString → Option TableServer

namespace Store.TableServer

/-- The services, executed against the table. -/
def services : Services TableServer where
  browseSingle τ id := Prog.result access (Access.browseSingle id) τ
  addNodesSingle τ item := Prog.result access (Access.addNodesSingle τ.namespacesSize item) τ
  deleteNodesSingle τ id deleteTargetReferences :=
    Prog.result access (Access.deleteNodesSingle id deleteTargetReferences) τ
  readSingle τ id := Prog.result access (Access.readSingle id) τ
  writeSingle τ id value := Prog.result access (Access.writeSingle id value) τ

end Store.TableServer

open TableServer (access Safe Presents)

/-- The blocks of a device over servers with hash tables. -/
def tableDevice {ι : Type} (request : ι → ℕ → Prog Client Unit) :
    System Client ι Station TableNetwork Fault :=
  { request := request
    serve := serveBy TableServer.services
    failed := fun fault => failed fault.1
    sever := sever }

/-! ## Safe requests -/

/-- The accesses of the request are safe at the server: the insertion of an AddNodes is granted its
memory, and the removal of a DeleteNodes loses no other node. -/
def Call.Safe (τ : TableServer) : Call → Prop
  | addNode _ item => (Access.addNodesSingle τ.namespacesSize item).Along access TableServer.Safe τ
  | deleteNode _ id refs => (Access.deleteNodesSingle id refs).Along access TableServer.Safe τ
  | _ => True

instance (τ : TableServer) (o : Call) : Decidable (o.Safe τ) :=
  match o with
  | .addNode _ item => inferInstanceAs (Decidable ((Access.addNodesSingle _ item).Along _ _ τ))
  | .deleteNode _ id refs => inferInstanceAs (Decidable ((Access.deleteNodesSingle id refs).Along _ _ τ))
  | .clientNew => .isTrue trivial
  | .connect _ _ => .isTrue trivial
  | .browse _ _ => .isTrue trivial
  | .read _ _ => .isTrue trivial
  | .write _ _ _ => .isTrue trivial
  | .writeRequestDeleteMembers => .isTrue trivial
  | .disconnect _ => .isTrue trivial
  | .clientDelete _ => .isTrue trivial
  | .assignOUT _ => .isTrue trivial
  | .sendOutputEvent _ => .isTrue trivial

/-- The server that answers a request, if any. -/
def Call.server? (o : Call) (st : Station) (net : TableNetwork) : Option TableServer :=
  match o.client? with
  | none => none
  | some client =>
      match st.link client with
      | .connected url => net url
      | _ => none

/-- The request is safe at the server that answers it. -/
def SafeAt (o : Call) (st : Station) (net : TableNetwork) : Prop :=
  ∀ τ ∈ o.server? st net, o.Safe τ

instance (o : Call) (st : Station) (net : TableNetwork) : Decidable (SafeAt o st net) :=
  match h : o.server? st net with
  | none => .isTrue (by simp [SafeAt, h])
  | some τ => decidable_of_iff (o.Safe τ) (by simp [SafeAt, h])

/-! ## Tables and maps -/

/-- At each address the map that the table presents. -/
def PresentsAll (net : TableNetwork) (net' : Network) : Prop :=
  ∀ url, Option.Rel Presents (net url) (net' url)

/-- The address spaces that the servers present. -/
def TableNetwork.directory (net : TableNetwork) : Network :=
  fun url => (net url).map TableServer.directory

theorem TableNetwork.directory_some {net : TableNetwork} {url : ByteString} {τ : TableServer}
    (h : net url = some τ) : net.directory url = some τ.directory := by
  rw [directory, h, Option.map_some]

theorem presentsAll_directory {net : TableNetwork} (h : ∀ url τ, net url = some τ → τ.Faithful) :
    PresentsAll net net.directory := by
  intro url
  unfold TableNetwork.directory
  cases hurl : net url with
  | none => exact .none
  | some τ => exact .some ⟨h url τ hurl, rfl⟩

/-- The same reply and the same clients, and networks that present the same. -/
def Alike {β : Type} (a : β × Station × TableNetwork) (b : β × Station × Network) : Prop :=
  b.1 = a.1 ∧ b.2.1 = a.2.1 ∧ PresentsAll a.2.2 b.2.2

section Agreement

variable {net : TableNetwork} {net' : Network} {st : Station}

/-- The services of a table and of the map it presents, along safe accesses. -/
theorem service_agrees {α : Type} {p : Prog Accesses α} {τ : TableServer} {σ : Server}
    (h : Presents τ σ) (hsafe : p.Along access TableServer.Safe τ) :
    (Prog.result Server.access p σ).1 = (Prog.result access p τ).1 ∧
      Presents (Prog.result access p τ).2 (Prog.result Server.access p σ).2 :=
  Prog.result_agrees TableServer.access_agrees h hsafe

theorem PresentsAll.cases (h : PresentsAll net net') (url : ByteString) :
    net url = none ∧ net' url = none ∨
      ∃ τ σ, net url = some τ ∧ net' url = some σ ∧ Presents τ σ := by
  have hurl := h url
  generalize net url = a at hurl ⊢
  generalize net' url = b at hurl ⊢
  cases hurl with
  | none => exact Or.inl ⟨rfl, rfl⟩
  | some hpresents => exact Or.inr ⟨_, _, rfl, rfl, hpresents⟩

/-- The maps are the address spaces. -/
theorem PresentsAll.directory_eq (h : PresentsAll net net') : net' = net.directory := by
  funext url
  unfold TableNetwork.directory
  rcases h.cases url with ⟨hnet, hnet'⟩ | ⟨τ, σ, hnet, hnet', hpresents⟩
  · rw [hnet, hnet', Option.map_none]
  · rw [hnet, hnet', Option.map_some, hpresents.2]

theorem PresentsAll.update (h : PresentsAll net net') (url : ByteString) {τ : TableServer} {σ : Server}
    (hpresents : Presents τ σ) :
    PresentsAll (Function.update net url (some τ)) (Function.update net' url (some σ)) := by
  intro url'
  by_cases hsame : url' = url
  · subst hsame
    rw [Function.update_self, Function.update_self]
    exact .some hpresents
  · rw [Function.update_of_ne hsame, Function.update_of_ne hsame]
    exact h url'

/-- A service at the server a client is connected to. -/
theorem atServer_alike {β : Type} (h : PresentsAll net net') (client : Handle) (lost : β)
    {service : TableServer → β × TableServer} {service' : Server → β × Server}
    (hservice : ∀ url τ σ, st.link client = .connected url → net url = some τ → Presents τ σ →
      (service' σ).1 = (service τ).1 ∧ Presents (service τ).2 (service' σ).2) :
    Alike (atServer client st net lost service) (atServer client st net' lost service') := by
  unfold atServer
  split
  · rename_i url hlink
    rcases h.cases url with ⟨hnet, hnet'⟩ | ⟨τ, σ, hnet, hnet', hpresents⟩
    · rw [hnet, hnet']
      exact ⟨rfl, rfl, h⟩
    · rcases hservice url τ σ hlink hnet hpresents with ⟨hreply, hnext⟩
      rw [hnet, hnet']
      exact ⟨hreply, rfl, h.update url hnext⟩
  · exact ⟨rfl, rfl, h⟩

/-- An access that leaves every node in its place. -/
def Access.Keeps : Access → Prop
  | insert _ => False
  | remove _ => False
  | _ => True

theorem Access.Keeps.safe {a : Access} (h : a.Keeps) (τ : TableServer) : TableServer.Safe a τ := by
  cases a with
  | insert node => exact h.elim
  | remove id => exact h.elim
  | _ => trivial

theorem along_of_keeps {α : Type} {p : Prog Accesses α} (h : p.Always Access.Keeps)
    (τ : TableServer) : p.Along access TableServer.Safe τ :=
  h.along access (fun _ τ ha => ha.safe τ) τ

theorem describeAll_keeps (rs : List ReferenceNode) :
    (Access.describeAll rs).Always Access.Keeps := by
  induction rs with
  | nil => trivial
  | cons r rs ih =>
      rw [Access.describeAll]
      split
      · exact ih
      · refine ⟨trivial, fun found => ?_⟩
        cases found with
        | none => exact ih
        | some target => exact ih.bind fun described => trivial

theorem browseSingle_keeps (id : NodeId) : (Access.browseSingle id).Always Access.Keeps := by
  refine ⟨trivial, fun found => ?_⟩
  cases found with
  | none => trivial
  | some node => exact (describeAll_keeps _).bind fun described => trivial

theorem readSingle_keeps (id : NodeId) : (Access.readSingle id).Always Access.Keeps := by
  refine ⟨trivial, fun found => ?_⟩
  cases found <;> trivial

theorem writeSingle_keeps (id : NodeId) (value : Variant) :
    (Access.writeSingle id value).Always Access.Keeps := by
  unfold Access.writeSingle
  split
  · trivial
  · exact ⟨trivial, fun status => trivial⟩

/-- A safe request gets the same answer from the tables and from the maps. -/
theorem serveBy_alike (h : PresentsAll net net') {o : Call} (hsafe : SafeAt o st net) :
    Alike (serveBy TableServer.services o st net) (serve o st net') := by
  have hat : ∀ {client url τ}, o.client? = some client → st.link client = .connected url →
      net url = some τ → o.Safe τ := by
    intro client url τ hclient hlink hnet
    exact hsafe τ (by simp [Call.server?, hclient, hlink, hnet])
  cases o with
  | clientNew => exact ⟨rfl, rfl, h⟩
  | connect c url =>
      rcases h.cases url with ⟨hnet, hnet'⟩ | ⟨τ, σ, hnet, hnet', -⟩
      · cases hlink : st.link c <;> simp only [serve, serveBy, hlink, hnet, hnet'] <;>
          exact ⟨rfl, rfl, h⟩
      · cases hlink : st.link c <;> simp only [serve, serveBy, hlink, hnet, hnet'] <;>
          exact ⟨rfl, rfl, h⟩
  | browse c id =>
      refine atServer_alike h c _ fun url τ σ _ _ hpresents => ?_
      have hagree := service_agrees hpresents (along_of_keeps (browseSingle_keeps id) τ)
      rw [Server.result_browseSingle] at hagree
      exact ⟨congrArg (fun r => BrowseResponse.mk StatusCode.good [r]) hagree.1, hagree.2⟩
  | addNode c item =>
      refine atServer_alike h c _ fun url τ σ hlink hnet hpresents => ?_
      have hagree := service_agrees hpresents (hat rfl hlink hnet)
      have hsize : σ.namespacesSize = τ.namespacesSize := by
        rw [hpresents.2]
        rfl
      rw [← hsize, Server.result_addNodesSingle, hsize] at hagree
      exact hagree
  | deleteNode c id refs =>
      refine atServer_alike h c _ fun url τ σ hlink hnet hpresents => ?_
      have hagree := service_agrees hpresents (hat rfl hlink hnet)
      rw [Server.result_deleteNodesSingle] at hagree
      exact hagree
  | read c id =>
      refine atServer_alike h c _ fun url τ σ _ _ hpresents => ?_
      have hagree := service_agrees hpresents (along_of_keeps (readSingle_keeps id) τ)
      rw [Server.result_readSingle] at hagree
      exact ⟨congrArg (fun r => ReadResponse.mk StatusCode.good [r]) hagree.1, hagree.2⟩
  | write c id value =>
      refine atServer_alike h c _ fun url τ σ _ _ hpresents => ?_
      have hagree := service_agrees hpresents (along_of_keeps (writeSingle_keeps id value) τ)
      rw [Server.result_writeSingle] at hagree
      exact ⟨congrArg (fun r => WriteResponse.mk StatusCode.good [r]) hagree.1, hagree.2⟩
  | writeRequestDeleteMembers => exact ⟨rfl, rfl, h⟩
  | disconnect c =>
      cases hlink : st.link c <;> simp only [serve, serveBy, hlink] <;> exact ⟨rfl, rfl, h⟩
  | clientDelete c => exact ⟨rfl, rfl, h⟩
  | assignOUT value => exact ⟨rfl, rfl, h⟩
  | sendOutputEvent eventId => exact ⟨rfl, rfl, h⟩

end Agreement

/-- Along safe requests a device over hash tables is the device over the maps that they present. -/
theorem devices_agree {ι : Type} [DecidableEq ι] (request : ι → ℕ → Prog Client Unit) :
    System.Agree (tableDevice request) (device request) SafeAt PresentsAll where
  request := rfl
  failed := rfl
  sever := rfl
  reply _ _ _ _ h hsafe := (serveBy_alike h hsafe).1
  loc _ _ _ _ h hsafe := (serveBy_alike h hsafe).2.1
  shared _ _ _ _ h hsafe := (serveBy_alike h hsafe).2.2

end ForteOpcUa
