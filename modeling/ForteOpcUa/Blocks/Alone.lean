import ForteOpcUa.Blocks.Stages
import ForteOpcUa.Client.Attached

/-!
# Alone — requests executed one after the other

When nobody else uses the server, a request is a function of the network.  For a publisher all of
whose calls succeed, `Published` says what the request did to the server: one variable node more
below its object, after the object was created or the old variable taken out if that was needed.
-/

namespace ForteOpcUa

open Interaction
open Interaction.Prog

/-- The clients and the servers while blocks run one after the other. -/
abbrev World : Type :=
  Station × Network

/-- The reply tells that the call succeeded. -/
def Successful : Event Client → Prop
  | ⟨.connect _ _, retval⟩ => retval = StatusCode.good
  | ⟨.browse _ _, bResp⟩ => bResp.serviceResult = StatusCode.good ∧
      ∀ result ∈ bResp.results, result.statusCode = StatusCode.good
  | ⟨.addNode _ _, retval⟩ => retval = StatusCode.good
  | ⟨.deleteNode _ _ _, retval⟩ => retval = StatusCode.good
  | ⟨.read _ _, rResp⟩ => rResp.serviceResult = StatusCode.good
  | ⟨.write _ _ _, wResp⟩ => wResp.serviceResult = StatusCode.good ∧
      ∀ status ∈ wResp.results, status = StatusCode.good
  | ⟨.disconnect _, retval⟩ => retval = StatusCode.good
  | _ => True

instance : DecidablePred Successful
  | ⟨.connect _ _, retval⟩ => inferInstanceAs (Decidable (retval = StatusCode.good))
  | ⟨.browse _ _, bResp⟩ => inferInstanceAs (Decidable (bResp.serviceResult = StatusCode.good ∧
      ∀ result ∈ bResp.results, result.statusCode = StatusCode.good))
  | ⟨.addNode _ _, retval⟩ => inferInstanceAs (Decidable (retval = StatusCode.good))
  | ⟨.deleteNode _ _ _, retval⟩ => inferInstanceAs (Decidable (retval = StatusCode.good))
  | ⟨.read _ _, rResp⟩ => inferInstanceAs (Decidable (rResp.serviceResult = StatusCode.good))
  -- status codes are a finite type, so the search over the list has to be named
  | ⟨.write _ _ _, wResp⟩ =>
      @instDecidableAnd (wResp.serviceResult = StatusCode.good)
        (∀ status ∈ wResp.results, status = StatusCode.good) inferInstance
        (List.decidableBAll _ wResp.results)
  | ⟨.disconnect _, retval⟩ => inferInstanceAs (Decidable (retval = StatusCode.good))
  | ⟨.clientNew, _⟩ => .isTrue trivial
  | ⟨.writeRequestDeleteMembers, _⟩ => .isTrue trivial
  | ⟨.clientDelete _, _⟩ => .isTrue trivial
  | ⟨.assignOUT _, _⟩ => .isTrue trivial
  | ⟨.sendOutputEvent _, _⟩ => .isTrue trivial

/-- All calls of a trace succeed. -/
def Succeeds (tr : List (Event Client)) : Prop :=
  ∀ e ∈ tr, Successful e

instance (tr : List (Event Client)) : Decidable (Succeeds tr) :=
  inferInstanceAs (Decidable (∀ e ∈ tr, Successful e))

theorem Succeeds.head {e : Event Client} {tr : List (Event Client)} (h : Succeeds (e :: tr)) :
    Successful e :=
  h e (by simp)

theorem Succeeds.tail {e : Event Client} {tr : List (Event Client)} (h : Succeeds (e :: tr)) :
    Succeeds tr :=
  fun e' he' => h e' (by simp [he'])

/-- Disconnecting and releasing does not touch a server. -/
theorem exec_finish_network (c : Handle) (eventId : ℕ) (w : World) :
    (exec handler (finish c eventId) w).state.2 = w.2 := by
  simp only [finish, exec_call_state, exec_ret, handler, serve, serveBy]
  split <;> rfl

/-- A new client takes the next handle. -/
theorem handler_clientNew (w : World) : handler .clientNew w = (w.1.next, (w.1.create, w.2)) :=
  rfl

/-- The world after a new client has connected to `url`. -/
def connectedTo (url : ByteString) (w : World) : World :=
  (w.1.create.set w.1.next (.connected url), w.2)

theorem handler_connect {w : World} {url : ByteString} {σ : Server} (h : w.2 url = some σ) :
    handler (.connect w.1.next url) (w.1.create, w.2) = (StatusCode.good, connectedTo url w) := by
  simp only [handler, serve_connect w.1.create_link_self, h, connectedTo]

theorem attached_connectedTo {w : World} {url : ByteString} {σ : Server} (h : w.2 url = some σ) :
    Attached url w.1.next (connectedTo url w).1 (connectedTo url w).2 σ :=
  attached_create h

namespace OpcUaPublish

/-- What the request of a publisher does to the server if all its calls succeed: from `σ` it
reaches a state `τ` where the object exists and the variable does not, and adds the variable. -/
inductive Prepared (fb_id var_id : Name) (σ : Server) : Server → Prop
  | createdObject (folder : Node) (hfolder : σ.get objectsFolder = some folder)
      (habsent : σ.get (objectId fb_id) = none) (hadd : σ.Addable (objectItem fb_id)) :
      Prepared fb_id var_id σ (σ.adopt (objectItem fb_id) folder)
  | foundObject : Prepared fb_id var_id σ σ
  | deletedItem (n : Node)
      (hpresent : σ.get (NodeId.string 1 (varBrowseId fb_id var_id)) = some n) :
      Prepared fb_id var_id σ (σ.without (NodeId.string 1 (varBrowseId fb_id var_id)))

/-- The effect of a successful request. -/
structure Published (fb_id var_id : Name) (σ σ' : Server) : Prop where
  effect : ∃ τ parent, Prepared fb_id var_id σ τ ∧ τ.Addable (variableItem fb_id var_id) ∧
    τ.get (variableItem fb_id var_id).requestedNewNodeId = none ∧
    τ.get (objectId fb_id) = some parent ∧ σ' = τ.adopt (variableItem fb_id var_id) parent

section Stages

variable {sameText : SameText} {fb_id var_id : Name} {c : Handle} {w : World} {σ σ₀ : Server}

/-- Adding the variable of a prepared server. -/
theorem exec_addItemStage (hat : Attached localServer c w.1 w.2 σ)
    (hprep : Prepared fb_id var_id σ₀ σ)
    (h : Succeeds (exec handler (addItemStage c fb_id var_id) w).trace) :
    ∃ σ', Published fb_id var_id σ₀ σ' ∧
      (exec handler (addItemStage c fb_id var_id) w).state.2 = w.2.set localServer σ' := by
  have hreply : (σ.addNodesSingle (variableItem fb_id var_id)).1 = StatusCode.good := by
    have hhead := h.head
    simpa [addItemStage, Successful, handler, hat.addNode] using hhead
  -- The reply was good, which leaves the case in which the node was added.
  rcases Server.addNodesSingle_cases σ (variableItem fb_id var_id) with
    ⟨status, hbad, heq⟩ | ⟨parent, hadd, hfree, hparent, heq⟩
  · rw [heq] at hreply
    exact absurd hreply hbad
  · refine ⟨σ.adopt (variableItem fb_id var_id) parent,
      ⟨σ, parent, hprep, hadd, hfree, hparent, rfl⟩, ?_⟩
    simp only [addItemStage, exec_call_state, exec_finish_network, handler, hat.addNode, heq]

theorem exec_deleteStage (hat : Attached localServer c w.1 w.2 σ)
    (h : Succeeds (exec handler (deleteStage c fb_id var_id) w).trace) :
    ∃ σ', Published fb_id var_id σ σ' ∧
      (exec handler (deleteStage c fb_id var_id) w).state.2 = w.2.set localServer σ' := by
  have hreply : (σ.deleteNodesSingle (NodeId.string 1 (varBrowseId fb_id var_id)) false).1 =
      StatusCode.good := by
    have hhead := h.head
    simpa [deleteStage, Successful, handler, hat.deleteNode] using hhead
  -- A variable that was not there cannot have been deleted with a good reply.
  cases hget : σ.get (NodeId.string 1 (varBrowseId fb_id var_id)) with
  | none =>
      rw [Server.deleteNodesSingle_absent hget] at hreply
      exact absurd hreply StatusCode.badNodeIdInvalid_ne_good
  | some n =>
      have hdel := Server.deleteNodesSingle_present hget
      have hnext := hat.deleteNode (NodeId.string 1 (varBrowseId fb_id var_id)) false
      rw [hdel] at hnext
      have hstep : (handler (.deleteNode c (NodeId.string 1 (varBrowseId fb_id var_id)) false) w).2 =
          (w.1, w.2.set localServer (σ.without (NodeId.string 1 (varBrowseId fb_id var_id)))) := by
        simp only [handler, hnext]
      have htail := h.tail
      simp only [hstep] at htail
      rcases exec_addItemStage (hat.set _) (Prepared.deletedItem n hget) htail with
        ⟨σ', hpub, hnet⟩
      refine ⟨σ', hpub, ?_⟩
      simpa only [deleteStage, exec_call_state, hstep, Network.set_set] using hnet

theorem exec_addObjectStage (hat : Attached localServer c w.1 w.2 σ)
    (h : Succeeds (exec handler (addObjectStage c fb_id var_id) w).trace) :
    ∃ σ', Published fb_id var_id σ σ' ∧
      (exec handler (addObjectStage c fb_id var_id) w).state.2 = w.2.set localServer σ' := by
  have hreply : (σ.addNodesSingle (objectItem fb_id)).1 = StatusCode.good := by
    have hhead := h.head
    simpa [addObjectStage, Successful, handler, hat.addNode] using hhead
  rcases Server.addNodesSingle_cases σ (objectItem fb_id) with
    ⟨status, hbad, heq⟩ | ⟨folder, hadd, hfree, hfolder, heq⟩
  · rw [heq] at hreply
    exact absurd hreply hbad
  · have hstep : (handler (.addNode c (objectItem fb_id)) w).2 =
        (w.1, w.2.set localServer (σ.adopt (objectItem fb_id) folder)) := by
      simp only [handler, hat.addNode, heq]
    have htail := h.tail
    simp only [hstep] at htail
    rcases exec_addItemStage (hat.set _) (Prepared.createdObject folder hfolder hfree hadd) htail
      with ⟨σ', hpub, hnet⟩
    refine ⟨σ', hpub, ?_⟩
    simpa only [addObjectStage, exec_call_state, hstep, Network.set_set] using hnet

theorem exec_browseItemStage (hat : Attached localServer c w.1 w.2 σ)
    (h : Succeeds (exec handler (browseItemStage sameText c fb_id var_id) w).trace) :
    ∃ σ', Published fb_id var_id σ σ' ∧
      (exec handler (browseItemStage sameText c fb_id var_id) w).state.2 =
        w.2.set localServer σ' := by
  have hstep : (handler (.browse c (objectId fb_id)) w).2 = w := by
    simp only [handler, hat.browse]
  have htail := h.tail
  simp only [browseItemStage, exec_call_state, hstep] at htail ⊢
  -- Whatever the search reports, the remaining requests decide what happens.
  split
  · rename_i hfound
    rw [if_pos hfound] at htail
    exact exec_deleteStage hat htail
  · rename_i hfound
    rw [if_neg hfound] at htail
    exact exec_addItemStage hat Prepared.foundObject htail

theorem exec_browseStage (hat : Attached localServer c w.1 w.2 σ)
    (h : Succeeds (exec handler (browseStage sameText c fb_id var_id) w).trace) :
    ∃ σ', Published fb_id var_id σ σ' ∧
      (exec handler (browseStage sameText c fb_id var_id) w).state.2 =
        w.2.set localServer σ' := by
  have hstep : (handler (.browse c objectsFolder) w).2 = w := by
    simp only [handler, hat.browse]
  have htail := h.tail
  simp only [browseStage, exec_call_state, hstep] at htail ⊢
  split
  · rename_i hfound
    rw [if_pos hfound] at htail
    exact exec_addObjectStage hat htail
  · rename_i hfound
    rw [if_neg hfound] at htail
    exact exec_browseItemStage hat htail

end Stages

/-- A request of a connected publisher all of whose calls succeed publishes its variable at the
local server and touches no other server, whatever its search loops report. -/
theorem exec_published {sameText : SameText} {fb_id var_id : Name} {w : World}
    (h : Succeeds (exec handler (newStage sameText fb_id var_id) w).trace) :
    ∃ σ σ', w.2 localServer = some σ ∧ Published fb_id var_id σ σ' ∧
      (exec handler (newStage sameText fb_id var_id) w).state.2 = w.2.set localServer σ' := by
  rcases w with ⟨st, net⟩
  have hconn := h.tail.head
  have hrest := h.tail.tail
  simp only [newStage, connectStage, exec_call_state, handler_clientNew] at hconn hrest ⊢
  simp only [handler, serve_connect st.create_link_self, Successful] at hconn hrest ⊢
  -- The connect succeeded, so a server listens at the local address.
  cases hnet : net localServer with
  | none =>
      simp only [hnet] at hconn
      exact absurd hconn StatusCode.badConnectionClosed_ne_good
  | some σ =>
      simp only [hnet, if_true] at hrest ⊢
      rcases exec_browseStage (w := (_, net)) (attached_create hnet) hrest with ⟨σ', hpub, heq⟩
      exact ⟨σ, σ', rfl, hpub, heq⟩

/-! ## Sequences of requests -/

/-- The world after a publisher has handled requests one after the other. -/
def worldAfter (sameText : SameText) (w : World) (requests : List Inputs) : World :=
  execAll handler (requests.map (executeEvent sameText eventREQ)) w

theorem worldAfter_append (sameText : SameText) (w : World) (pre : List Inputs) (r : Inputs) :
    worldAfter sameText w (pre ++ [r]) =
      (exec handler (executeEvent sameText eventREQ r) (worldAfter sameText w pre)).state := by
  simp [worldAfter]

/-- All calls of all requests of the sequence succeed. -/
def AllSucceed (sameText : SameText) (w : World) (requests : List Inputs) : Prop :=
  ∀ pre r post, requests = pre ++ r :: post →
    Succeeds (exec handler (executeEvent sameText eventREQ r) (worldAfter sameText w pre)).trace

/-! ## A flip-flop on the local server -/

/-- A block `FF` with an output port `Q` of the given type. -/
def flipFlop (dataType : CiecType) : ConnectionPoint where
  mFB := {
    instanceName := { text := ascii "FF", nonempty := by decide, zeroFree := by decide }
    outputs := [{
      name := { text := ascii "Q", nonempty := by decide, zeroFree := by decide }
      dataType := dataType }] }
  mPortId := ⟨0, Nat.one_pos⟩

/-- A publisher whose `IN` is connected to that port and delivers `value`. -/
def flipFlopInputs (value : CiecAny) : Inputs where
  connection := some (flipFlop value.type)
  IN := value
  typed := by
    rintro p ⟨⟩
    rfl

end OpcUaPublish

/-- A network with one server as `UA_Server_new` sets it up. -/
def oneServer : World :=
  (Station.init, Network.set (fun _ => none) localServer Server.new)

end ForteOpcUa
