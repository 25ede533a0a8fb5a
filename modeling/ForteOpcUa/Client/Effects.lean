import ForteOpcUa.Client.Attached

/-!
# Effects — what a request can do to the clients and the servers

Facts about `serve` that hold whatever the client is connected to:

- `serve_harmless`  : a request that neither adds, deletes nor writes changes no server,
- `OnlyTo.serve`    : a block that connects to one address only is connected to no other,
- `present_serve`   : a node goes on existing unless it is deleted,
- `present_of_adds` : a node that was added exists.
-/

namespace ForteOpcUa

open Interaction

/-! ## Requests that change no server -/

/-- A request that changes no server. -/
def Call.Harmless : Call → Prop
  | addNode _ _ => False
  | deleteNode _ _ _ => False
  | write _ _ _ => False
  | _ => True

theorem serve_harmless {o : Call} (h : o.Harmless) (st : Station) (net : Network) :
    (serve o st net).2.2 = net := by
  -- Browsing and reading run at the server and leave it as it is.
  have hsame : ∀ {β : Type} (c : Handle) (lost : β) (reply : Server → β),
      (atServer c st net lost fun σ => (reply σ, σ)).2.2 = net := by
    intro β c lost reply
    unfold atServer
    split
    · split
      · rename_i url _ σ hσ
        exact Network.set_eq_self hσ
      · rfl
    · rfl
  cases o with
  | clientNew => rfl
  | connect c url =>
      simp only [serve, serveBy]
      split <;> rfl
  | browse c id => exact hsame ..
  | addNode c item => exact h.elim
  | deleteNode c id refs => exact h.elim
  | read c id => exact hsame ..
  | write c id value => exact h.elim
  | writeRequestDeleteMembers => rfl
  | disconnect c =>
      simp only [serve, serveBy]
      split <;> rfl
  | clientDelete c => rfl
  | assignOUT value => rfl
  | sendOutputEvent eventId => rfl

/-! ## Clients of one address -/

/-- Every client that is connected is connected to `url`. -/
def Station.OnlyTo (url : ByteString) (st : Station) : Prop :=
  ∀ client url', st.link client = .connected url' → url' = url

theorem atServer_station {β : Type} (client : Handle) (st : Station) (net : Network) (lost : β)
    (service : Server → β × Server) : (atServer client st net lost service).2.1 = st := by
  unfold atServer
  split
  · split <;> rfl
  · rfl

section OnlyTo

variable {url : ByteString} {st : Station}

theorem onlyTo_init : Station.init.OnlyTo url := by
  intro client url' h
  cases h

theorem Station.OnlyTo.set (h : st.OnlyTo url) {l : Link} (client : Handle)
    (hl : ∀ url', l = .connected url' → url' = url) : (st.set client l).OnlyTo url := by
  intro client' url' hlink
  by_cases hc : client' = client
  · rw [hc, set_link_self] at hlink
    exact hl url' hlink
  · have hsame : (st.set client l).link client' = st.link client' := Function.update_of_ne hc ..
    exact h client' url' (hsame ▸ hlink)

theorem Station.OnlyTo.sever (h : st.OnlyTo url) (o : Call) : (sever o st).OnlyTo url := by
  unfold ForteOpcUa.sever
  split
  · exact h.set _ (by simp)
  · exact h

theorem Station.OnlyTo.serve (h : st.OnlyTo url) {o : Call} (net : Network)
    (ho : ∀ client url', o = .connect client url' → url' = url) :
    (serve o st net).2.1.OnlyTo url := by
  cases o with
  | clientNew =>
      intro client url' hlink
      exact h.set st.next (by simp) client url' hlink
  | connect client url' =>
      simp only [ForteOpcUa.serve, serveBy]
      split
      · exact h
      -- The only place where a client gets connected.
      · refine h.set client ?_
        rintro url'' ⟨⟩
        exact ho client url' rfl
      · exact h
  | disconnect client =>
      simp only [ForteOpcUa.serve, serveBy]
      split
      · exact h.set client (by simp)
      · exact h
      · exact h
  | writeRequestDeleteMembers => exact h
  | clientDelete client => exact h.set client (by simp)
  | assignOUT value => exact h
  | sendOutputEvent eventId => exact h
  | _ =>
      simp only [ForteOpcUa.serve, serveBy, atServer_station]
      exact h

end OnlyTo

/-! ## Nodes that exist -/

/-- The server at `url` has the node. -/
def Present (url : ByteString) (id : NodeId) (net : Network) : Prop :=
  ∃ σ, net url = some σ ∧ σ.get id ≠ none

theorem present_iff {url : ByteString} {id : NodeId} {net : Network} :
    Present url id net ↔ ((net url).bind fun σ => σ.get id) ≠ none := by
  cases h : net url with
  | none => simp [Present, h]
  | some σ => simp [Present, h]

instance (url : ByteString) (id : NodeId) (net : Network) : Decidable (Present url id net) :=
  decidable_of_iff _ present_iff.symm

/-- The request deleted the node. -/
def Call.Deletes (id : NodeId) : (o : Call) → o.Reply → Prop
  | .deleteNode _ id' _, status => id' = id ∧ status = StatusCode.good
  | _, _ => False

/-- The request added the node. -/
def Call.Adds (id : NodeId) : (o : Call) → o.Reply → Prop
  | .addNode _ item, status => item.requestedNewNodeId = id ∧ status = StatusCode.good
  | _, _ => False

section Present

variable {url : ByteString} {id : NodeId} {st : Station} {net : Network}

/-- The server that a service runs at, if any, is the only one that changes. -/
theorem atServer_cases {β : Type} (client : Handle) (st : Station) (net : Network) (lost : β)
    (service : Server → β × Server) :
    (atServer client st net lost service).1 = lost ∧
        (atServer client st net lost service).2.2 = net ∨
      ∃ url σ, st.link client = .connected url ∧ net url = some σ ∧
        atServer client st net lost service = ((service σ).1, st, net.set url (service σ).2) := by
  unfold atServer
  split
  · rename_i url hlink
    split
    · rename_i σ hσ
      exact Or.inr ⟨url, σ, hlink, hσ, rfl⟩
    · exact Or.inl ⟨rfl, rfl⟩
  · exact Or.inl ⟨rfl, rfl⟩

/-- A service that takes the node away only with a reply that says so. -/
theorem present_atServer {β : Type} (h : Present url id net) (client : Handle) (lost : β)
    {service : Server → β × Server} {P : β → Prop}
    (hkeep : ∀ σ, σ.get id ≠ none → (service σ).2.get id ≠ none ∨ P (service σ).1) :
    Present url id (atServer client st net lost service).2.2 ∨
      P (atServer client st net lost service).1 := by
  rcases atServer_cases client st net lost service with ⟨-, heq⟩ | ⟨url', σ', -, hσ', heq⟩
  · rw [heq]
    exact Or.inl h
  · rcases h with ⟨σ, hσ, hid⟩
    rw [heq]
    -- Only the server at `url'` changed, which may or may not be the one in question.
    by_cases hurl : url = url'
    · subst hurl
      rcases Option.some.inj (hσ'.symm.trans hσ) with rfl
      rcases hkeep _ hid with hthere | hP
      · exact Or.inl ⟨_, Network.set_self .., hthere⟩
      · exact Or.inr hP
    · exact Or.inl ⟨σ, (Network.set_of_ne net _ hurl).trans hσ, hid⟩

/-- A service that takes no node away. -/
theorem present_atServer_of_keeps {β : Type} (h : Present url id net) (client : Handle) (lost : β)
    {service : Server → β × Server}
    (hkeep : ∀ σ, σ.get id ≠ none → (service σ).2.get id ≠ none) :
    Present url id (atServer client st net lost service).2.2 :=
  (present_atServer h client lost (P := fun _ => False) fun σ hσ => Or.inl (hkeep σ hσ)).resolve_right
    not_false

/-- A node goes on existing unless the request deleted it. -/
theorem present_serve (h : Present url id net) (st : Station) (o : Call) :
    Present url id (serve o st net).2.2 ∨ o.Deletes id (serve o st net).1 := by
  by_cases ho : o.Harmless
  · rw [serve_harmless ho]
    exact Or.inl h
  · cases o with
    | addNode client item =>
        exact Or.inl (present_atServer_of_keeps h client _ fun σ hσ =>
          Server.get_addNodesSingle_ne_none hσ item)
    | deleteNode client id' refs =>
        exact present_atServer h client _ fun σ hσ =>
          Server.get_deleteNodesSingle_ne_none hσ id' refs
    | write client id' value =>
        exact Or.inl (present_atServer_of_keeps h client _ fun σ hσ =>
          Server.get_writeSingle_ne_none hσ id' value)
    | _ => exact absurd trivial ho

/-- A node that a client of `url` added is there. -/
theorem present_of_adds (hst : st.OnlyTo url) {o : Call}
    (h : o.Adds id (serve o st net).1) : Present url id (serve o st net).2.2 := by
  cases o with
  | addNode client item =>
      rcases h with ⟨rfl, hgood⟩
      simp only [serve, serveBy, Server.services] at hgood ⊢
      -- A request that was lost is not answered `GOOD`, so it ran at the server of the client.
      rcases atServer_cases client st net StatusCode.badConnectionClosed
        (fun σ => σ.addNodesSingle item) with ⟨heq, -⟩ | ⟨url', σ, hlink, -, heq⟩
      · rw [heq] at hgood
        exact absurd hgood StatusCode.badConnectionClosed_ne_good
      · rw [heq] at hgood ⊢
        rw [hst client url' hlink]
        exact ⟨_, Network.set_self .., Server.get_addNodesSingle_good hgood⟩
  | _ => exact h.elim

end Present

end ForteOpcUa
