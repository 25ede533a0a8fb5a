import ForteOpcUa.Channels.Refinement

/-!
# Decisions — whether a message dangles can be computed

The conditions of `Dangles` look objects up and compare them, so that they can be decided in a given
state of the server.
-/

namespace ForteOpcUa

namespace Channels

variable {s : Server} {c : Address}

/-- What holds of the object if there is one. -/
instance decidableForallSome {α : Type} (o : Option α) (P : α → Prop) [DecidablePred P] :
    Decidable (∀ x, o = some x → P x) :=
  match o with
  | none => isTrue (by simp)
  | some x => decidable_of_iff (P x) (by simp)

/-- There is an object of which something holds. -/
instance decidableExistsSome {α : Type} (o : Option α) (P : α → Prop) [DecidablePred P] :
    Decidable (∃ x, o = some x ∧ P x) :=
  match o with
  | none => isFalse (by simp)
  | some x => decidable_of_iff (P x) (by simp)

theorem grants_iff {request : OpenSecureChannelRequest} {memory : Option Address} :
    Grants s request memory ↔ request.requestType = securityTokenRequestTypeIssue ∧
      request.securityMode = messageSecurityModeNone ∧
        SecureChannelManager.grant s memory ≠ none ∧
          s.secureChannelManager.currentChannelCount < s.secureChannelManager.maxChannelCount :=
  ⟨fun h => ⟨h.issue, h.mode, h.memory, h.room⟩, fun h => ⟨h.1, h.2.1, h.2.2.1, h.2.2.2⟩⟩

instance decidableGrants (request : OpenSecureChannelRequest) (memory : Option Address) :
    Decidable (Grants s request memory) :=
  decidable_of_iff _ grants_iff.symm

theorem activates_iff {request : ActivateSessionRequest} :
    (∃ x, Activates s request x) ↔ ∃ found,
      SessionManager.getSession s request.authenticationToken (request.clock 0) = some found ∧
        ∃ x, found = some x ∧
          (∀ session, s.sessionAt x = some session → request.clock 1 ≤ session.validTill) ∧
            authenticate s.config request.identity = .good ∧ request.entry = true := by
  constructor
  · rintro ⟨x, h⟩
    exact ⟨some x, h.found, x, rfl, h.valid, h.accepted, h.entry⟩
  · rintro ⟨_, hfound, x, rfl, hvalid, haccept, hentry⟩
    exact ⟨x, hfound, hvalid, haccept, hentry⟩

instance decidableActivates (request : ActivateSessionRequest) :
    Decidable (∃ x, Activates s request x) :=
  decidable_of_iff _ activates_iff.symm

/-- The activation that a request asks for. -/
def Request.activation : Request → Option ActivateSessionRequest
  | .activateSession request _ => some request
  | _ => none

theorem dangles_openSecureChannel_iff {m : OpenMessage} :
    Dangles s c (.openSecureChannel m) ↔ ∃ connection, s.connectionAt c = some connection ∧
      (connection.state = .established ∧ connection.channel ≠ none) ∧
        ∃ request, m.request = some request ∧ Grants s request m.memory := by
  constructor
  · intro h
    cases h with
    | reissued hc hstate hchannel hrequest hgrants =>
        exact ⟨_, hc, ⟨hstate, hchannel⟩, _, hrequest, hgrants⟩
  · rintro ⟨connection, hc, ⟨hstate, hchannel⟩, request, hrequest, hgrants⟩
    exact .reissued hc hstate hchannel hrequest hgrants

theorem dangles_secured_iff {m : SecuredMessage} :
    Dangles s c (.secured m) ↔ ∃ connection, s.connectionAt c = some connection ∧
      (connection.state = .established ∧ connection.channel = none) ∧
        (∃ tokenId, m.tokenId = some tokenId ∧ tokenId ≠ 0) ∧
          ∃ request, m.request.activation = some request ∧ ∃ x, Activates s request x := by
  constructor
  · intro h
    cases h with
    | left hc hstate hchannel htoken hne hrequest hactivates =>
        exact ⟨_, hc, ⟨hstate, hchannel⟩, ⟨_, htoken, hne⟩, _, by rw [hrequest]; rfl, _, hactivates⟩
  · rintro ⟨connection, hc, ⟨hstate, hchannel⟩, ⟨tokenId, htoken, hne⟩, request, hrequest, x, hx⟩
    cases hm : m.request with
    | activateSession activation out =>
        rw [hm] at hrequest
        cases hrequest
        exact .left hc hstate hchannel htoken hne hm hx
    | undecodable | sessionless | createSession | service =>
        rw [hm] at hrequest
        cases hrequest

instance decidableDangles (m : Message) : Decidable (Dangles s c m) :=
  match m with
  | .openSecureChannel _ => decidable_of_iff _ dangles_openSecureChannel_iff.symm
  | .secured _ => decidable_of_iff _ dangles_secured_iff.symm
  | .malformed => isFalse (by rintro ⟨⟩)
  | .hello _ _ => isFalse (by rintro ⟨⟩)
  | .closeSecureChannel _ => isFalse (by rintro ⟨⟩)
  | .unknown => isFalse (by rintro ⟨⟩)

end Channels

end ForteOpcUa
