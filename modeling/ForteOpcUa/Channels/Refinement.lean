import ForteOpcUa.Channels.Effects
import ForteOpcUa.Interaction.Following

/-!
# Refinement — the code makes the changes of the graph only

Each function of the dispatcher, started in a consistent graph, gets through without the use of a
freed object, and its effect is a row of updates.  Two messages would break the graph, `Dangles`: a
channel that is issued to a connection which has one, and a session that is activated over the
anonymous channel.
-/

namespace ForteOpcUa

namespace Channels

open Interaction Pointers Server

variable {P : Address → Prop} {s : Server} {c : Address} {a : ChannelAddress}

/-- The channel is there and belongs to the connection.  The anonymous channel is there only while it
is spoken over. -/
structure Speaks (s : Server) (c : Address) (a : ChannelAddress) : Prop where
  channel : ∃ channel, s.channelAt a = some channel ∧ channel.connection = some c
  quiet : a ≠ .anonymous → s.channelAt .anonymous = none

/-- Between two messages: the connection is there, and no anonymous channel. -/
structure Ready (s : Server) (c : Address) : Prop where
  connection : s.connectionAt c ≠ none
  quiet : s.channelAt .anonymous = none

namespace Speaks

theorem peer_allowed (h : Speaks s c a) (hP : P c) : ∀ d, s.peer a = some d → P d := by
  intro d hd
  rcases h.channel with ⟨channel, ha, hc⟩
  rcases channelAt_of_peer hd with ⟨_, channel', ha', hc'⟩
  rw [ha] at ha'
  cases ha'
  rw [hc] at hc'
  cases hc'
  exact hP

/-- A channel is written with its connection as it is. -/
theorem setChannel (h : Speaks s c a) {channel : SecureChannel} (channel' : SecureChannel)
    (ha : s.channelAt a = some channel) (hc : channel'.connection = channel.connection) :
    Speaks (s.setChannel a channel') c a := by
  rcases h.channel with ⟨channel'', ha', hc'⟩
  rw [ha] at ha'
  cases ha'
  refine ⟨⟨channel', by simp [Server.setChannel], hc.trans hc'⟩, ?_⟩
  intro hne
  have hne' : (ChannelAddress.anonymous) ≠ a := fun heq => hne heq.symm
  simpa [Server.setChannel, hne'] using h.quiet hne

/-- What does not touch channels. -/
theorem of_channelAt (h : Speaks s c a) {s' : Server} (heq : s'.channelAt = s.channelAt) :
    Speaks s' c a := by
  refine ⟨?_, ?_⟩
  · rw [heq]
    exact h.channel
  · rw [heq]
    exact h.quiet

theorem unlisted (h : Speaks s c a) (x : Address) : Speaks (s.unlisted x) c a := by
  rcases h.channel with ⟨channel, ha, hc⟩
  refine ⟨⟨{ channel with sessions := channel.sessions.erase x }, ?_, hc⟩, ?_⟩
  · simp [Server.unlisted, ha]
  · intro hne
    simp [Server.unlisted, h.quiet hne]

theorem ready (h : Speaks s c a) (hs : Consistent s) (ha : a ≠ .anonymous) : Ready s c := by
  rcases h.channel with ⟨channel, hchannel, hc⟩
  rcases hs.connectionAt_of_channel hchannel hc with ⟨connection, hconnection⟩
  exact ⟨by rw [hconnection]; simp, h.quiet ha⟩

end Speaks

/-- The channel of a connection is one to speak over. -/
theorem Consistent.speaks (hs : Consistent s) (hquiet : s.channelAt .anonymous = none)
    (hb : s.bound c = some a) : a ≠ .anonymous ∧ Speaks s c a := by
  rcases hs.channelAt_of_bound hb with ⟨hanon, channel⟩
  exact ⟨hanon, channel, fun _ => hquiet⟩

/-- Rows of updates keep the graph consistent. -/
theorem steps_consistent {s' : Server} (h : Relation.ReflTransGen (Update P) s s')
    (hs : Consistent s) : Consistent s' :=
  invariant_of_steps (fun _ _ hstep => hstep.consistent) h hs

/-! ## Sending -/

theorem sendBinaryMessage_follows (hs : Consistent s) (h : Speaks s c a) (hP : P c) (out : Sending)
    (result : StatusCode) :
    Follows (Update P) s Prod.snd (SecureChannel.sendBinaryMessage s a out result)
      fun r => Speaks r.2 c a := by
  rcases h.channel with ⟨channel, ha, hc⟩
  rcases hs.connectionAt_of_channel ha hc with ⟨connection, hconnection⟩
  have hcounted := h.setChannel channel.count ha rfl
  simp only [SecureChannel.sendBinaryMessage, ha, hc, hconnection, Option.bind_eq_bind,
    Option.bind_some]
  by_cases hbuffer : out.buffer = .good
  · by_cases hencoding : out.encoding = .good
    · rw [if_neg (by simpa using hbuffer), if_neg (by simpa using hencoding)]
      cases hsent : out.sent with
      | true =>
          simp only [send, if_true]
          exact .one (.sent (h.peer_allowed hP) ha result) (hcounted.of_channelAt rfl)
      | false =>
          simp only [send, Bool.false_eq_true, if_false]
          refine .head (.counted (h.peer_allowed hP) ha) ?_
          rw [close_eq (by exact hconnection)]
          exact .one (.stateChanged .closed hP (by exact hconnection)) (hcounted.of_channelAt rfl)
    · rw [if_neg (by simpa using hbuffer), if_pos hencoding]
      exact .pure rfl h
  · rw [if_pos hbuffer]
    exact .pure rfl h

/-! ## Sessions -/

/-- The search finds a session that is there, with the token. -/
theorem find_eq (s : Server) (token : NodeId) {xs : List Address}
    (hlive : ∀ x ∈ xs, s.sessionAt x ≠ none) :
    ∃ r, SecureChannel.find s token xs = some r ∧ ∀ x, r = some x → x ∈ xs ∧
      ∃ session, s.sessionAt x = some session ∧ session.authenticationToken = token := by
  induction xs with
  | nil => exact ⟨none, rfl, by simp⟩
  | cons x xs ih =>
      rcases Option.ne_none_iff_exists'.1 (hlive x List.mem_cons_self) with ⟨session, hx⟩
      rw [SecureChannel.find, hx]
      simp only [Option.bind_eq_bind, Option.bind_some]
      by_cases htoken : session.authenticationToken = token
      · rw [if_pos htoken]
        refine ⟨some x, rfl, ?_⟩
        rintro y hy
        cases hy
        exact ⟨List.mem_cons_self, session, hx, htoken⟩
      · rw [if_neg htoken]
        rcases ih fun y hy => hlive y (List.mem_cons_of_mem x hy) with ⟨r, hr, hfound⟩
        refine ⟨r, hr, ?_⟩
        intro y hy
        rcases hfound y hy with ⟨hmem, hsession⟩
        exact ⟨List.mem_cons_of_mem x hmem, hsession⟩

/-- The search in the list of the manager. -/
theorem findSession_eq (hs : Consistent s) (token : NodeId) :
    ∃ r, SecureChannel.find s token s.sessionManager.sessions = some r ∧ ∀ x, r = some x →
      ∃ session, s.sessionAt x = some session ∧ session.authenticationToken = token := by
  rcases find_eq s token fun x hx => (hs.mem_sessions x).1 hx with ⟨r, hr, hfound⟩
  exact ⟨r, hr, fun x hx => (hfound x hx).2⟩

theorem removeSession_follows (hs : Consistent s) (h : Speaks s c a) (token : NodeId) :
    Follows (Update P) s Prod.snd (SessionManager.removeSession s token)
      fun r => Speaks r.2 c a := by
  rcases findSession_eq hs token with ⟨r, hr, hfound⟩
  simp only [SessionManager.removeSession, hr, Option.bind_eq_bind, Option.bind_some]
  cases r with
  | none => exact .pure rfl h
  | some x =>
      rcases hfound x rfl with ⟨session, hx, _⟩
      have hlive : s.sessionAt x ≠ none := by rw [hx]; simp
      simp only [removeSession_eq hs hlive, Option.bind_some]
      exact .one (.forgotten hlive) ((h.unlisted x).of_channelAt rfl)

/-- Either nothing is created, or a session that belongs to no channel. -/
theorem createSession_cases (s : Server) (t : Option ℚ) (memory : Option Address)
    (guid : Vector UInt8 16) (now : DateTime) :
    (∃ result, SessionManager.createSession s t memory guid now = (result, none, s)) ∨
      ∃ x session, s.sessionAt x = none ∧ session.channel = none ∧
        s.sessionManager.currentSessionCount < s.sessionManager.maxSessionCount ∧
          SessionManager.createSession s t memory guid now = (.good, some x, s.create x session) := by
  unfold SessionManager.createSession
  dsimp only
  by_cases hmax : s.sessionManager.maxSessionCount ≤ s.sessionManager.currentSessionCount
  · rw [if_pos hmax]
    exact Or.inl ⟨_, rfl⟩
  · rw [if_neg hmax]
    cases hgrant : SessionManager.grant s memory with
    | none => exact Or.inl ⟨_, rfl⟩
    | some x =>
        have hx : s.sessionAt x = none := by
          unfold SessionManager.grant at hgrant
          split at hgrant
          · cases hgrant
          · split at hgrant
            · cases hgrant
              assumption
            · cases hgrant
        exact Or.inr ⟨x, _, hx, rfl, by omega, rfl⟩

theorem createSession_follows (hs : Consistent s) (h : Speaks s c a)
    (request : CreateSessionRequest) :
    Follows (Update P) s Prod.snd (createSession s request) fun r => Speaks r.2 c a := by
  unfold createSession
  by_cases hendpoints : request.endpoints = .good
  · rw [if_neg (by simpa using hendpoints)]
    rcases createSession_cases s request.requestedSessionTimeout request.memory request.guid
      request.now with ⟨result, hnone⟩ | ⟨x, session, hx, hchannel, hmax, hcreate⟩
    · simp only [hnone]
      exact .pure rfl h
    · have hs' := hs.create session hx hchannel hmax
      have h' : Speaks (s.create x session) c a := h.of_channelAt rfl
      have hx' : (s.create x session).sessionAt x = some session := by
        simp [Server.create, Server.log, Server.setSession]
      simp only [hcreate]
      refine .head (.created session hx hchannel hmax) ?_
      by_cases hcopied : request.copied = .good
      · rw [if_neg (by simpa using hcopied)]
        exact .pure rfl h'
      · rw [if_pos hcopied]
        simp only [hx', Option.bind_eq_bind, Option.bind_some]
        refine .bind (removeSession_follows hs' h' session.authenticationToken) ?_
        intro r _ hr
        exact .pure rfl hr
  · rw [if_pos hendpoints]
    exact .pure rfl h

/-- An activation that the server accepts, with memory for it. -/
structure Activates (s : Server) (request : ActivateSessionRequest) (x : Address) : Prop where
  found : SessionManager.getSession s request.authenticationToken (request.clock 0) = some (some x)
  valid : ∀ session, s.sessionAt x = some session → request.clock 1 ≤ session.validTill
  accepted : authenticate s.config request.identity = .good
  entry : request.entry = true

/-- A session that is free or belongs to the channel already is attached, and activated. -/
theorem attach_follows (h : Speaks s c a) (hP : P c) {x : Address} {session : Session}
    (hx : s.sessionAt x = some session)
    (hchannel : session.channel = none ∨ session.channel = some a)
    (request : ActivateSessionRequest)
    (haccept : authenticate s.config request.identity = .good)
    (hanon : a = .anonymous → request.entry = false) :
    Follows (Update P) s id ((SecureChannel.attachSession s a x request.entry).bind fun s =>
      (s.sessionAt x).bind fun session => some ((s.setSession x
        ({ session with activated := true }.updateLifetime (request.clock 2))).log
          (.activated x a request.identity))) fun r => Speaks r c a := by
  -- Nothing is attached, so that the session stays where it is.
  have hstays : Follows (Update P) s id ((some s).bind fun s =>
      (s.sessionAt x).bind fun session => some ((s.setSession x
        ({ session with activated := true }.updateLifetime (request.clock 2))).log
          (.activated x a request.identity))) fun r => Speaks r c a := by
    simp only [Option.bind_some, hx]
    exact .one (.confirmed (request.clock 2) hx hchannel haccept) (h.of_channelAt rfl)
  unfold SecureChannel.attachSession
  cases hentry : request.entry with
  | false =>
      rw [if_neg (by simp)]
      exact hstays
  | true =>
      rw [if_pos rfl]
      rcases hchannel with hfree | hown
      · have hne : a ≠ .anonymous := by
          intro ha
          rw [hanon ha] at hentry
          cases hentry
        rcases h.channel with ⟨channel, ha, hc⟩
        have hset := h.setChannel { channel with sessions := x :: channel.sessions } ha rfl
        simp only [hx, hfree, ha, ne_eq, not_true_eq_false, if_false, Option.bind_eq_bind,
          Option.bind_some, Option.pure_def]
        simp only [setChannel, setSession, Function.update_self, Function.update_idem,
          Option.bind_some]
        refine .one (.activated (h.peer_allowed hP) (request.clock 2) hx hfree ha hne haccept) ?_
        exact hset.of_channelAt rfl
      · have hne : session.channel ≠ none := by rw [hown]; simp
        rw [hx, Option.bind_eq_bind, Option.bind_some, if_pos hne]
        exact hstays

/-- The session changes over to the channel, or stays without one for lack of memory. -/
theorem activate_follows (hs : Consistent s) (h : Speaks s c a) (hP : P c) {x : Address} {session : Session}
    (hx : s.sessionAt x = some session) (request : ActivateSessionRequest)
    (haccept : authenticate s.config request.identity = .good)
    (hanon : a = .anonymous → request.entry = false) :
    Follows (Update P) s id (activate s a x request) fun r => Speaks r c a := by
  simp only [activate, hx, Option.bind_eq_bind, Option.bind_some, Option.pure_def]
  cases hown : session.channel with
  | none => exact attach_follows h hP hx (Or.inl hown) request haccept hanon
  | some b =>
      by_cases hb : b = a
      · subst hb
        simp only [ne_eq, not_true_eq_false, if_false]
        exact attach_follows h hP hx (Or.inr hown) request haccept hanon
      · simp only [ne_eq, hb, not_false_eq_true, if_true]
        rw [detachSession_eq hs.grouped hx hown]
        simp only [Option.bind_some]
        refine .head (.detached hx) ?_
        have hx' : ((s.unlisted x).setSession x { session with channel := none }).sessionAt x =
            some { session with channel := none } := by
          simp [Server.setSession]
        have h' : Speaks ((s.unlisted x).setSession x { session with channel := none }) c a :=
          (h.unlisted x).of_channelAt rfl
        exact attach_follows h' hP hx' (Or.inl rfl) request haccept hanon

/-- The search in the list of the manager finds a session that is not timed out. -/
theorem getSession_eq (hs : Consistent s) (token : NodeId) (now : DateTime) :
    ∃ r, SessionManager.getSession s token now = some r ∧ ∀ x, r = some x →
      ∃ session, s.sessionAt x = some session ∧ session.authenticationToken = token := by
  rcases findSession_eq hs token with ⟨r, hr, hfound⟩
  simp only [SessionManager.getSession, hr, Option.bind_eq_bind, Option.bind_some]
  cases r with
  | none => exact ⟨none, rfl, by simp⟩
  | some x =>
      rcases hfound x rfl with ⟨session, hx, htoken⟩
      simp only [hx, Option.bind_some]
      refine ⟨_, rfl, ?_⟩
      intro y hy
      split at hy
      · cases hy
      · cases hy
        exact ⟨session, hx, htoken⟩

theorem activateSession_follows (hs : Consistent s) (h : Speaks s c a) (hP : P c)
    (request : ActivateSessionRequest)
    (hanon : a = .anonymous → ∀ x, ¬ Activates s request x) :
    Follows (Update P) s Prod.snd (activateSession s a request) fun r => Speaks r.2 c a := by
  rcases getSession_eq hs request.authenticationToken (request.clock 0) with ⟨r, hr, hfound⟩
  simp only [activateSession, hr, Option.bind_eq_bind, Option.bind_some]
  cases r with
  | none => exact .pure rfl h
  | some x =>
      rcases hfound x rfl with ⟨session, hx, _⟩
      simp only [hx, Option.bind_some]
      by_cases hvalid : session.validTill < request.clock 1
      · rw [if_pos hvalid]
        exact .pure rfl h
      · rw [if_neg hvalid]
        by_cases haccept : authenticate s.config request.identity = .good
        · rw [if_pos haccept]
          have hentry : a = .anonymous → request.entry = false := by
            intro ha
            by_contra hentry
            refine hanon ha x ⟨hr, ?_, haccept, by simpa using hentry⟩
            intro session' hx'
            rw [hx] at hx'
            cases hx'
            exact Int.not_lt.1 hvalid
          refine .bind (activate_follows hs h hP hx request haccept hentry) ?_
          intro r _ hr
          exact .pure rfl hr
        · rw [if_neg haccept]
          exact .pure rfl h

/-! ## Requests -/

theorem service_follows (hs : Consistent s) (h : Speaks s c a) {x : Address} {session : Session}
    (hx : s.sessionAt x = some session) (kind : Service) (result : StatusCode) :
    Follows (Update P) s Prod.snd (service s x kind result) fun r => Speaks r.2 c a := by
  cases kind with
  | closeSession =>
      simp only [service, hx, Option.bind_eq_bind, Option.bind_some]
      exact removeSession_follows hs h session.authenticationToken
  | _ => exact .pure rfl h

theorem serve_follows (hs : Consistent s) (h : Speaks s c a) (request : ServiceRequest) :
    Follows (Update P) s Prod.snd (serve s a request) fun r => Speaks r.2 c a := by
  rcases h.channel with ⟨channel, ha, hc⟩
  have hlive : ∀ x ∈ channel.sessions, s.sessionAt x ≠ none := by
    intro x hx
    rcases hs.sessionAt_of_members ha hx with ⟨session, hsession, _⟩
    rw [hsession]
    simp
  rcases find_eq s request.authenticationToken hlive with ⟨r, hr, hfound⟩
  simp only [serve, SecureChannel.getSession, ha, hr, Option.bind_eq_bind, Option.bind_some]
  cases r with
  | none => exact .pure rfl h
  | some x =>
      rcases hs.sessionAt_of_members ha (hfound x rfl).1 with ⟨session, hx, hown⟩
      simp only [hx, Option.bind_some]
      rw [if_neg (by rw [hown]; simp)]
      cases hactivated : session.activated with
      | false =>
          rw [if_pos rfl]
          exact .pure rfl h
      | true =>
          rw [if_neg (by simp)]
          have hserved : Update P s ((s.setSession x (session.updateLifetime request.now)).log
              (.served x a request.kind)) := .served request.now request.kind hx hown hactivated
          have hs' := hserved.consistent hs
          have h' : Speaks ((s.setSession x (session.updateLifetime request.now)).log
              (.served x a request.kind)) c a := h.of_channelAt rfl
          have hx' : ((s.setSession x (session.updateLifetime request.now)).log
              (.served x a request.kind)).sessionAt x =
                some (session.updateLifetime request.now) := by
            simp [Server.log, Server.setSession]
          exact .head hserved (service_follows hs' h' hx' request.kind request.result)

theorem respond_follows (hs : Consistent s) (h : Speaks s c a) (hP : P c)
    (request : ServiceRequest) (result : StatusCode) :
    Follows (Update P) s id (respond s a request result) fun r => Speaks r c a := by
  simp only [respond, Option.bind_eq_bind]
  refine .bind (sendBinaryMessage_follows hs h hP request.out result) ?_
  intro r hsteps hr
  by_cases hgood : r.1 = .good
  · rw [if_pos hgood]
    exact .pure rfl hr
  · rw [if_neg hgood]
    refine .bind (sendBinaryMessage_follows (steps_consistent hsteps hs) hr hP request.fault _) ?_
    intro r' _ hr'
    exact .pure rfl hr'

theorem invokeService_follows (hs : Consistent s) (h : Speaks s c a) (hP : P c)
    (request : ServiceRequest) :
    Follows (Update P) s id (invokeService s a request) fun r => Speaks r c a := by
  simp only [invokeService, Option.bind_eq_bind]
  refine .bind (serve_follows hs h request) ?_
  intro r hsteps hr
  exact respond_follows (steps_consistent hsteps hs) hr hP request r.1

theorem processRequest_follows (hs : Consistent s) (h : Speaks s c a) (hP : P c)
    (request : Request) (hanon : a = .anonymous → ∀ activation out,
      request = .activateSession activation out → ∀ x, ¬ Activates s activation x) :
    Follows (Update P) s id (processRequest s a request) fun r => Speaks r c a := by
  cases request with
  | undecodable => exact .pure rfl h
  | sessionless result out =>
      refine .bind (sendBinaryMessage_follows hs h hP out result) ?_
      intro r _ hr
      exact .pure rfl hr
  | createSession request out =>
      refine .bind (createSession_follows hs h request) ?_
      intro r hsteps hr
      refine .bind (sendBinaryMessage_follows (steps_consistent hsteps hs) hr hP out r.1) ?_
      intro r' _ hr'
      exact .pure rfl hr'
  | activateSession request out =>
      refine .bind (activateSession_follows hs h hP request fun ha => hanon ha request out rfl) ?_
      intro r hsteps hr
      refine .bind (sendBinaryMessage_follows (steps_consistent hsteps hs) hr hP out r.1) ?_
      intro r' _ hr'
      exact .pure rfl hr'
  | service request => exact invokeService_follows hs h hP request

/-! ## Closing a channel -/

theorem Ready.withoutChannel (h : Ready s c) (a : ChannelAddress) :
    Ready (s.withoutChannel a) c := by
  constructor
  · simpa [Server.withoutChannel] using h.connection
  · by_cases ha : a = .anonymous
    · subst ha
      simp [Server.withoutChannel]
    · have hne : (ChannelAddress.anonymous) ≠ a := fun heq => ha heq.symm
      simpa [Server.withoutChannel, hne] using h.quiet

/-- The first channel with the id is removed.  Whose connections it may have is told by `P`. -/
theorem closeEntry_follows (hs : Consistent s) (h : Ready s c) (channelId : UInt32)
    {as : List ChannelAddress} (has : ∀ a ∈ as, a ∈ s.secureChannelManager.channels)
    (hP : ∀ a channel, s.channelAt a = some channel → channel.securityToken.channelId = channelId →
      ∀ d, s.peer a = some d → P d) :
    Follows (Update P) s id (SecureChannelManager.closeEntry s channelId as) fun r => Ready r c := by
  induction as with
  | nil => exact .pure rfl h
  | cons a as ih =>
      have ha := has a List.mem_cons_self
      rcases Option.ne_none_iff_exists'.1 ((hs.mem_channels a).1 ha).2 with ⟨channel, hchannel⟩
      simp only [SecureChannelManager.closeEntry, hchannel, Option.bind_eq_bind, Option.bind_some]
      by_cases hid : channel.securityToken.channelId = channelId
      · rw [if_pos hid, removeChannel_eq hs ha]
        exact .one (.removed (hP a channel hchannel hid) ha) (h.withoutChannel a)
      · rw [if_neg hid]
        exact ih fun b hb => has b (List.mem_cons_of_mem a hb)

theorem closeSecureChannel_follows (hs : Consistent s) (h : Ready s c) (channelId : UInt32)
    (hP : ∀ a channel, s.channelAt a = some channel → channel.securityToken.channelId = channelId →
      ∀ d, s.peer a = some d → P d) :
    Follows (Update P) s id (closeSecureChannel s channelId) fun r => Ready r c :=
  closeEntry_follows hs h channelId (fun _ ha => ha) hP

theorem close_follows (h : Ready s c) (hP : P c) :
    Follows (Update P) s id (Connection.close s c) fun r => Ready r c := by
  rcases Option.ne_none_iff_exists'.1 h.connection with ⟨connection, hc⟩
  rw [close_eq hc]
  refine .one (.stateChanged .closed hP hc) ⟨?_, h.quiet⟩
  simp [Server.setConnection]

/-! ## Messages -/

theorem find_congr {s' : Server} (heq : s'.sessionAt = s.sessionAt) (token : NodeId)
    (xs : List Address) : SecureChannel.find s' token xs = SecureChannel.find s token xs := by
  induction xs with
  | nil => rfl
  | cons x xs ih => rw [SecureChannel.find, SecureChannel.find, heq, ih]

/-- Activation does not look at channels. -/
theorem activates_setChannel {channel : SecureChannel} {request : ActivateSessionRequest}
    {x : Address} :
    Activates (s.setChannel a channel) request x ↔ Activates s request x := by
  have hsame : (s.setChannel a channel).sessionAt = s.sessionAt := rfl
  constructor
  · intro h
    refine ⟨?_, h.valid, h.accepted, h.entry⟩
    have hfound := h.found
    simp only [SessionManager.getSession] at hfound ⊢
    rwa [find_congr hsame] at hfound
  · intro h
    refine ⟨?_, h.valid, h.accepted, h.entry⟩
    have hfound := h.found
    simp only [SessionManager.getSession] at hfound ⊢
    rwa [find_congr hsame]

/-- A request of a channel, which is closed when the token is wrong. -/
theorem processSecured_follows (hs : Consistent s) (h : Speaks s c a) (hP : P c)
    (ha : a ≠ .anonymous) (m : SecuredMessage)
    (hid : ∀ channel, s.channelAt a = some channel → ∀ b channel', s.channelAt b = some channel' →
      channel'.securityToken.channelId = channel.securityToken.channelId →
        ∀ d, s.peer b = some d → P d) :
    Follows (Update P) s id (processSecured s a m) fun r => Ready r c := by
  have hanon : ∀ {s : Server}, a = .anonymous → ∀ activation out,
      m.request = .activateSession activation out → ∀ x, ¬ Activates s activation x :=
    fun heq => absurd heq ha
  rcases h.channel with ⟨channel, hchannel, _⟩
  unfold processSecured
  cases m.tokenId with
  | none => exact .pure rfl (h.ready hs ha)
  | some tokenId =>
      dsimp only
      by_cases hzero : tokenId = 0
      · rw [if_pos hzero]
        exact .pure rfl (h.ready hs ha)
      · rw [if_neg hzero, if_neg ha]
        simp only [hchannel, Option.bind_eq_bind, Option.bind_some]
        by_cases hcurrent : tokenId = channel.securityToken.tokenId
        · rw [if_pos hcurrent]
          rcases processRequest_follows hs h hP m.request hanon with ⟨r, hr, hsteps, hspeaks⟩
          exact ⟨r, hr, hsteps, hspeaks.ready (steps_consistent hsteps hs) ha⟩
        · rw [if_neg hcurrent]
          by_cases hnext : tokenId = channel.nextSecurityToken.tokenId
          · rw [if_neg (by simpa using hnext)]
            have hpending : channel.nextSecurityToken.tokenId ≠ 0 := by
              rwa [← hnext]
            have hrevolved : Update P s (s.setChannel a channel.revolve) :=
              .revolved (h.peer_allowed hP) hchannel hpending
            have hs' := hrevolved.consistent hs
            have h' := h.setChannel channel.revolve hchannel rfl
            simp only [SecureChannel.revolveTokens, hchannel, Option.bind_eq_bind,
              Option.bind_some, if_neg hpending, Option.pure_def]
            refine .head hrevolved ?_
            rcases processRequest_follows hs' h' hP m.request hanon with ⟨r, hr, hsteps, hspeaks⟩
            exact ⟨r, hr, hsteps, hspeaks.ready (steps_consistent hsteps hs') ha⟩
          · rw [if_pos hnext]
            exact closeSecureChannel_follows hs (h.ready hs ha) _ (hid channel hchannel)

/-- A request over the anonymous channel, which is gone behind it. -/
theorem processAnonymous_follows (hs : Consistent s) (h : Ready s c) (hP : P c)
    (m : SecuredMessage) (hanon : ∀ tokenId, m.tokenId = some tokenId → tokenId ≠ 0 →
      ∀ activation out, m.request = .activateSession activation out →
        ∀ x, ¬ Activates s activation x) :
    Follows (Update P) s id ((processSecured (s.setChannel .anonymous
      { SecureChannel.init with connection := some c }) .anonymous m).bind fun s =>
        some (s.freeChannel .anonymous)) fun r => Ready r c := by
  have hs' := hs.enter h.connection
  have h' : Speaks (s.setChannel .anonymous { SecureChannel.init with connection := some c }) c
      .anonymous :=
    ⟨⟨{ SecureChannel.init with connection := some c }, by simp [Server.setChannel], rfl⟩,
      fun hne => absurd rfl hne⟩
  have hfollows : Follows (Update P)
      (s.setChannel .anonymous { SecureChannel.init with connection := some c }) id
      (processSecured (s.setChannel .anonymous { SecureChannel.init with connection := some c })
        .anonymous m) fun r => Speaks r c .anonymous := by
    unfold processSecured
    cases htoken : m.tokenId with
    | none => exact .pure rfl h'
    | some tokenId =>
        dsimp only
        by_cases hzero : tokenId = 0
        · rw [if_pos hzero]
          exact .pure rfl h'
        · rw [if_neg hzero, if_pos rfl]
          refine processRequest_follows hs' h' hP m.request ?_
          intro _ activation out hrequest x hactivates
          exact hanon tokenId htoken hzero activation out hrequest x
            (activates_setChannel.1 hactivates)
  refine .head (.entered h.connection) (.bind hfollows ?_)
  intro r hsteps hr
  refine .one .left ⟨?_, by simp [Server.freeChannel]⟩
  rcases hr.channel with ⟨channel, hchannel, hc⟩
  rcases (steps_consistent hsteps hs').connectionAt_of_channel hchannel hc with
    ⟨connection, hconnection⟩
  have hlive : r.connectionAt c ≠ none := by
    rw [show r.connectionAt c = some connection from hconnection]
    simp
  exact hlive

/-- A request for a channel that the server grants. -/
structure Grants (s : Server) (request : OpenSecureChannelRequest) (memory : Option Address) :
    Prop where
  issue : request.requestType = securityTokenRequestTypeIssue
  mode : request.securityMode = messageSecurityModeNone
  memory : SecureChannelManager.grant s memory ≠ none
  room : s.secureChannelManager.currentChannelCount < s.secureChannelManager.maxChannelCount

theorem grant_eq_some {memory : Option Address}
    (h : SecureChannelManager.grant s memory = some a) :
    ∃ n, a = .entry n ∧ s.channelAt (.entry n) = none := by
  unfold SecureChannelManager.grant at h
  split at h
  · cases h
  · rename_i n
    split at h
    · cases h
      exact ⟨n, rfl, by assumption⟩
    · cases h

/-- A channel is refused, or issued to the connection. -/
theorem openChannel_cases {connection : Connection} (hc : s.connectionAt c = some connection)
    (request : OpenSecureChannelRequest) (memory : Option Address) (now : DateTime)
    (hissue : request.requestType = securityTokenRequestTypeIssue) :
    (¬ Grants s request memory ∧ ∃ result,
      SecureChannelManager.openChannel s c request memory now = some (result, .init, s)) ∨
        Grants s request memory ∧ ∃ n lifetime, s.channelAt (.entry n) = none ∧
          SecureChannelManager.openChannel s c request memory now = some (.good,
            ⟨s.secureChannelManager.lastChannelId, s.secureChannelManager.lastTokenId, now, lifetime⟩,
              s.issue c n connection now lifetime) := by
  unfold SecureChannelManager.openChannel
  dsimp only
  by_cases hmode : request.securityMode = messageSecurityModeNone
  · rw [if_neg (by simpa using hmode)]
    cases hgrant : SecureChannelManager.grant s memory with
    | none => exact Or.inl ⟨fun h => h.memory hgrant, _, rfl⟩
    | some a =>
        rcases grant_eq_some hgrant with ⟨n, rfl, hn⟩
        dsimp only
        by_cases hmax : s.secureChannelManager.maxChannelCount ≤
            s.secureChannelManager.currentChannelCount
        · rw [if_pos hmax]
          exact Or.inl ⟨fun h => absurd h.room (by omega), _, rfl⟩
        · rw [if_neg hmax]
          refine Or.inr ⟨⟨hissue, hmode, by rw [hgrant]; simp, by omega⟩, n,
            s.secureChannelManager.revisedLifetime request.requestedLifetime, hn, ?_⟩
          simp [Connection.attachSecureChannel, Server.issue, Server.setChannel,
            Server.setConnection, Server.log, SecureChannel.init, hc]
  · rw [if_pos hmode]
    exact Or.inl ⟨fun h => hmode h.mode, _, rfl⟩

theorem Ready.setChannel (h : Ready s c) {a : ChannelAddress} (ha : a ≠ .anonymous)
    (channel : SecureChannel) : Ready (s.setChannel a channel) c := by
  have hne : (ChannelAddress.anonymous) ≠ a := fun heq => ha heq.symm
  exact ⟨h.connection, by simpa [Server.setChannel, hne] using h.quiet⟩

/-- A channel is issued to a connection that has none, or a token to one that has one. -/
theorem openSecureChannel_follows (hs : Consistent s) (h : Ready s c) (hP : P c)
    (request : OpenSecureChannelRequest) (memory : Option Address) (now : DateTime)
    (hfree : Grants s request memory → s.bound c = none) :
    Follows (Update P) s (fun r => r.2.2) (openSecureChannel s c request memory now)
      fun r => Ready r.2.2 c := by
  rcases Option.ne_none_iff_exists'.1 h.connection with ⟨connection, hc⟩
  unfold openSecureChannel
  by_cases hissue : request.requestType = securityTokenRequestTypeIssue
  · rw [if_pos hissue]
    rcases openChannel_cases hc request memory now hissue with
      ⟨_, result, hrefused⟩ | ⟨hgrants, n, lifetime, hn, hissued⟩
    · rw [hrefused]
      exact .pure rfl h
    · have hbound : connection.channel = none := by
        rw [← bound_eq hc]
        exact hfree hgrants
      rw [hissued]
      refine .one (.issued hP now lifetime hc hbound hn hgrants.room) ⟨?_, h.quiet⟩
      simp [Server.issue, Server.log, Server.setConnection]
  · rw [if_neg hissue]
    simp only [SecureChannelManager.renewChannel, hc, Option.bind_eq_bind, Option.bind_some]
    cases hbound : connection.channel with
    | none => exact .pure rfl h
    | some a =>
        have hb : s.bound c = some a := (bound_eq hc).trans hbound
        rcases hs.channelAt_of_bound hb with ⟨hanon, channel, ha, hpeer⟩
        simp only [ha, Option.bind_some]
        by_cases hnext : channel.nextSecurityToken.tokenId = 0
        · rw [if_pos hnext]
          have hne : (ChannelAddress.anonymous) ≠ a := fun heq => hanon heq.symm
          refine .one (.renewed hP now _ (hs.peer_iff.2 hb) ha hnext) ⟨h.connection, ?_⟩
          simpa [Server.log, Server.setChannel, hne] using h.quiet
        · rw [if_neg hnext]
          exact .pure rfl h

theorem respondOpen_follows (hs : Consistent s) (h : Ready s c) (hP : P c) (out : Sending)
    (result : StatusCode) :
    Follows (Update P) s id (respondOpen s c out result) fun r => Ready r c := by
  rcases Option.ne_none_iff_exists'.1 h.connection with ⟨connection, hc⟩
  simp only [respondOpen, hc, Option.bind_eq_bind, Option.bind_some]
  cases hbound : connection.channel with
  | none => exact close_follows h hP
  | some a =>
      rcases hs.speaks h.quiet ((bound_eq hc).trans hbound) with ⟨hanon, hspeaks⟩
      rcases hspeaks.channel with ⟨channel, ha, _⟩
      have hcount := h.setChannel hanon channel.count
      have hcounted : Update P s (s.setChannel a channel.count) :=
        .counted (hspeaks.peer_allowed hP) ha
      simp only [ha, Option.bind_some]
      by_cases hbuffer : out.buffer = .good
      · rw [if_neg (by simpa using hbuffer)]
        by_cases hencoding : out.encoding = .good
        · rw [if_neg (by simpa using hencoding)]
          cases hsent : out.sent with
          | true =>
              simp only [send, if_true, Option.pure_def, Option.bind_some]
              exact .one (.sent (hspeaks.peer_allowed hP) ha result)
                ⟨hcount.connection, hcount.quiet⟩
          | false =>
              rcases close_follows (P := P) hcount hP with ⟨t, ht, hsteps, hready⟩
              simp only [send, Bool.false_eq_true, if_false, ht, Option.bind_eq_bind,
                Option.pure_def, Option.bind_some]
              exact .head hcounted ⟨t, rfl, hsteps, hready⟩
        · rw [if_pos hencoding]
          exact .head hcounted (close_follows hcount hP)
      · rw [if_pos hbuffer]
        exact .one hcounted hcount

theorem processOPN_follows (hs : Consistent s) (h : Ready s c) (hP : P c) (m : OpenMessage)
    (hsafe : ∀ connection request, s.connectionAt c = some connection →
      connection.state = .established → m.request = some request →
        Grants s request m.memory → connection.channel = none) :
    Follows (Update P) s id (processOPN s c m) fun r => Ready r c := by
  rcases Option.ne_none_iff_exists'.1 h.connection with ⟨connection, hc⟩
  simp only [processOPN, hc, Option.bind_eq_bind, Option.bind_some]
  by_cases hstate : connection.state = .established
  · rw [if_neg (by simpa using hstate)]
    cases hrequest : m.request with
    | none => exact close_follows h hP
    | some request =>
        refine .bind (openSecureChannel_follows hs h hP request m.memory m.now ?_) ?_
        · intro hgrants
          rw [bound_eq hc]
          exact hsafe connection request hc hstate hrequest hgrants
        · intro r hsteps hr
          exact respondOpen_follows (steps_consistent hsteps hs) hr hP m.out r.1
  · rw [if_pos hstate]
    exact close_follows h hP

theorem processHEL_follows (h : Ready s c) (hP : P c) (decoded : Bool) (out : Sending) :
    Follows (Update P) s id (processHEL s c decoded out) fun r => Ready r c := by
  rcases Option.ne_none_iff_exists'.1 h.connection with ⟨connection, hc⟩
  unfold processHEL
  cases decoded with
  | false =>
      rw [if_neg (by simp)]
      exact close_follows h hP
  | true =>
      rw [if_pos rfl, hc]
      simp only [Option.bind_eq_bind, Option.bind_some]
      have hready : Ready (s.setConnection c { connection with state := .established }) c :=
        ⟨by simp [Server.setConnection], h.quiet⟩
      refine .head (.stateChanged .established hP hc) ?_
      by_cases hsent : out.buffer ≠ .good ∨ out.sent = true
      · rw [if_pos hsent]
        exact .pure rfl hready
      · rw [if_neg hsent]
        exact close_follows hready hP

/-- The ids of `c`'s channel belong to channels of connections that `P` allows. -/
def Owned (P : Address → Prop) (s : Server) (c : Address) : Prop :=
  ∀ a channel, s.bound c = some a → s.channelAt a = some channel → ∀ b channel',
    s.channelAt b = some channel' →
      channel'.securityToken.channelId = channel.securityToken.channelId →
        ∀ d, s.peer b = some d → P d

theorem processCLO_follows (hs : Consistent s) (h : Ready s c) (hP : Owned P s c)
    (secureChannelId : Option UInt32) :
    Follows (Update P) s id (processCLO s c secureChannelId) fun r => Ready r c := by
  rcases Option.ne_none_iff_exists'.1 h.connection with ⟨connection, hc⟩
  unfold processCLO
  cases secureChannelId with
  | none => exact .pure rfl h
  | some channelId =>
      simp only [hc, Option.bind_eq_bind, Option.bind_some]
      cases hbound : connection.channel with
      | none => exact .pure rfl h
      | some a =>
          have hb : s.bound c = some a := (bound_eq hc).trans hbound
          rcases hs.channelAt_of_bound hb with ⟨_, channel, ha, _⟩
          simp only [ha, Option.bind_some]
          by_cases hid : channel.securityToken.channelId = channelId
          · rw [if_neg (by simpa using hid), ← hid]
            exact closeSecureChannel_follows hs h _ (hP a channel hb ha)
          · rw [if_pos hid]
            exact .pure rfl h

theorem processMSG_follows (hs : Consistent s) (h : Ready s c) (hP : P c) (howned : Owned P s c)
    (m : SecuredMessage) (hsafe : s.bound c = none → ∀ tokenId, m.tokenId = some tokenId →
      tokenId ≠ 0 → ∀ activation out, m.request = .activateSession activation out →
        ∀ x, ¬ Activates s activation x) :
    Follows (Update P) s id (processMSG s c m) fun r => Ready r c := by
  rcases Option.ne_none_iff_exists'.1 h.connection with ⟨connection, hc⟩
  simp only [processMSG, hc, Option.bind_eq_bind, Option.bind_some]
  cases hbound : connection.channel with
  | none => exact processAnonymous_follows hs h hP m (hsafe ((bound_eq hc).trans hbound))
  | some a =>
      have hb : s.bound c = some a := (bound_eq hc).trans hbound
      rcases hs.speaks h.quiet hb with ⟨hanon, hspeaks⟩
      exact processSecured_follows hs hspeaks hP hanon m fun channel ha => howned a channel hb ha

/-- The messages that leave a pointer where it should not be: a second channel is issued to the
connection, or a session is activated over the anonymous channel. -/
inductive Dangles (s : Server) (c : Address) : Message → Prop
  | reissued {m : OpenMessage} {request : OpenSecureChannelRequest} {connection : Connection}
      (hc : s.connectionAt c = some connection) (hstate : connection.state = .established)
      (hchannel : connection.channel ≠ none) (hrequest : m.request = some request)
      (hgrants : Grants s request m.memory) : Dangles s c (.openSecureChannel m)
  | left {m : SecuredMessage} {request : ActivateSessionRequest} {out : Sending} {tokenId : UInt32}
      {connection : Connection} {x : Address} (hc : s.connectionAt c = some connection)
      (hstate : connection.state = .established) (hchannel : connection.channel = none)
      (htoken : m.tokenId = some tokenId) (hne : tokenId ≠ 0)
      (hrequest : m.request = .activateSession request out) (hactivates : Activates s request x) :
      Dangles s c (.secured m)

/-- **A message that leaves no pointer behind makes changes of the graph only.** -/
theorem processMessage_follows (hs : Consistent s) (h : Ready s c) (hP : P c)
    (howned : Owned P s c) {m : Message} (hsafe : ¬ Dangles s c m) :
    Follows (Update P) s Prod.snd (processMessage s c m) fun r => Ready r.2 c := by
  cases m with
  | malformed =>
      refine .bind (close_follows h hP) ?_
      intro r _ hr
      exact .pure rfl hr
  | hello decoded out =>
      refine .bind (processHEL_follows h hP decoded out) ?_
      intro r _ hr
      exact .pure rfl hr
  | openSecureChannel m =>
      refine .bind (processOPN_follows hs h hP m ?_) ?_
      · intro connection request hc hstate hrequest hgrants
        by_contra hchannel
        exact hsafe (.reissued hc hstate hchannel hrequest hgrants)
      · intro r _ hr
        exact .pure rfl hr
  | secured m =>
      rcases Option.ne_none_iff_exists'.1 h.connection with ⟨connection, hc⟩
      simp only [processMessage, hc, Option.bind_eq_bind, Option.bind_some]
      by_cases hstate : connection.state = .established
      · rw [if_neg (by simpa using hstate)]
        refine .bind (processMSG_follows hs h hP howned m ?_) ?_
        · intro hbound tokenId htoken hne activation out hrequest x hactivates
          rw [bound_eq hc] at hbound
          exact hsafe (.left hc hstate hbound htoken hne hrequest hactivates)
        · intro r _ hr
          exact .pure rfl hr
      · rw [if_pos hstate]
        refine .bind (close_follows h hP) ?_
        intro r _ hr
        exact .pure rfl hr
  | closeSecureChannel secureChannelId =>
      refine .bind (processCLO_follows hs h howned secureChannelId) ?_
      intro r _ hr
      refine .bind (close_follows hr hP) ?_
      intro r' _ hr'
      exact .pure rfl hr'
  | unknown => exact .pure rfl h

end Channels

end ForteOpcUa
