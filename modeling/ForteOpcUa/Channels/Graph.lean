import ForteOpcUa.Channels.Dispatch
import ForteOpcUa.Pointers.Links

/-!
# Graph — the objects and their links

What the managers do, seen from above: connections and channels are linked one to one, sessions belong
to channels.  `Update` lists the changes that the server ever makes to the graph, each in one piece,
and `Consistent` is what all of them keep.

The parameter of `Update` tells whose connections and channels may be changed.
-/

namespace ForteOpcUa

namespace Channels

open Pointers

namespace Server

/-! ## The links -/

/-- The channel of a connection. -/
def bound (s : Server) (c : Address) : Option ChannelAddress :=
  (s.connectionAt c).bind fun connection => connection.channel

/-- The connection of a channel.  The anonymous channel belongs to no connection. -/
def peer (s : Server) (a : ChannelAddress) : Option Address :=
  if a = .anonymous then none else (s.channelAt a).bind fun channel => channel.connection

/-- The channel of a session. -/
def owner (s : Server) (x : Address) : Option ChannelAddress :=
  (s.sessionAt x).bind fun session => session.channel

/-- The sessions of a channel. -/
def members (s : Server) (a : ChannelAddress) : List Address :=
  ((s.channelAt a).map fun channel => channel.sessions).getD []

theorem bound_eq {s : Server} {c : Address} {connection : Connection}
    (h : s.connectionAt c = some connection) : s.bound c = connection.channel := by
  rw [bound, h]
  rfl

theorem peer_eq {s : Server} {a : ChannelAddress} {channel : SecureChannel} (ha : a ≠ .anonymous)
    (h : s.channelAt a = some channel) : s.peer a = channel.connection := by
  rw [peer, if_neg ha, h]
  rfl

theorem owner_eq {s : Server} {x : Address} {session : Session}
    (h : s.sessionAt x = some session) : s.owner x = session.channel := by
  rw [owner, h]
  rfl

theorem members_eq {s : Server} {a : ChannelAddress} {channel : SecureChannel}
    (h : s.channelAt a = some channel) : s.members a = channel.sessions := by
  rw [members, h]
  rfl

theorem connectionAt_of_bound {s : Server} {c : Address} {a : ChannelAddress}
    (h : s.bound c = some a) :
    ∃ connection, s.connectionAt c = some connection ∧ connection.channel = some a :=
  Option.bind_eq_some_iff.1 h

theorem channelAt_of_peer {s : Server} {a : ChannelAddress} {c : Address}
    (h : s.peer a = some c) :
    a ≠ .anonymous ∧ ∃ channel, s.channelAt a = some channel ∧ channel.connection = some c := by
  unfold peer at h
  split at h
  · cases h
  · rename_i ha
    exact ⟨ha, Option.bind_eq_some_iff.1 h⟩

theorem sessionAt_of_owner {s : Server} {x : Address} {a : ChannelAddress}
    (h : s.owner x = some a) :
    ∃ session, s.sessionAt x = some session ∧ session.channel = some a :=
  Option.bind_eq_some_iff.1 h

theorem channelAt_of_members {s : Server} {a : ChannelAddress} {x : Address}
    (h : x ∈ s.members a) :
    ∃ channel, s.channelAt a = some channel ∧ x ∈ channel.sessions := by
  unfold members at h
  cases hc : s.channelAt a with
  | none =>
      rw [hc] at h
      cases h
  | some channel =>
      rw [hc] at h
      exact ⟨channel, rfl, h⟩

/-! ## The links after a write -/

section Writes

variable (s : Server) (c x : Address) (a : ChannelAddress) (connection : Connection)
  (channel : SecureChannel) (session : Session) (e : Event)

@[simp] theorem bound_setConnection :
    (s.setConnection c connection).bound = Function.update s.bound c connection.channel := by
  funext c'
  by_cases h : c' = c
  · subst h
    simp [bound, setConnection]
  · simp [bound, setConnection, h]

@[simp] theorem bound_setChannel : (s.setChannel a channel).bound = s.bound := rfl
@[simp] theorem bound_freeChannel : (s.freeChannel a).bound = s.bound := rfl
@[simp] theorem bound_setSession : (s.setSession x session).bound = s.bound := rfl
@[simp] theorem bound_log : (s.log e).bound = s.bound := rfl

@[simp] theorem peer_setConnection : (s.setConnection c connection).peer = s.peer := rfl
@[simp] theorem peer_setSession : (s.setSession x session).peer = s.peer := rfl
@[simp] theorem peer_log : (s.log e).peer = s.peer := rfl

@[simp] theorem peer_anonymous : s.peer .anonymous = none := rfl

@[simp] theorem peer_setAnonymous : (s.setChannel .anonymous channel).peer = s.peer := by
  funext a'
  by_cases h : a' = .anonymous
  · subst h
    rfl
  · simp [peer, setChannel, h]

@[simp] theorem peer_freeAnonymous : (s.freeChannel .anonymous).peer = s.peer := by
  funext a'
  by_cases h : a' = .anonymous
  · subst h
    rfl
  · simp [peer, freeChannel, h]

theorem peer_setChannel {a : ChannelAddress} (ha : a ≠ .anonymous) :
    (s.setChannel a channel).peer = Function.update s.peer a channel.connection := by
  funext a'
  by_cases h : a' = a
  · subst h
    simp [peer, setChannel, ha]
  · simp [peer, setChannel, h]

@[simp] theorem owner_setConnection : (s.setConnection c connection).owner = s.owner := rfl
@[simp] theorem owner_setChannel : (s.setChannel a channel).owner = s.owner := rfl
@[simp] theorem owner_freeChannel : (s.freeChannel a).owner = s.owner := rfl
@[simp] theorem owner_log : (s.log e).owner = s.owner := rfl

@[simp] theorem owner_setSession :
    (s.setSession x session).owner = Function.update s.owner x session.channel := by
  funext x'
  by_cases h : x' = x
  · subst h
    simp [owner, setSession]
  · simp [owner, setSession, h]

@[simp] theorem members_setConnection : (s.setConnection c connection).members = s.members := rfl
@[simp] theorem members_setSession : (s.setSession x session).members = s.members := rfl
@[simp] theorem members_log : (s.log e).members = s.members := rfl

@[simp] theorem members_setChannel :
    (s.setChannel a channel).members = Function.update s.members a channel.sessions := by
  funext a'
  by_cases h : a' = a
  · subst h
    simp [members, setChannel]
  · simp [members, setChannel, h]

@[simp] theorem members_freeChannel :
    (s.freeChannel a).members = Function.update s.members a [] := by
  funext a'
  by_cases h : a' = a
  · subst h
    simp [members, freeChannel]
  · simp [members, freeChannel, h]

end Writes

/-! ## New objects -/

/-- A channel is issued to a connection. -/
def issue (s : Server) (c n : Address) (connection : Connection) (now : DateTime)
    (lifetime : UInt32) : Server :=
  let cm := s.secureChannelManager
  let token : ChannelSecurityToken :=
    { channelId := cm.lastChannelId, tokenId := cm.lastTokenId, createdAt := now,
      revisedLifetime := lifetime }
  (({ s with secureChannelManager := { cm with
      channels := .entry n :: cm.channels, currentChannelCount := cm.currentChannelCount + 1,
      lastChannelId := cm.lastChannelId + 1, lastTokenId := cm.lastTokenId + 1 } }.setChannel
    (.entry n) { SecureChannel.init with securityToken := token, connection := some c }).setConnection
      c { connection with channel := some (.entry n) }).log (.issued (.entry n) token)

/-- A channel gets its next token. -/
def renew (s : Server) (a : ChannelAddress) (channel : SecureChannel) (now : DateTime)
    (lifetime : UInt32) : Server :=
  let cm := s.secureChannelManager
  let token : ChannelSecurityToken :=
    { channelId := channel.securityToken.channelId, tokenId := cm.lastTokenId, createdAt := now,
      revisedLifetime := lifetime }
  ({ s with secureChannelManager := { cm with lastTokenId := cm.lastTokenId + 1 } }.setChannel a
    { channel with nextSecurityToken := token }).log (.renewed a token)

/-- A session is added to the list. -/
def create (s : Server) (x : Address) (session : Session) : Server :=
  let sm := s.sessionManager
  ({ s with sessionManager := { sm with
      sessions := x :: sm.sessions, lastSessionId := sm.lastSessionId + 1,
      currentSessionCount := sm.currentSessionCount + 1 } }.setSession x session).log
    (.created x session.authenticationToken)

/-! ## Removals -/

/-- Without a channel: its connection is closed, and its sessions have none. -/
def withoutChannel (s : Server) (a : ChannelAddress) : Server :=
  { s with
    connectionAt := fun c => (s.connectionAt c).map fun connection =>
      if connection.channel = some a then ⟨.closed, none⟩ else connection
    channelAt := Function.update s.channelAt a none
    sessionAt := fun x => (s.sessionAt x).map fun session =>
      if session.channel = some a then { session with channel := none } else session
    secureChannelManager := { s.secureChannelManager with
      channels := s.secureChannelManager.channels.erase a
      currentChannelCount := s.secureChannelManager.currentChannelCount - 1 }
    events := s.events ++ [.removed a] }

/-- A session is in no list of a channel any more. -/
def unlisted (s : Server) (x : Address) : Server :=
  { s with
    channelAt := fun a => (s.channelAt a).map fun channel =>
      { channel with sessions := channel.sessions.erase x } }

/-- Without a session. -/
def withoutSession (s : Server) (x : Address) : Server :=
  { s.unlisted x with
    sessionAt := Function.update s.sessionAt x none
    sessionManager := { s.sessionManager with
      sessions := s.sessionManager.sessions.erase x
      currentSessionCount := s.sessionManager.currentSessionCount - 1 }
    events := s.events ++ [.closed x] }

/-- Without a connection: its channel has none. -/
def withoutConnection (s : Server) (c : Address) : Server :=
  { s with
    connectionAt := Function.update s.connectionAt c none
    channelAt := fun a => (s.channelAt a).map fun channel =>
      if channel.connection = some c then { channel with connection := none } else channel }

section Removals

variable (s : Server) (a : ChannelAddress) (c x : Address)

theorem bound_withoutChannel :
    (s.withoutChannel a).bound = fun c => if s.bound c = some a then none else s.bound c := by
  funext c'
  cases h : s.connectionAt c' with
  | none => simp [bound, withoutChannel, h]
  | some connection =>
      by_cases hc : connection.channel = some a
      · simp [bound, withoutChannel, h, hc]
      · simp [bound, withoutChannel, h, hc]

theorem peer_withoutChannel : (s.withoutChannel a).peer = Function.update s.peer a none := by
  funext a'
  by_cases h : a' = a
  · subst h
    simp [peer, withoutChannel]
  · simp [peer, withoutChannel, h]

theorem owner_withoutChannel :
    (s.withoutChannel a).owner = fun x => if s.owner x = some a then none else s.owner x := by
  funext x'
  cases h : s.sessionAt x' with
  | none => simp [owner, withoutChannel, h]
  | some session =>
      by_cases hc : session.channel = some a
      · simp [owner, withoutChannel, h, hc]
      · simp [owner, withoutChannel, h, hc]

theorem members_withoutChannel :
    (s.withoutChannel a).members = Function.update s.members a [] := by
  funext a'
  by_cases h : a' = a
  · subst h
    simp [members, withoutChannel]
  · simp [members, withoutChannel, h]

theorem members_unlisted : (s.unlisted x).members = fun a => (s.members a).erase x := by
  funext a'
  cases h : s.channelAt a' with
  | none => simp [members, unlisted, h]
  | some channel => simp [members, unlisted, h]

theorem peer_unlisted : (s.unlisted x).peer = s.peer := by
  funext a'
  cases h : s.channelAt a' with
  | none => simp [peer, unlisted, h]
  | some channel => simp [peer, unlisted, h]

theorem owner_withoutSession : (s.withoutSession x).owner = Function.update s.owner x none := by
  funext x'
  by_cases h : x' = x
  · subst h
    simp [owner, withoutSession]
  · simp [owner, withoutSession, h, unlisted]

theorem bound_withoutConnection :
    (s.withoutConnection c).bound = Function.update s.bound c none := by
  funext c'
  by_cases h : c' = c
  · subst h
    simp [bound, withoutConnection]
  · simp [bound, withoutConnection, h]

theorem peer_withoutConnection :
    (s.withoutConnection c).peer = fun a => if s.peer a = some c then none else s.peer a := by
  funext a'
  by_cases ha : a' = .anonymous
  · subst ha
    simp
  · cases h : s.channelAt a' with
    | none => simp [peer, withoutConnection, h]
    | some channel =>
        by_cases hc : channel.connection = some c
        · simp [peer, withoutConnection, h, ha, hc]
        · simp [peer, withoutConnection, h, ha, hc]

theorem members_withoutConnection : (s.withoutConnection c).members = s.members := by
  funext a'
  cases h : s.channelAt a' with
  | none => simp [members, withoutConnection, h]
  | some channel =>
      by_cases hc : channel.connection = some c
      · simp [members, withoutConnection, h, hc]
      · simp [members, withoutConnection, h, hc]

end Removals

end Server

end Channels

end ForteOpcUa
