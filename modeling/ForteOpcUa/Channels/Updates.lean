import ForteOpcUa.Channels.Graph

/-!
# Updates — the changes of the graph, and what they keep

- `Consistent`        : the links are mutual, the lists and their counters are right,
- `Update`            : the changes, each with the condition under which the server makes it,
- `Update.consistent` : none of them breaks the graph.
-/

namespace ForteOpcUa

namespace Channels

open Pointers Server

/-- A list without repetitions, its counter and the most it may hold. -/
structure Counted {α : Type} (xs : List α) (count most : ℕ) : Prop where
  nodup : xs.Nodup
  count_eq : count = xs.length
  le_most : count ≤ most

namespace Counted

variable {α : Type} {xs : List α} {count most : ℕ}

theorem nil (most : ℕ) : Counted ([] : List α) 0 most :=
  ⟨List.nodup_nil, rfl, Nat.zero_le most⟩

theorem cons (h : Counted xs count most) {x : α} (hx : x ∉ xs) (hlt : count < most) :
    Counted (x :: xs) (count + 1) most := by
  refine ⟨List.nodup_cons.2 ⟨hx, h.nodup⟩, ?_, hlt⟩
  rw [List.length_cons, h.count_eq]

theorem erase [DecidableEq α] (h : Counted xs count most) {x : α} (hx : x ∈ xs) :
    Counted (xs.erase x) (count - 1) most := by
  refine ⟨h.nodup.erase x, ?_, ?_⟩
  · rw [List.length_erase_of_mem hx, h.count_eq]
  · exact Nat.le_trans (Nat.sub_le count 1) h.le_most

end Counted

/-- What holds of the graph whatever the clients do. -/
structure Consistent (s : Server) : Prop where
  connected : Mutual s.bound s.peer
  grouped : Grouped s.owner s.members
  mem_channels : ∀ a, a ∈ s.secureChannelManager.channels ↔ a ≠ .anonymous ∧ s.channelAt a ≠ none
  channels : Counted s.secureChannelManager.channels s.secureChannelManager.currentChannelCount
    s.secureChannelManager.maxChannelCount
  mem_sessions : ∀ x, x ∈ s.sessionManager.sessions ↔ s.sessionAt x ≠ none
  sessions : Counted s.sessionManager.sessions s.sessionManager.currentSessionCount
    s.sessionManager.maxSessionCount
  frame : ∀ channel, s.channelAt .anonymous = some channel →
    channel.sessions = [] ∧ ∃ c, channel.connection = some c ∧ s.connectionAt c ≠ none

/-- The changes of the graph.  Those of connections and channels concern connections that `P` allows,
or nobody's. -/
inductive Update (P : Address → Prop) (s : Server) : Server → Prop
  | accepted {c : Address} (hc : s.connectionAt c = none) :
      Update P s (s.setConnection c ⟨.opening, none⟩)
  | stateChanged {c : Address} {connection : Connection} (state : ConnectionState) (hP : P c)
      (hc : s.connectionAt c = some connection) :
      Update P s (s.setConnection c { connection with state := state })
  | lost {c : Address} (hP : P c) (hframe : s.channelAt .anonymous = none) :
      Update P s (s.withoutConnection c)
  | entered {c : Address} (hc : s.connectionAt c ≠ none) :
      Update P s (s.setChannel .anonymous { SecureChannel.init with connection := some c })
  | left : Update P s (s.freeChannel .anonymous)
  | counted {a : ChannelAddress} {channel : SecureChannel} (hP : ∀ c, s.peer a = some c → P c)
      (ha : s.channelAt a = some channel) :
      Update P s (s.setChannel a channel.count)
  | sent {a : ChannelAddress} {channel : SecureChannel} (hP : ∀ c, s.peer a = some c → P c)
      (ha : s.channelAt a = some channel) (result : StatusCode) :
      Update P s ((s.setChannel a channel.count).log
        (.sent a channel.count.sequenceNumber result))
  | issued {c n : Address} {connection : Connection} (hP : P c) (now : DateTime)
      (lifetime : UInt32) (hc : s.connectionAt c = some connection)
      (hfree : connection.channel = none) (hn : s.channelAt (.entry n) = none)
      (hmax : s.secureChannelManager.currentChannelCount < s.secureChannelManager.maxChannelCount) :
      Update P s (s.issue c n connection now lifetime)
  | renewed {c : Address} {a : ChannelAddress} {channel : SecureChannel} (hP : P c) (now : DateTime)
      (lifetime : UInt32) (hc : s.peer a = some c) (ha : s.channelAt a = some channel)
      (hnext : channel.nextSecurityToken.tokenId = 0) :
      Update P s (s.renew a channel now lifetime)
  | revolved {a : ChannelAddress} {channel : SecureChannel} (hP : ∀ c, s.peer a = some c → P c)
      (ha : s.channelAt a = some channel) (hnext : channel.nextSecurityToken.tokenId ≠ 0) :
      Update P s (s.setChannel a channel.revolve)
  | removed {a : ChannelAddress} (hP : ∀ c, s.peer a = some c → P c)
      (ha : a ∈ s.secureChannelManager.channels) : Update P s (s.withoutChannel a)
  | created {x : Address} (session : Session) (hx : s.sessionAt x = none)
      (hchannel : session.channel = none)
      (hmax : s.sessionManager.currentSessionCount < s.sessionManager.maxSessionCount) :
      Update P s (s.create x session)
  | forgotten {x : Address} (hx : s.sessionAt x ≠ none) : Update P s (s.withoutSession x)
  | detached {x : Address} {session : Session} (hx : s.sessionAt x = some session) :
      Update P s ((s.unlisted x).setSession x { session with channel := none })
  | activated {x : Address} {a : ChannelAddress} {session : Session} {channel : SecureChannel}
      {identity : UserIdentityToken} (hP : ∀ c, s.peer a = some c → P c) (now : DateTime)
      (hx : s.sessionAt x = some session) (hfree : session.channel = none) (ha : s.channelAt a = some channel)
      (hne : a ≠ .anonymous) (haccept : authenticate s.config identity = .good) :
      Update P s (((s.setSession x
        ({ session with channel := some a, activated := true }.updateLifetime now)).setChannel a
          { channel with sessions := x :: channel.sessions }).log (.activated x a identity))
  | confirmed {x : Address} {a : ChannelAddress} {session : Session} {identity : UserIdentityToken}
      (now : DateTime) (hx : s.sessionAt x = some session)
      (hchannel : session.channel = none ∨ session.channel = some a)
      (haccept : authenticate s.config identity = .good) :
      Update P s ((s.setSession x ({ session with activated := true }.updateLifetime now)).log
        (.activated x a identity))
  | served {x : Address} {a : ChannelAddress} {session : Session} (now : DateTime) (kind : Service)
      (hx : s.sessionAt x = some session) (hchannel : session.channel = some a)
      (hactivated : session.activated = true) :
      Update P s ((s.setSession x (session.updateLifetime now)).log (.served x a kind))

namespace Consistent

variable {s : Server}

/-- At the start. -/
theorem init (config : ServerConfig) : Consistent (Server.init config) where
  connected := ⟨by simp [bound, peer, Server.init]⟩
  grouped := ⟨by simp [owner, members, Server.init], by simp [members, Server.init]⟩
  mem_channels := by simp [Server.init]
  channels := Counted.nil 100
  mem_sessions := by simp [Server.init]
  sessions := Counted.nil 1000
  frame := by simp [Server.init]

/-! ### What the links tell -/

theorem peer_iff (h : Consistent s) {c : Address} {a : ChannelAddress} :
    s.peer a = some c ↔ s.bound c = some a :=
  (h.connected.iff c a).symm

theorem mem_members (h : Consistent s) {x : Address} {a : ChannelAddress} :
    x ∈ s.members a ↔ s.owner x = some a :=
  h.grouped.mem_iff x a

/-- Sessions are not left on the stack. -/
theorem ne_anonymous_of_owner (h : Consistent s) {x : Address} {a : ChannelAddress}
    (hx : s.owner x = some a) : a ≠ .anonymous := by
  rintro rfl
  rcases channelAt_of_members (h.mem_members.2 hx) with ⟨channel, hchannel, hmem⟩
  rw [(h.frame channel hchannel).1] at hmem
  cases hmem

/-- The channel of a connection is there, and points back. -/
theorem channelAt_of_bound (h : Consistent s) {c : Address} {a : ChannelAddress}
    (hc : s.bound c = some a) :
    a ≠ .anonymous ∧ ∃ channel, s.channelAt a = some channel ∧ channel.connection = some c :=
  channelAt_of_peer (h.peer_iff.2 hc)

/-- The connection of a channel is there. -/
theorem connectionAt_of_channel (h : Consistent s) {a : ChannelAddress} {channel : SecureChannel}
    {c : Address} (ha : s.channelAt a = some channel) (hc : channel.connection = some c) :
    ∃ connection, s.connectionAt c = some connection := by
  by_cases hanon : a = .anonymous
  · subst hanon
    rcases (h.frame channel ha).2 with ⟨c', hc', hlive⟩
    rw [hc] at hc'
    cases hc'
    exact Option.ne_none_iff_exists'.1 hlive
  · have hpeer : s.peer a = some c := (peer_eq hanon ha).trans hc
    rcases connectionAt_of_bound (h.peer_iff.1 hpeer) with ⟨connection, hconnection, _⟩
    exact ⟨connection, hconnection⟩

/-- The sessions of a channel are there. -/
theorem sessionAt_of_members (h : Consistent s) {a : ChannelAddress} {channel : SecureChannel}
    (ha : s.channelAt a = some channel) {x : Address} (hx : x ∈ channel.sessions) :
    ∃ session, s.sessionAt x = some session ∧ session.channel = some a := by
  rw [← members_eq ha] at hx
  exact sessionAt_of_owner (h.mem_members.1 hx)

/-! ### What the changes keep -/

/-- The frame survives what leaves it and does not free connections. -/
theorem frame_of (h : Consistent s) {s' : Server}
    (hframe : s'.channelAt .anonymous = s.channelAt .anonymous)
    (hconnections : ∀ c, s.connectionAt c ≠ none → s'.connectionAt c ≠ none) :
    ∀ channel, s'.channelAt .anonymous = some channel →
      channel.sessions = [] ∧ ∃ c, channel.connection = some c ∧ s'.connectionAt c ≠ none := by
  intro channel hchannel
  rw [hframe] at hchannel
  rcases h.frame channel hchannel with ⟨hsessions, c, hc, hlive⟩
  exact ⟨hsessions, c, hc, hconnections c hlive⟩

theorem log (h : Consistent s) (e : Event) : Consistent (s.log e) :=
  ⟨h.connected, h.grouped, h.mem_channels, h.channels, h.mem_sessions, h.sessions, h.frame⟩

theorem setConnection (h : Consistent s) {c : Address} {connection : Connection}
    (hchannel : connection.channel = s.bound c) : Consistent (s.setConnection c connection) where
  connected := by
    rw [bound_setConnection, hchannel, Function.update_eq_self]
    exact h.connected
  grouped := h.grouped
  mem_channels := h.mem_channels
  channels := h.channels
  mem_sessions := h.mem_sessions
  sessions := h.sessions
  frame := by
    refine h.frame_of rfl ?_
    intro c' hc'
    by_cases heq : c' = c
    · subst heq
      simp [Server.setConnection]
    · simpa [Server.setConnection, heq] using hc'

/-- A channel is rewritten with its links as they are. -/
theorem setChannel (h : Consistent s) {a : ChannelAddress} {channel channel' : SecureChannel}
    (ha : s.channelAt a = some channel) (hconnection : channel'.connection = channel.connection)
    (hsessions : channel'.sessions = channel.sessions) : Consistent (s.setChannel a channel') where
  connected := by
    by_cases hanon : a = .anonymous
    · subst hanon
      rw [bound_setChannel, peer_setAnonymous]
      exact h.connected
    · rw [bound_setChannel, peer_setChannel s channel' hanon, hconnection, ← peer_eq hanon ha,
        Function.update_eq_self]
      exact h.connected
  grouped := by
    rw [owner_setChannel, members_setChannel, hsessions, ← members_eq ha, Function.update_eq_self]
    exact h.grouped
  mem_channels := by
    intro b
    by_cases hb : b = a
    · subst hb
      have hmem := h.mem_channels b
      simpa [Server.setChannel, ha] using hmem
    · simpa [Server.setChannel, hb] using h.mem_channels b
  channels := h.channels
  mem_sessions := h.mem_sessions
  sessions := h.sessions
  frame := by
    intro channel'' hchannel
    by_cases hanon : a = .anonymous
    · subst hanon
      have heq : channel' = channel'' := by simpa [Server.setChannel] using hchannel
      subst heq
      rcases h.frame channel ha with ⟨hnil, c, hc, hlive⟩
      exact ⟨hsessions.trans hnil, c, hconnection.trans hc, hlive⟩
    · have hne : (ChannelAddress.anonymous) ≠ a := fun heq => hanon heq.symm
      refine h.frame channel'' ?_
      simpa [Server.setChannel, hne] using hchannel

/-- A session is rewritten with its link as it is. -/
theorem setSession (h : Consistent s) {x : Address} {session session' : Session}
    (hx : s.sessionAt x = some session) (hchannel : session'.channel = session.channel) :
    Consistent (s.setSession x session') where
  connected := h.connected
  grouped := by
    rw [owner_setSession, members_setSession, hchannel, ← owner_eq hx, Function.update_eq_self]
    exact h.grouped
  mem_channels := h.mem_channels
  channels := h.channels
  mem_sessions := by
    intro y
    by_cases hy : y = x
    · subst hy
      have hmem := h.mem_sessions y
      simpa [Server.setSession, hx] using hmem
    · simpa [Server.setSession, hy] using h.mem_sessions y
  sessions := h.sessions
  frame := h.frame

/-- A new connection. -/
theorem accept (h : Consistent s) {c : Address} (hc : s.connectionAt c = none)
    (state : ConnectionState) : Consistent (s.setConnection c ⟨state, none⟩) := by
  refine h.setConnection ?_
  rw [bound, hc]
  rfl

theorem withoutConnection (h : Consistent s) (hframe : s.channelAt .anonymous = none)
    (c : Address) : Consistent (s.withoutConnection c) where
  connected := by
    rw [bound_withoutConnection, peer_withoutConnection]
    exact (h.connected.swap.cut c).swap
  grouped := by
    rw [members_withoutConnection]
    exact h.grouped
  mem_channels := by
    intro a
    simpa [Server.withoutConnection] using h.mem_channels a
  channels := h.channels
  mem_sessions := h.mem_sessions
  sessions := h.sessions
  frame := by simp [Server.withoutConnection, hframe]

theorem enter (h : Consistent s) {c : Address} (hc : s.connectionAt c ≠ none) :
    Consistent (s.setChannel .anonymous { SecureChannel.init with connection := some c }) where
  connected := by
    rw [bound_setChannel, peer_setAnonymous]
    exact h.connected
  grouped := by
    have hnil : s.members .anonymous = [] :=
      h.grouped.eq_nil_of fun x hx => h.ne_anonymous_of_owner hx rfl
    have hsame : Function.update s.members .anonymous ([] : List Address) = s.members := by
      rw [← hnil, Function.update_eq_self]
    rw [owner_setChannel, members_setChannel]
    exact hsame.symm ▸ h.grouped
  mem_channels := by
    intro b
    by_cases hb : b = .anonymous
    · subst hb
      simpa [Server.setChannel] using h.mem_channels .anonymous
    · simpa [Server.setChannel, hb] using h.mem_channels b
  channels := h.channels
  mem_sessions := h.mem_sessions
  sessions := h.sessions
  frame := by
    intro channel hchannel
    have heq : { SecureChannel.init with connection := some c } = channel := by
      simpa [Server.setChannel] using hchannel
    rw [← heq]
    exact ⟨rfl, c, rfl, hc⟩

theorem leave (h : Consistent s) : Consistent (s.freeChannel .anonymous) where
  connected := by
    rw [bound_freeChannel, peer_freeAnonymous]
    exact h.connected
  grouped := by
    have hnil : s.members .anonymous = [] :=
      h.grouped.eq_nil_of fun x hx => h.ne_anonymous_of_owner hx rfl
    rw [owner_freeChannel, members_freeChannel, ← hnil, Function.update_eq_self]
    exact h.grouped
  mem_channels := by
    intro b
    by_cases hb : b = .anonymous
    · subst hb
      simpa [Server.freeChannel] using h.mem_channels .anonymous
    · simpa [Server.freeChannel, hb] using h.mem_channels b
  channels := h.channels
  mem_sessions := h.mem_sessions
  sessions := h.sessions
  frame := by simp [Server.freeChannel]

theorem issue (h : Consistent s) {c n : Address} {connection : Connection}
    (hc : s.connectionAt c = some connection) (hfree : connection.channel = none)
    (hn : s.channelAt (.entry n) = none)
    (hmax : s.secureChannelManager.currentChannelCount < s.secureChannelManager.maxChannelCount)
    (now : DateTime) (lifetime : UInt32) : Consistent (s.issue c n connection now lifetime) where
  connected := by
    have hbound : s.bound c = none := (bound_eq hc).trans hfree
    have hpeer : s.peer (.entry n) = none := by simp [peer, hn]
    have hlink := h.connected.link hbound hpeer
    unfold Server.issue
    rw [bound_log, bound_setConnection, peer_log, peer_setConnection,
      peer_setChannel _ _ (by simp)]
    exact hlink
  grouped := by
    have hnil : s.members (.entry n) = [] := by simp [members, hn]
    have hsame : Function.update s.members (.entry n) ([] : List Address) = s.members := by
      rw [← hnil, Function.update_eq_self]
    unfold Server.issue
    rw [owner_log, members_log, members_setConnection, members_setChannel]
    exact hsame.symm ▸ h.grouped
  mem_channels := by
    intro b
    by_cases hb : b = .entry n
    · subst hb
      simp [Server.issue, Server.log, Server.setConnection, Server.setChannel]
    · have hmem := h.mem_channels b
      simpa [Server.issue, Server.log, Server.setConnection, Server.setChannel, hb] using hmem
  channels := by
    refine h.channels.cons ?_ hmax
    intro hmem
    exact ((h.mem_channels _).1 hmem).2 hn
  mem_sessions := h.mem_sessions
  sessions := h.sessions
  frame := by
    refine h.frame_of rfl ?_
    intro c' hc'
    by_cases heq : c' = c
    · subst heq
      simp [Server.issue, Server.log, Server.setConnection]
    · simpa [Server.issue, Server.log, Server.setConnection, Server.setChannel, heq] using hc'

/-- The channel manager may count on. -/
theorem setTokenId (h : Consistent s) (tokenId : UInt32) :
    Consistent { s with secureChannelManager :=
      { s.secureChannelManager with lastTokenId := tokenId } } :=
  ⟨h.connected, h.grouped, h.mem_channels, h.channels, h.mem_sessions, h.sessions, h.frame⟩

theorem renew (h : Consistent s) {a : ChannelAddress} {channel : SecureChannel}
    (ha : s.channelAt a = some channel) (now : DateTime) (lifetime : UInt32) :
    Consistent (s.renew a channel now lifetime) := by
  have hcount := h.setTokenId (s.secureChannelManager.lastTokenId + 1)
  unfold Server.renew
  refine (hcount.setChannel ha ?_ ?_).log _
  · rfl
  · rfl

theorem withoutChannel (h : Consistent s) {a : ChannelAddress}
    (ha : a ∈ s.secureChannelManager.channels) : Consistent (s.withoutChannel a) where
  connected := by
    rw [bound_withoutChannel, peer_withoutChannel]
    exact h.connected.cut a
  grouped := by
    rw [owner_withoutChannel, members_withoutChannel]
    exact h.grouped.dissolve a
  mem_channels := by
    intro b
    have hmem := h.mem_channels b
    by_cases hb : b = a
    · subst hb
      simp [Server.withoutChannel, h.channels.nodup.mem_erase_iff]
    · simpa [Server.withoutChannel, h.channels.nodup.mem_erase_iff, hb] using hmem
  channels := h.channels.erase ha
  mem_sessions := by
    intro x
    simpa [Server.withoutChannel] using h.mem_sessions x
  sessions := h.sessions
  frame := by
    have hne : (ChannelAddress.anonymous) ≠ a := fun heq => ((h.mem_channels a).1 ha).1 heq.symm
    refine h.frame_of (by simp [Server.withoutChannel, hne]) ?_
    intro c hc
    simpa [Server.withoutChannel] using hc

theorem create (h : Consistent s) {x : Address} (session : Session) (hx : s.sessionAt x = none)
    (hchannel : session.channel = none)
    (hmax : s.sessionManager.currentSessionCount < s.sessionManager.maxSessionCount) :
    Consistent (s.create x session) where
  connected := h.connected
  grouped := by
    have hnone : s.owner x = none := by simp [owner, hx]
    have hsame : Function.update s.owner x session.channel = s.owner := by
      rw [hchannel, ← hnone, Function.update_eq_self]
    unfold Server.create
    rw [owner_log, members_log, owner_setSession, members_setSession]
    exact hsame.symm ▸ h.grouped
  mem_channels := h.mem_channels
  channels := h.channels
  mem_sessions := by
    intro y
    have hmem := h.mem_sessions y
    by_cases hy : y = x
    · subst hy
      simp [Server.create, Server.log, Server.setSession]
    · simpa [Server.create, Server.log, Server.setSession, hy] using hmem
  sessions := by
    refine h.sessions.cons ?_ hmax
    intro hmem
    exact (h.mem_sessions x).1 hmem hx
  frame := h.frame

/-- A session leaves the list of its channel. -/
theorem unlisted_frame (h : Consistent s) (x : Address) :
    ∀ channel, (s.unlisted x).channelAt .anonymous = some channel →
      channel.sessions = [] ∧ ∃ c, channel.connection = some c ∧ s.connectionAt c ≠ none := by
  intro channel hchannel
  have hmap : (s.unlisted x).channelAt .anonymous = (s.channelAt .anonymous).map fun channel =>
      { channel with sessions := channel.sessions.erase x } := rfl
  cases hold : s.channelAt .anonymous with
  | none =>
      rw [hmap, hold] at hchannel
      cases hchannel
  | some channel' =>
      rw [hmap, hold] at hchannel
      cases hchannel
      rcases h.frame channel' hold with ⟨hnil, c, hc, hlive⟩
      refine ⟨?_, c, hc, hlive⟩
      simp [hnil]

theorem withoutSession (h : Consistent s) {x : Address} (hx : s.sessionAt x ≠ none) :
    Consistent (s.withoutSession x) where
  connected := by
    have hpeer : (s.withoutSession x).peer = s.peer := peer_unlisted s x
    rw [hpeer]
    exact h.connected
  grouped := by
    have hmembers : (s.withoutSession x).members = fun a => (s.members a).erase x :=
      members_unlisted s x
    rw [owner_withoutSession, hmembers]
    exact h.grouped.leave x
  mem_channels := by
    intro a
    simpa [Server.withoutSession, unlisted] using h.mem_channels a
  channels := h.channels
  mem_sessions := by
    intro y
    have hmem := h.mem_sessions y
    by_cases hy : y = x
    · subst hy
      simp [Server.withoutSession, unlisted, h.sessions.nodup.mem_erase_iff]
    · simpa [Server.withoutSession, unlisted, h.sessions.nodup.mem_erase_iff, hy] using hmem
  sessions := h.sessions.erase ((h.mem_sessions x).2 hx)
  frame := h.unlisted_frame x

theorem detach (h : Consistent s) {x : Address} {session : Session}
    (hx : s.sessionAt x = some session) :
    Consistent ((s.unlisted x).setSession x { session with channel := none }) where
  connected := by
    rw [bound_setSession, peer_setSession, peer_unlisted]
    exact h.connected
  grouped := by
    have howner : (s.unlisted x).owner = s.owner := rfl
    rw [owner_setSession, members_setSession, members_unlisted, howner]
    exact h.grouped.leave x
  mem_channels := by
    intro a
    simpa [Server.setSession, unlisted] using h.mem_channels a
  channels := h.channels
  mem_sessions := by
    intro y
    have hmem := h.mem_sessions y
    by_cases hy : y = x
    · subst hy
      simpa [Server.setSession, unlisted, hx] using hmem
    · simpa [Server.setSession, unlisted, hy] using hmem
  sessions := h.sessions
  frame := h.unlisted_frame x

theorem attach (h : Consistent s) {x : Address} {a : ChannelAddress} {session session' : Session}
    {channel : SecureChannel} (hx : s.sessionAt x = some session) (hfree : session.channel = none)
    (ha : s.channelAt a = some channel) (hne : a ≠ .anonymous)
    (hchannel : session'.channel = some a) :
    Consistent ((s.setSession x session').setChannel a
      { channel with sessions := x :: channel.sessions }) where
  connected := by
    rw [bound_setChannel, bound_setSession, peer_setChannel _ _ hne, peer_setSession]
    have hsame : Function.update s.peer a channel.connection = s.peer := by
      rw [← peer_eq hne ha, Function.update_eq_self]
    exact hsame.symm ▸ h.connected
  grouped := by
    have hnone : s.owner x = none := (owner_eq hx).trans hfree
    rw [owner_setChannel, owner_setSession, members_setChannel, members_setSession, hchannel,
      ← members_eq ha]
    exact h.grouped.join hnone a
  mem_channels := by
    intro b
    have hmem := h.mem_channels b
    by_cases hb : b = a
    · subst hb
      simpa [Server.setChannel, Server.setSession, ha] using hmem
    · simpa [Server.setChannel, Server.setSession, hb] using hmem
  channels := h.channels
  mem_sessions := by
    intro y
    have hmem := h.mem_sessions y
    by_cases hy : y = x
    · subst hy
      simpa [Server.setChannel, Server.setSession, hx] using hmem
    · simpa [Server.setChannel, Server.setSession, hy] using hmem
  sessions := h.sessions
  frame := by
    have hanon : (ChannelAddress.anonymous) ≠ a := fun heq => hne heq.symm
    intro channel' hchannel'
    refine h.frame channel' ?_
    simpa [Server.setChannel, Server.setSession, hanon] using hchannel'

end Consistent

/-- **The changes keep the graph consistent.** -/
theorem Update.consistent {P : Address → Prop} {s s' : Server} (h : Update P s s')
    (hs : Consistent s) : Consistent s' := by
  cases h with
  | accepted hc => exact hs.accept hc .opening
  | stateChanged state _ hc => exact hs.setConnection (bound_eq hc).symm
  | lost _ hframe => exact hs.withoutConnection hframe _
  | entered hc => exact hs.enter hc
  | left => exact hs.leave
  | counted _ ha => exact hs.setChannel ha rfl rfl
  | sent _ ha result =>
      refine (hs.setChannel ha ?_ ?_).log _
      · rfl
      · rfl
  | issued _ now lifetime hc hfree hn hmax => exact hs.issue hc hfree hn hmax now lifetime
  | renewed _ now lifetime _ ha _ => exact hs.renew ha now lifetime
  | revolved _ ha _ => exact hs.setChannel ha rfl rfl
  | removed _ ha => exact hs.withoutChannel ha
  | created session hx hchannel hmax => exact hs.create session hx hchannel hmax
  | forgotten hx => exact hs.withoutSession hx
  | detached hx => exact hs.detach hx
  | activated _ now hx hfree ha hne _ => exact (hs.attach hx hfree ha hne rfl).log _
  | confirmed now hx _ _ =>
      refine (hs.setSession hx ?_).log _
      rfl
  | served now kind hx _ _ =>
      refine (hs.setSession hx ?_).log _
      rfl

end Channels

end ForteOpcUa
