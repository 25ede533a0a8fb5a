import ForteOpcUa.Channels.Updates

/-!
# Effects — what the functions do with a consistent graph

The functions follow pointers and write objects one after the other.  In a consistent graph they never
meet an object that was freed, and each comes down to a change of `Graph`.
-/

namespace ForteOpcUa

namespace Channels

open Pointers Server

/-! ## Connections -/

theorem close_eq {s : Server} {c : Address} {connection : Connection}
    (hc : s.connectionAt c = some connection) :
    Connection.close s c = some (s.setConnection c { connection with state := .closed }) := by
  rw [Connection.close, hc]
  rfl

/-- A connection is detached from its channel, and that from the connection. -/
theorem detachSecureChannel_eq {s : Server} {c : Address} {a : ChannelAddress}
    {connection : Connection} {channel : SecureChannel} (hc : s.connectionAt c = some connection)
    (hbound : connection.channel = some a) (ha : s.channelAt a = some channel) :
    Connection.detachSecureChannel s c = some ((s.setChannel a
      { channel with connection := none }).setConnection c { connection with channel := none }) := by
  simp [Connection.detachSecureChannel, hc, hbound, ha]

/-- The connection is freed, and its channel has none. -/
theorem detachConnection_eq {s : Server} (hs : Consistent s) (hframe : s.channelAt .anonymous = none)
    {c : Address} {connection : Connection} (hc : s.connectionAt c = some connection) :
    detachConnection s c = some (s.withoutConnection c) := by
  cases hbound : connection.channel with
  | none =>
      have hnone : ∀ a channel, s.channelAt a = some channel → channel.connection ≠ some c := by
        intro a channel ha hpeer
        by_cases hanon : a = .anonymous
        · rw [hanon, hframe] at ha
          cases ha
        · have hb := hs.peer_iff.1 ((peer_eq hanon ha).trans hpeer)
          rw [bound_eq hc, hbound] at hb
          cases hb
      have hsame : (s.withoutConnection c).channelAt = s.channelAt := by
        funext a
        cases ha : s.channelAt a with
        | none => simp [withoutConnection, ha]
        | some channel => simp [withoutConnection, ha, hnone a channel ha]
      simp only [detachConnection, Connection.detachSecureChannel, hc, hbound, Option.bind_eq_bind,
        Option.bind_some, Option.pure_def]
      rw [Option.some.injEq]
      apply Server.ext
      · rfl
      · simp [freeConnection, setConnection, withoutConnection]
      · exact hsame.symm
      · rfl
      · rfl
      · rfl
      · rfl
  | some a =>
      have hb : s.bound c = some a := (bound_eq hc).trans hbound
      rcases hs.channelAt_of_bound hb with ⟨hanon, channel, ha, hpeer⟩
      rw [detachConnection, detachSecureChannel_eq hc hbound ha]
      simp only [Option.bind_eq_bind, Option.bind_some, Option.pure_def, Option.some.injEq]
      apply Server.ext
      · rfl
      · simp [freeConnection, setConnection, setChannel, withoutConnection]
      · funext b
        by_cases hba : b = a
        · subst hba
          simp [freeConnection, setConnection, setChannel, withoutConnection, ha, hpeer]
        · cases hb' : s.channelAt b with
          | none => simp [freeConnection, setConnection, setChannel, withoutConnection, hba, hb']
          | some other =>
              have hne : other.connection ≠ some c := by
                intro hother
                by_cases hanon' : b = .anonymous
                · rw [hanon', hframe] at hb'
                  cases hb'
                · have hbc := hs.peer_iff.1 ((peer_eq hanon' hb').trans hother)
                  rw [hb] at hbc
                  exact hba (Option.some.inj hbc).symm
              simp [freeConnection, setConnection, setChannel, withoutConnection, hba, hb', hne]
      · rfl
      · rfl
      · rfl
      · rfl

/-! ## Channels -/

/-- The sessions of the list lose the channel, and the list is empty in the end. -/
theorem releaseSessions_eq {s : Server} {a : ChannelAddress} {channel : SecureChannel}
    {xs : List Address} (ha : s.channelAt a = some channel) (hxs : channel.sessions = xs)
    (hlive : ∀ x ∈ xs, s.sessionAt x ≠ none) :
    SecureChannel.releaseSessions s a xs = some { s with
      channelAt := Function.update s.channelAt a (some { channel with sessions := [] })
      sessionAt := fun y => if y ∈ xs then (s.sessionAt y).map fun session =>
        { session with channel := none } else s.sessionAt y } := by
  induction xs generalizing s channel with
  | nil =>
      have hsame : Function.update s.channelAt a (some { channel with sessions := [] }) =
          s.channelAt := by
        rw [← hxs, ← ha, Function.update_eq_self]
      rw [hsame]
      simp [SecureChannel.releaseSessions]
  | cons x xs ih =>
      rcases Option.ne_none_iff_exists'.1 (hlive x List.mem_cons_self) with ⟨session, hx⟩
      have herase : channel.sessions.erase x = xs := by rw [hxs, List.erase_cons_head]
      rw [SecureChannel.releaseSessions, hx, ha]
      simp only [Option.bind_eq_bind, Option.bind_some, herase]
      have hleft : ((s.setSession x { session with channel := none }).setChannel a
          { channel with sessions := xs }).channelAt a = some { channel with sessions := xs } := by
        simp [setChannel]
      rw [ih hleft rfl]
      · rw [Option.some.injEq]
        apply Server.ext
        · rfl
        · rfl
        · simp [setChannel, setSession]
        · funext y
          by_cases hy : y = x
          · subst hy
            by_cases hmem : y ∈ xs
            · simp [setSession, setChannel, hmem, hx]
            · simp [setSession, setChannel, hmem, hx]
          · by_cases hmem : y ∈ xs
            · simp [setSession, setChannel, hmem, hy]
            · simp [setSession, setChannel, hmem, hy]
        · rfl
        · rfl
        · rfl
      · intro y hy
        have hy' := hlive y (List.mem_cons_of_mem x hy)
        by_cases heq : y = x
        · subst heq
          simp [setSession, setChannel]
        · simpa [setSession, setChannel, heq] using hy'

/-- What points at the channel does not any more, and the channel points nowhere. -/
theorem deleteMembersCleanup_eq {s : Server} (hconnected : Mutual s.bound s.peer)
    (hgrouped : Grouped s.owner s.members) {a : ChannelAddress} {channel : SecureChannel}
    (hanon : a ≠ .anonymous) (hchannel : s.channelAt a = some channel) :
    SecureChannel.deleteMembersCleanup s a = some { s with
      connectionAt := (s.withoutChannel a).connectionAt
      channelAt := Function.update s.channelAt a
        (some { channel with connection := none, sessions := [] })
      sessionAt := (s.withoutChannel a).sessionAt } := by
  have hmembers : ∀ y, y ∈ channel.sessions ↔ s.owner y = some a := by
    intro y
    rw [← members_eq hchannel, hgrouped.mem_iff]
  have hlive : ∀ y ∈ channel.sessions, s.sessionAt y ≠ none := by
    intro y hy
    rcases sessionAt_of_owner ((hmembers y).1 hy) with ⟨session, hsession, _⟩
    rw [hsession]
    simp
  -- The sessions that lose the channel are those that point at it.
  have hsessions : (fun y => if y ∈ channel.sessions then (s.sessionAt y).map fun session =>
      { session with channel := none } else s.sessionAt y) = (s.withoutChannel a).sessionAt := by
    funext y
    cases hy : s.sessionAt y with
    | none => simp [withoutChannel, hy]
    | some session =>
        by_cases hown : session.channel = some a
        · have hmem : y ∈ channel.sessions := (hmembers y).2 ((owner_eq hy).trans hown)
          simp [withoutChannel, hy, hown, hmem]
        · have hmem : y ∉ channel.sessions := by
            intro hmem
            exact hown ((owner_eq hy).symm.trans ((hmembers y).1 hmem))
          simp [withoutChannel, hy, hown, hmem]
  have hiff : ∀ c, s.bound c = some a ↔ channel.connection = some c := by
    intro c
    rw [hconnected.iff, peer_eq hanon hchannel]
  cases hpeer : channel.connection with
  | none =>
      have hconnections : s.connectionAt = (s.withoutChannel a).connectionAt := by
        funext c
        cases hc : s.connectionAt c with
        | none => simp [withoutChannel, hc]
        | some connection =>
            have hne : connection.channel ≠ some a := by
              rw [← bound_eq hc, ne_eq, hiff, hpeer]
              simp
            simp [withoutChannel, hc, hne]
      simp only [SecureChannel.deleteMembersCleanup, hchannel, hpeer, Option.bind_eq_bind,
        Option.bind_some]
      rw [releaseSessions_eq hchannel rfl hlive, hsessions, ← hconnections]
      simp [hpeer]
  | some c =>
      rcases connectionAt_of_bound ((hiff c).2 hpeer) with ⟨connection, hc, hown⟩
      have hconnections : Function.update s.connectionAt c (some ⟨.closed, none⟩) =
          (s.withoutChannel a).connectionAt := by
        funext c'
        by_cases heq : c' = c
        · subst heq
          simp [withoutChannel, hc, hown]
        · cases hc' : s.connectionAt c' with
          | none => simp [withoutChannel, hc', heq]
          | some connection' =>
              have hne : connection'.channel ≠ some a := by
                rw [← bound_eq hc', ne_eq, hiff, hpeer]
                exact fun h => heq (Option.some.inj h).symm
              simp [withoutChannel, hc', heq, hne]
      simp only [SecureChannel.deleteMembersCleanup, hchannel, hpeer, Option.bind_eq_bind,
        Option.bind_some]
      rw [detachSecureChannel_eq hc hown hchannel]
      simp only [Option.bind_some]
      have hdetached : ((s.setChannel a { channel with connection := none }).setConnection c
          { connection with channel := none }).connectionAt c =
            some { connection with channel := none } := by
        simp [setConnection]
      have hleft : (((s.setChannel a { channel with connection := none }).setConnection c
          { connection with channel := none }).setConnection c ⟨.closed, none⟩).channelAt a =
            some { channel with connection := none } := by
        simp [setConnection, setChannel]
      rw [close_eq hdetached]
      simp only [Option.bind_some]
      rw [releaseSessions_eq hleft rfl hlive, Option.some.injEq]
      apply Server.ext
      · rfl
      · rw [← hconnections]
        simp [setConnection, setChannel]
      · simp [setConnection, setChannel]
      · exact hsessions
      · rfl
      · rfl
      · rfl

/-- A channel is cleaned up, counted and freed: it is gone, with all that pointed at it. -/
theorem removeChannel_eq {s : Server} (hs : Consistent s) {a : ChannelAddress}
    (ha : a ∈ s.secureChannelManager.channels) :
    SecureChannelManager.removeEntry s a = some (s.withoutChannel a) := by
  rcases (hs.mem_channels a).1 ha with ⟨hanon, hne⟩
  rcases Option.ne_none_iff_exists'.1 hne with ⟨channel, hchannel⟩
  rw [SecureChannelManager.removeEntry]
  dsimp only
  rw [deleteMembersCleanup_eq (s := { s with secureChannelManager := { s.secureChannelManager with
    channels := s.secureChannelManager.channels.erase a } }) hs.connected hs.grouped hanon hchannel]
  simp only [Option.bind_eq_bind, Option.bind_some, Option.pure_def, Option.some.injEq]
  apply Server.ext
  · rfl
  · rfl
  · simp [freeChannel, withoutChannel, Server.log]
  · rfl
  · rfl
  · rfl
  · rfl

/-! ## Sessions -/

/-- A session is detached from its channel. -/
theorem detachSession_eq {s : Server} (hgrouped : Grouped s.owner s.members) {x : Address}
    {a : ChannelAddress} {session : Session} (hx : s.sessionAt x = some session)
    (hown : session.channel = some a) :
    SecureChannel.detachSession s a x =
      some ((s.unlisted x).setSession x { session with channel := none }) := by
  have howner : s.owner x = some a := (owner_eq hx).trans hown
  rcases channelAt_of_members ((hgrouped.mem_iff x a).2 howner) with ⟨channel, ha, _⟩
  have hchannels : Function.update s.channelAt a
      (some { channel with sessions := channel.sessions.erase x }) = (s.unlisted x).channelAt := by
    funext b
    by_cases hb : b = a
    · subst hb
      simp [unlisted, ha]
    · cases hb' : s.channelAt b with
      | none => simp [unlisted, hb, hb']
      | some other =>
          have hmem : x ∉ other.sessions := by
            rw [← members_eq hb', hgrouped.mem_iff, howner]
            exact fun heq => hb (Option.some.inj heq).symm
          simp [unlisted, hb, hb', List.erase_of_not_mem hmem]
  simp only [SecureChannel.detachSession, hx, ha, Option.bind_eq_bind, Option.bind_some,
    Option.pure_def, Option.some.injEq]
  apply Server.ext
  · rfl
  · rfl
  · exact hchannels
  · rfl
  · rfl
  · rfl
  · rfl

/-- A session that is in no list. -/
theorem unlisted_eq {s : Server} (hgrouped : Grouped s.owner s.members) {x : Address}
    (hown : s.owner x = none) : s.unlisted x = s := by
  apply Server.ext
  · rfl
  · rfl
  · funext b
    cases hb : s.channelAt b with
    | none => simp [unlisted, hb]
    | some other =>
        have hmem : x ∉ other.sessions := by
          rw [← members_eq hb, hgrouped.mem_iff, hown]
          simp
        simp [unlisted, hb, List.erase_of_not_mem hmem]
  · rfl
  · rfl
  · rfl
  · rfl

/-- A session is cleaned up, freed and counted: it is gone, and in no list. -/
theorem removeSession_eq {s : Server} (hs : Consistent s) {x : Address}
    (hx : s.sessionAt x ≠ none) :
    SessionManager.removeEntry s x = some (s.withoutSession x) := by
  rcases Option.ne_none_iff_exists'.1 hx with ⟨session, hsession⟩
  cases hown : session.channel with
  | none =>
      have hunlisted := unlisted_eq hs.grouped ((owner_eq hsession).trans hown)
      simp only [SessionManager.removeEntry, Session.deleteMembersCleanup, hsession, hown,
        Option.bind_eq_bind, Option.bind_some, Option.pure_def, Option.some.injEq]
      rw [withoutSession, hunlisted]
      rfl
  | some a =>
      simp only [SessionManager.removeEntry, Session.deleteMembersCleanup, hsession, hown,
        Option.bind_eq_bind, Option.bind_some, Option.pure_def]
      rw [detachSession_eq (s := { s with sessionManager := { s.sessionManager with
        sessions := s.sessionManager.sessions.erase x } }) hs.grouped hsession hown]
      simp only [Option.bind_some, Option.some.injEq]
      apply Server.ext
      · rfl
      · rfl
      · rfl
      · simp [freeSession, setSession, withoutSession, unlisted, Server.log]
      · rfl
      · rfl
      · rfl

end Channels

end ForteOpcUa
