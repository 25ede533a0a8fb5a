import ForteOpcUa.Channels.Runs

/-!
# Cleanup — what the recurring cleanup leaves

- `among`                : the objects of a row that a test picks,
- `timedOut`, `stale`    : the sessions and the channels that are to go,
- `sessionLeft`, `channelLeft`, `connectionLeft` : what stays, and how it is then,
- `cleanup_exact`        : behind the two loops there is exactly that.
-/

namespace ForteOpcUa

namespace Channels

open Server

/-! ## What is to go -/

namespace Server

variable (s : Server) (now : DateTime)

/-- The session at the address has timed out. -/
def timedOut (x : Address) : Bool :=
  (s.sessionAt x).any fun session => session.validTill < now

/-- The channel at the address was not renewed, or has no connection. -/
def stale (a : ChannelAddress) : Bool :=
  (s.channelAt a).any fun channel =>
    SecureChannelManager.timeout channel < now || channel.connection.isNone

end Server

section Rows

variable {α : Type} [DecidableEq α] {p q : α → Bool} {x : α} {xs : List α}

/-- The objects of a row that a test picks. -/
def among (xs : List α) (p : α → Bool) (x : α) : Bool :=
  decide (x ∈ xs) && p x

theorem among_nil : among [] p = fun _ => false := by
  funext y
  simp [among]

theorem among_congr (h : ∀ y ∈ xs, q y = p y) : among xs q = among xs p := by
  funext y
  by_cases hy : y ∈ xs
  · simp [among, h y hy]
  · simp [among, hy]

theorem among_cons_of_not (hx : p x = false) : among (x :: xs) p = among xs p := by
  funext y
  by_cases hy : y = x
  · subst hy
    simp [among, hx]
  · simp [among, hy]

/-- The first of the row is picked.  What picks the others may forget it. -/
theorem among_cons (hx : p x = true) (h : ∀ y ∈ xs, q y = p y) :
    among (x :: xs) p = fun y => decide (y = x) || among xs q y := by
  rw [among_congr h]
  funext y
  by_cases hy : y = x
  · subst hy
    simp [among, hx]
  · simp [among, hy]

/-- A row that has all that the test picks. -/
theorem among_eq (h : ∀ y, p y = true → y ∈ xs) : among xs p = p := by
  funext y
  cases hy : p y with
  | false => simp [among, hy]
  | true => simp [among, hy, h y hy]

end Rows

/-! ## What is left of an object -/

/-- Without the sessions that are gone. -/
def SecureChannel.keeping (gone : Address → Bool) (channel : SecureChannel) : SecureChannel :=
  { channel with sessions := channel.sessions.filter fun x => !gone x }

/-- Over no channel that is gone. -/
def Session.keeping (gone : ChannelAddress → Bool) (session : Session) : Session :=
  { session with channel := session.channel.filter fun a => !gone a }

/-- Closed if its channel is gone. -/
def Connection.keeping (gone : ChannelAddress → Bool) (connection : Connection) : Connection :=
  if connection.channel.any gone then ⟨.closed, none⟩ else connection

theorem SecureChannel.keeping_none : SecureChannel.keeping (fun _ => false) = id := by
  funext channel
  simp [keeping]

theorem SecureChannel.keeping_keeping (channel : SecureChannel) (g g' : Address → Bool) :
    (channel.keeping g).keeping g' = channel.keeping fun x => g x || g' x := by
  simp [keeping, List.filter_filter, Bool.and_comm]

theorem Session.keeping_none : Session.keeping (fun _ => false) = id := by
  funext ⟨_, _, _, _, _, channel⟩
  cases channel with
  | none => rfl
  | some a => rfl

theorem Session.keeping_keeping (session : Session) (g g' : ChannelAddress → Bool) :
    (session.keeping g).keeping g' = session.keeping fun a => g a || g' a := by
  simp [keeping, Option.filter_filter]

theorem Connection.keeping_none : Connection.keeping (fun _ => false) = id := by
  funext connection
  cases h : connection.channel <;> simp [keeping, h]

theorem Connection.keeping_keeping (connection : Connection) (g g' : ChannelAddress → Bool) :
    (connection.keeping g).keeping g' = connection.keeping fun a => g a || g' a := by
  cases h : connection.channel with
  | none => simp [keeping, h]
  | some a => cases hg : g a <;> simp [keeping, h, hg]

namespace Server

variable (s : Server) (now : DateTime)

/-- The sessions that a cleanup leaves. -/
def sessionLeft (x : Address) : Option Session :=
  if s.timedOut now x then none else (s.sessionAt x).map (Session.keeping (s.stale now))

/-- The channels that a cleanup leaves. -/
def channelLeft (a : ChannelAddress) : Option SecureChannel :=
  if s.stale now a then
    none
  else
    (s.channelAt a).map fun channel => channel.refreshed.keeping (s.timedOut now)

/-- The connections behind a cleanup. -/
def connectionLeft (c : Address) : Option Connection :=
  (s.connectionAt c).map (Connection.keeping (s.stale now))

end Server

variable {s : Server} {now : DateTime}

/-! ## The sessions -/

theorem channelAt_withoutSession (hs : Consistent s) (x : Address) (a : ChannelAddress) :
    (s.withoutSession x).channelAt a =
      (s.channelAt a).map (SecureChannel.keeping fun y => decide (y = x)) := by
  cases ha : s.channelAt a with
  | none => simp [Server.withoutSession, Server.unlisted, ha]
  | some channel =>
      have hnodup : channel.sessions.Nodup := by
        rw [← members_eq ha]
        exact hs.grouped.nodup a
      have herase : channel.sessions.erase x =
          channel.sessions.filter fun y => !decide (y = x) := by
        rw [hnodup.erase_eq_filter]
        exact List.filter_congr fun y _ => by simp [bne, BEq.beq]
      simp [Server.withoutSession, Server.unlisted, ha, SecureChannel.keeping, herase]

/-- The loop over the sessions removes those of its row that have timed out. -/
theorem cleanupSessions_exact (hs : Consistent s) (now : DateTime) {xs : List Address}
    (hxs : xs.Nodup) (hlive : ∀ x ∈ xs, s.sessionAt x ≠ none) :
    ∃ r, SessionManager.cleanupEntries s now xs = some r ∧ r.connectionAt = s.connectionAt ∧
      (∀ x, r.sessionAt x = if among xs (s.timedOut now) x then none else s.sessionAt x) ∧
      ∀ a, r.channelAt a =
        (s.channelAt a).map (SecureChannel.keeping (among xs (s.timedOut now))) := by
  induction xs generalizing s with
  | nil =>
      refine ⟨s, rfl, rfl, ?_, ?_⟩
      · intro x
        simp [among_nil]
      · intro a
        simp [among_nil, SecureChannel.keeping_none]
  | cons x xs ih =>
      have hx := hlive x List.mem_cons_self
      have hnodup := List.nodup_cons.1 hxs
      rcases Option.ne_none_iff_exists'.1 hx with ⟨session, hsession⟩
      simp only [SessionManager.cleanupEntries, hsession, Option.bind_eq_bind, Option.bind_some]
      by_cases htimeout : session.validTill < now
      · have hout : s.timedOut now x = true := by simpa [timedOut, hsession] using htimeout
        have hne : ∀ y ∈ xs, y ≠ x := fun y hy heq => hnodup.1 (heq ▸ hy)
        have hsame : ∀ y ∈ xs, (s.withoutSession x).timedOut now y = s.timedOut now y := by
          intro y hy
          simp [timedOut, Server.withoutSession, hne y hy]
        have hrest : ∀ y ∈ xs, (s.withoutSession x).sessionAt y ≠ none := by
          intro y hy
          simpa [Server.withoutSession, hne y hy] using hlive y (List.mem_cons_of_mem x hy)
        rw [if_pos htimeout, removeSession_eq hs hx]
        rcases ih (hs.withoutSession hx) hnodup.2 hrest with
          ⟨r, hr, hconnections, hsessions, hchannels⟩
        refine ⟨r, hr, hconnections, ?_, ?_⟩
        · intro y
          rw [hsessions y, among_cons hout hsame]
          by_cases hy : y = x
          · subst hy
            simp [Server.withoutSession]
          · simp [Server.withoutSession, hy]
        · intro a
          rw [hchannels a, channelAt_withoutSession hs, among_cons hout hsame, Option.map_map]
          congr 1
          funext channel
          exact channel.keeping_keeping _ _
      · have hin : s.timedOut now x = false := by simpa [timedOut, hsession] using htimeout
        rw [if_neg htimeout, among_cons_of_not hin]
        exact ih hs hnodup.2 fun y hy => hlive y (List.mem_cons_of_mem x hy)

/-! ## The channels -/

theorem sessionAt_withoutChannel (a : ChannelAddress) (x : Address) :
    (s.withoutChannel a).sessionAt x =
      (s.sessionAt x).map (Session.keeping fun b => decide (b = a)) := by
  cases hx : s.sessionAt x with
  | none => simp [Server.withoutChannel, hx]
  | some session =>
      rcases session with ⟨_, _, _, _, _, channel⟩
      cases channel with
      | none => simp [Server.withoutChannel, hx, Session.keeping]
      | some b =>
          by_cases hb : b = a <;>
            simp [Server.withoutChannel, hx, Session.keeping, Option.filter, hb]

theorem connectionAt_withoutChannel (a : ChannelAddress) (c : Address) :
    (s.withoutChannel a).connectionAt c =
      (s.connectionAt c).map (Connection.keeping fun b => decide (b = a)) := by
  cases hc : s.connectionAt c with
  | none => simp [Server.withoutChannel, hc]
  | some connection =>
      cases hb : connection.channel with
      | none => simp [Server.withoutChannel, hc, Connection.keeping, hb]
      | some b => simp [Server.withoutChannel, hc, Connection.keeping, hb]

theorem SecureChannel.refreshed_connection (channel : SecureChannel) :
    channel.refreshed.connection = channel.connection := by
  unfold refreshed
  split
  · rfl
  · rfl

theorem SecureChannel.refreshed_sessions (channel : SecureChannel) :
    channel.refreshed.sessions = channel.sessions := by
  unfold refreshed
  split
  · rfl
  · rfl

/-- The loop over the channels removes the stale ones of its row and refreshes the others. -/
theorem cleanupChannels_exact (hs : Consistent s) (now : DateTime) {as : List ChannelAddress}
    (has : as.Nodup) (hmem : ∀ a ∈ as, a ∈ s.secureChannelManager.channels) :
    ∃ r, SecureChannelManager.cleanupEntries s now as = some r ∧
      (∀ c, r.connectionAt c =
        (s.connectionAt c).map (Connection.keeping (among as (s.stale now)))) ∧
      (∀ x, r.sessionAt x = (s.sessionAt x).map (Session.keeping (among as (s.stale now)))) ∧
      ∀ a, r.channelAt a =
        if among as (s.stale now) a then
          none
        else if a ∈ as then
          (s.channelAt a).map SecureChannel.refreshed
        else
          s.channelAt a := by
  induction as generalizing s with
  | nil =>
      refine ⟨s, rfl, ?_, ?_, ?_⟩
      · intro c
        simp [among_nil, Connection.keeping_none]
      · intro x
        simp [among_nil, Session.keeping_none]
      · intro a
        simp [among_nil]
  | cons a as ih =>
      have ha := hmem a List.mem_cons_self
      have hnodup := List.nodup_cons.1 has
      have hne : ∀ b ∈ as, b ≠ a := fun b hb heq => hnodup.1 (heq ▸ hb)
      rcases (hs.mem_channels a).1 ha with ⟨hanon, hlive⟩
      rcases Option.ne_none_iff_exists'.1 hlive with ⟨channel, hchannel⟩
      by_cases hstale : SecureChannelManager.timeout channel < now ∨ channel.connection = none
      · have hout : s.stale now a = true := by simpa [stale, hchannel] using hstale
        have hsame : ∀ b ∈ as, (s.withoutChannel a).stale now b = s.stale now b := by
          intro b hb
          simp [stale, Server.withoutChannel, hne b hb]
        have hrest : ∀ b ∈ as, b ∈ (s.withoutChannel a).secureChannelManager.channels := by
          intro b hb
          exact (List.mem_erase_of_ne (hne b hb)).2 (hmem b (List.mem_cons_of_mem a hb))
        simp only [SecureChannelManager.cleanupEntries, hchannel, Option.bind_eq_bind,
          Option.bind_some]
        rw [if_pos hstale, removeChannel_eq hs ha]
        rcases ih (hs.withoutChannel ha) hnodup.2 hrest with
          ⟨r, hr, hconnections, hsessions, hchannels⟩
        refine ⟨r, hr, ?_, ?_, ?_⟩
        · intro c
          rw [hconnections c, connectionAt_withoutChannel, among_cons hout hsame, Option.map_map]
          congr 1
          funext connection
          exact connection.keeping_keeping _ _
        · intro x
          rw [hsessions x, sessionAt_withoutChannel, among_cons hout hsame, Option.map_map]
          congr 1
          funext session
          exact session.keeping_keeping _ _
        · intro b
          rw [hchannels b, among_cons hout hsame]
          by_cases hb : b = a
          · subst hb
            simp [Server.withoutChannel]
          · simp [Server.withoutChannel, hb]
      · have hin : s.stale now a = false := by
          simpa [stale, hchannel, Option.isSome_iff_ne_none] using hstale
        have hsame : ∀ b ∈ as,
            (s.setChannel a channel.refreshed).stale now b = s.stale now b := by
          intro b hb
          simp [stale, Server.setChannel, hne b hb]
        have hs' : Consistent (s.setChannel a channel.refreshed) :=
          hs.setChannel hchannel channel.refreshed_connection channel.refreshed_sessions
        rw [cleanupEntries_refreshed hchannel hstale, among_cons_of_not hin, ← among_congr hsame]
        rcases ih hs' hnodup.2 fun b hb => hmem b (List.mem_cons_of_mem a hb) with
          ⟨r, hr, hconnections, hsessions, hchannels⟩
        refine ⟨r, hr, hconnections, hsessions, ?_⟩
        intro b
        rw [hchannels b]
        by_cases hb : b = a
        · subst hb
          simp [among, hnodup.1, Server.setChannel, hchannel]
        · simp [Server.setChannel, hb]

/-! ## The cleanup -/

theorem stale_of_keeping {r : Server} {gone : Address → Bool}
    (h : ∀ a, r.channelAt a = (s.channelAt a).map (SecureChannel.keeping gone)) (now : DateTime) :
    r.stale now = s.stale now := by
  funext a
  unfold stale
  rw [h a]
  cases ha : s.channelAt a with
  | none => rfl
  | some channel => rfl

theorem SecureChannel.refreshed_keeping (channel : SecureChannel) (gone : Address → Bool) :
    (channel.keeping gone).refreshed = channel.refreshed.keeping gone := by
  unfold refreshed keeping
  dsimp only
  split
  · rfl
  · rfl

/-- The row of the sessions has all that can time out. -/
theorem among_sessions (hs : Consistent s) :
    among s.sessionManager.sessions (s.timedOut now) = s.timedOut now := by
  refine among_eq fun x hx => (hs.mem_sessions x).2 ?_
  intro hnone
  simp [timedOut, hnone] at hx

/-- The row of the channels has all that can be stale. -/
theorem among_channels (hs : Consistent s) (hquiet : s.channelAt .anonymous = none) :
    among s.secureChannelManager.channels (s.stale now) = s.stale now := by
  refine among_eq fun a ha => (hs.mem_channels a).2 ⟨?_, ?_⟩
  · rintro rfl
    simp [stale, hquiet] at ha
  · intro hnone
    simp [stale, hnone] at ha

theorem cleanup_leaves (hs : Consistent s) (hquiet : s.channelAt .anonymous = none)
    (now : DateTime) :
    ∃ r, cleanup s now = some r ∧ (∀ x, r.sessionAt x = s.sessionLeft now x) ∧
      (∀ a, r.channelAt a = s.channelLeft now a) ∧
      ∀ c, r.connectionAt c = s.connectionLeft now c := by
  have hlive := fun x hx => (hs.mem_sessions x).1 hx
  rcases cleanupSessions_exact hs now hs.sessions.nodup hlive with
    ⟨t, ht, hconnections, hsessions, hchannels⟩
  rcases cleanupSessions_follows hs hquiet now hs.sessions.nodup hlive with
    ⟨t', ht', hsteps, htquiet⟩
  obtain rfl : t = t' := Option.some.inj (ht.symm.trans ht')
  have htcons : Consistent t := steps_consistent hsteps hs
  rw [among_sessions hs] at hsessions hchannels
  -- The sessions that went do not make a channel stale.
  have hstale := stale_of_keeping hchannels now
  rcases cleanupChannels_exact htcons now htcons.channels.nodup fun _ ha => ha with
    ⟨r, hr, hconnections', hsessions', hchannels'⟩
  rw [among_channels htcons htquiet, hstale] at hconnections' hsessions' hchannels'
  refine ⟨r, ?_, ?_, ?_, ?_⟩
  · rw [cleanup, SessionManager.cleanupTimedOut, ht]
    exact hr
  · intro x
    rw [hsessions' x, hsessions x, sessionLeft]
    split
    · rfl
    · rfl
  · intro a
    rw [hchannels' a, channelLeft]
    split
    · rfl
    · split
      · rw [hchannels a, Option.map_map]
        congr 1
        funext channel
        exact channel.refreshed_keeping _
      · rename_i hmem
        -- What is not in the row is not there.
        have hgone : t.channelAt a = none := by
          by_cases hanon : a = .anonymous
          · rw [hanon]
            exact htquiet
          · by_contra hne
            exact hmem ((htcons.mem_channels a).2 ⟨hanon, hne⟩)
        have hnone : s.channelAt a = none := by
          rw [hchannels a] at hgone
          exact Option.map_eq_none_iff.1 hgone
        rw [hgone, hnone]
        rfl
  · intro c
    rw [hconnections' c, hconnections, connectionLeft]

/-- **A cleanup leaves what it should.**  After a safe run it closes exactly the sessions that have
timed out and the channels that were not renewed or lost their connection.  The other sessions are
detached from the channels that went, the other channels lose the sessions that went and get their
pending tokens, and the connections of the channels that went are closed. -/
theorem cleanup_exact (config : ServerConfig) (jobs : List Job)
    (hsafe : SafeRun (Server.init config) jobs) (now : DateTime) :
    ∃ s r, run (Server.init config) jobs = some s ∧ cleanup s now = some r ∧
      (∀ x, r.sessionAt x = s.sessionLeft now x) ∧
      (∀ a, r.channelAt a = s.channelLeft now a) ∧
      ∀ c, r.connectionAt c = s.connectionLeft now c := by
  rcases run_follows (.init config) rfl hsafe with ⟨s, hrun, hsteps, hquiet⟩
  rcases cleanup_leaves (steps_consistent hsteps (.init config)) hquiet now with ⟨r, hr⟩
  exact ⟨s, r, hrun, hr⟩

/-- Long behind the last message the session of the first client and the channel of the second one
have timed out. -/
theorem cleanup_exact_twoClients :
    ∃ s r, run (Server.init anonymousOnly) twoClients = some s ∧
      cleanup s 20000000000 = some r ∧
      (∀ x, r.sessionAt x = s.sessionLeft 20000000000 x) ∧
      (∀ a, r.channelAt a = s.channelLeft 20000000000 a) ∧
      ∀ c, r.connectionAt c = s.connectionLeft 20000000000 c :=
  cleanup_exact anonymousOnly twoClients (by decide +kernel) 20000000000

example : ((run (Server.init anonymousOnly) twoClients).bind fun s => cleanup s 20000000000).map
    (fun r => (r.sessionAt 9, r.channelAt (.entry 6), r.connectionAt 1)) =
      some (none, none, some ⟨.closed, none⟩) := by
  decide +kernel

-- Until then the session is there, over no channel.
example : ((run (Server.init anonymousOnly) twoClients).bind fun s => cleanup s 5000).map
    (fun r => ((r.sessionAt 9).map Session.channel, (r.channelAt (.entry 6)).isSome)) =
      some (some none, true) := by
  decide +kernel

end Channels

end ForteOpcUa
