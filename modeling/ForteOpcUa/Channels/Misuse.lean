import ForteOpcUa.Channels.Runs

/-!
# Misuse — the two messages that break the graph

- `Orphan` : a channel points at a connection that has got another one.  When the connection is lost
  and the channel times out, the cleanup uses the connection that was freed.
- `Stray`  : a session points at the anonymous channel, which is gone.  When the session times out,
  the cleanup uses the channel.
- `corrupts_iff_dangles` : no other message does harm.
-/

namespace ForteOpcUa

namespace Channels

open Interaction Pointers Server

/-! ## A second channel -/

theorem close_freed {s s' : Server} {c d : Address} (hc : s.connectionAt c = none)
    (h : Connection.close s d = some s') : s'.connectionAt c = none := by
  rcases Option.bind_eq_some_iff.1 h with ⟨connection, hd, h⟩
  cases h
  have hne : c ≠ d := by
    rintro rfl
    rw [hc] at hd
    cases hd
  simpa [Server.setConnection, hne] using hc

/-- A channel that points at a connection, and no connection at it. -/
structure Orphan (s : Server) (c : Address) (a : ChannelAddress) (t : DateTime) : Prop where
  listed : a ∈ s.secureChannelManager.channels
  channel : ∃ channel, s.channelAt a = some channel ∧ channel.connection = some c ∧
    SecureChannelManager.timeout channel = t
  unbound : ∀ d, s.bound d ≠ some a

namespace Orphan

variable {s s' : Server} {c : Address} {a : ChannelAddress} {t : DateTime}

/-- Nothing happens to the channel, and no connection gets it. -/
theorem of_same (h : Orphan s c a t)
    (hlist : s'.secureChannelManager.channels = s.secureChannelManager.channels)
    (hchannel : s'.channelAt a = s.channelAt a)
    (hbound : ∀ d b, s'.bound d = some b → b = a → s.bound d = some a) : Orphan s' c a t where
  listed := by
    rw [hlist]
    exact h.listed
  channel := by
    rw [hchannel]
    exact h.channel
  unbound := fun d hd => h.unbound d (hbound d a hd rfl)

theorem setChannel (h : Orphan s c a t) {b : ChannelAddress} (hb : b ≠ a)
    (channel : SecureChannel) : Orphan (s.setChannel b channel) c a t :=
  h.of_same rfl (by simp [Server.setChannel, hb.symm]) fun _ _ hd heq => heq ▸ hd

theorem log (h : Orphan s c a t) (e : Event) : Orphan (s.log e) c a t :=
  h.of_same rfl rfl fun _ _ hd heq => heq ▸ hd

theorem setConnection (h : Orphan s c a t) {d : Address} {connection : Connection}
    (hne : connection.channel ≠ some a) : Orphan (s.setConnection d connection) c a t := by
  refine h.of_same rfl rfl ?_
  rintro d' b hd rfl
  rw [bound_setConnection] at hd
  by_cases heq : d' = d
  · subst heq
    rw [Function.update_self] at hd
    exact absurd hd hne
  · rwa [Function.update_of_ne heq] at hd

theorem close (h : Orphan s c a t) {d : Address} (hclose : Connection.close s d = some s') :
    Orphan s' c a t := by
  unfold Connection.close at hclose
  cases hd : s.connectionAt d with
  | none =>
      rw [hd] at hclose
      cases hclose
  | some connection =>
      rw [hd] at hclose
      cases hclose
      refine h.setConnection ?_
      have hb := h.unbound d
      rwa [bound_eq hd] at hb

theorem setSession (h : Orphan s c a t) (x : Address) (session : Session) :
    Orphan (s.setSession x session) c a t :=
  h.of_same rfl rfl fun _ _ hd heq => heq ▸ hd

/-- The sessions of a channel are written, of the orphan or of another one. -/
theorem setSessions (h : Orphan s c a t) {b : ChannelAddress} {channel : SecureChannel}
    (hb : s.channelAt b = some channel) (sessions : List Address) :
    Orphan (s.setChannel b { channel with sessions := sessions }) c a t := by
  by_cases hba : b = a
  · subst hba
    rcases h.channel with ⟨channel', ha, hc, ht⟩
    rw [hb] at ha
    cases ha
    exact ⟨h.listed, ⟨{ channel with sessions := sessions }, by simp [Server.setChannel], hc, ht⟩,
      h.unbound⟩
  · exact h.setChannel hba _

theorem detachSession (h : Orphan s c a t) {b : ChannelAddress} {x : Address}
    (hdetach : SecureChannel.detachSession s b x = some s') :
    Orphan s' c a t ∧ s'.connectionAt = s.connectionAt := by
  rcases Option.bind_eq_some_iff.1 hdetach with ⟨session, _, hdetach⟩
  rcases Option.bind_eq_some_iff.1 hdetach with ⟨channel, hb, hdetach⟩
  cases hdetach
  exact ⟨(h.setSession x _).setSessions hb _, rfl⟩

theorem releaseSessions (h : Orphan s c a t) {b : ChannelAddress} {xs : List Address}
    (hrelease : SecureChannel.releaseSessions s b xs = some s') :
    Orphan s' c a t ∧ s'.connectionAt = s.connectionAt := by
  induction xs generalizing s with
  | nil =>
      cases hrelease
      exact ⟨h, rfl⟩
  | cons x xs ih =>
      rcases Option.bind_eq_some_iff.1 hrelease with ⟨session, _, hrelease⟩
      rcases Option.bind_eq_some_iff.1 hrelease with ⟨channel, hb, hrelease⟩
      rcases ih ((h.setSession x _).setSessions hb _) hrelease with ⟨horphan, hsame⟩
      exact ⟨horphan, hsame⟩

/-- No connection that is detached is the orphan's. -/
theorem detachSecureChannel (h : Orphan s c a t) {d : Address}
    (hdetach : Connection.detachSecureChannel s d = some s') :
    Orphan s' c a t ∧ s'.bound d = none ∧ (s.connectionAt c = none → s'.connectionAt c = none) := by
  rcases Option.bind_eq_some_iff.1 hdetach with ⟨connection, hd, hdetach⟩
  have hfreed : s.connectionAt c = none → c ≠ d := by
    rintro hc rfl
    rw [hc] at hd
    cases hd
  cases hbound : connection.channel with
  | none =>
      rw [hbound] at hdetach
      cases hdetach
      refine ⟨h.setConnection (by simp), by simp, fun hc => ?_⟩
      rw [show (s.setConnection d _).connectionAt c = s.connectionAt c from
        Function.update_of_ne (hfreed hc) _ _]
      exact hc
  | some b =>
      rw [hbound] at hdetach
      rcases Option.bind_eq_some_iff.1 hdetach with ⟨channel, hb, hdetach⟩
      cases hdetach
      have hba : b ≠ a := by
        rintro rfl
        exact h.unbound d ((bound_eq hd).trans hbound)
      refine ⟨(h.setChannel hba _).setConnection (by simp), by simp, fun hc => ?_⟩
      rw [show ((s.setChannel b _).setConnection d _).connectionAt c = s.connectionAt c from
        Function.update_of_ne (hfreed hc) _ _]
      exact hc

/-- The graph is not consistent any more. -/
theorem not_consistent (h : Orphan s c a t) : ¬ Consistent s := by
  intro hs
  rcases h.channel with ⟨channel, ha, hc, _⟩
  have hpeer : s.peer a = some c := (peer_eq ((hs.mem_channels a).1 h.listed).1 ha).trans hc
  exact h.unbound c (hs.peer_iff.1 hpeer)

end Orphan

/-- An orphan whose connection is freed. -/
structure Abandoned (s : Server) (c : Address) (a : ChannelAddress) (t : DateTime) : Prop
    extends Orphan s c a t where
  freed : s.connectionAt c = none

namespace Abandoned

variable {s s' : Server} {c : Address} {a : ChannelAddress} {t : DateTime}

theorem removeSession (h : Abandoned s c a t) {x : Address}
    (hremove : SessionManager.removeEntry s x = some s') : Abandoned s' c a t := by
  rcases Option.bind_eq_some_iff.1 hremove with ⟨r, hmembers, hremove⟩
  cases hremove
  have hlist : Orphan { s with sessionManager := { s.sessionManager with
      sessions := s.sessionManager.sessions.erase x } } c a t :=
    h.of_same rfl rfl fun _ _ hd heq => heq ▸ hd
  have hr : Orphan r c a t ∧ r.connectionAt = s.connectionAt := by
    rcases Option.bind_eq_some_iff.1 hmembers with ⟨session, _, hmembers⟩
    cases hown : session.channel with
    | none =>
        rw [hown] at hmembers
        cases hmembers
        exact ⟨hlist, rfl⟩
    | some b =>
        rw [hown] at hmembers
        exact hlist.detachSession hmembers
  exact ⟨hr.1.of_same rfl rfl fun _ _ hd heq => heq ▸ hd, (congrFun hr.2 c).trans h.freed⟩

theorem removeChannel (h : Abandoned s c a t) {b : ChannelAddress} (hba : b ≠ a)
    (hremove : SecureChannelManager.removeEntry s b = some s') : Abandoned s' c a t := by
  rcases Option.bind_eq_some_iff.1 hremove with ⟨r, hmembers, hremove⟩
  cases hremove
  have hlist : Orphan { s with secureChannelManager := { s.secureChannelManager with
      channels := s.secureChannelManager.channels.erase b } } c a t :=
    ⟨(List.mem_erase_of_ne hba.symm).2 h.listed, h.channel, h.unbound⟩
  have hr : Orphan r c a t ∧ r.connectionAt c = none := by
    rcases Option.bind_eq_some_iff.1 hmembers with ⟨channel, _, hmembers⟩
    cases hpeer : channel.connection with
    | none =>
        rw [hpeer] at hmembers
        rcases hlist.releaseSessions hmembers with ⟨horphan, hsame⟩
        exact ⟨horphan, (congrFun hsame c).trans h.freed⟩
    | some d =>
        rw [hpeer] at hmembers
        rcases Option.bind_eq_some_iff.1 hmembers with ⟨r₁, hdetach, hmembers⟩
        rcases Option.bind_eq_some_iff.1 hmembers with ⟨r₂, hclose, hmembers⟩
        rcases hlist.detachSecureChannel hdetach with ⟨h₁, _, hfreed⟩
        rcases (h₁.close hclose).releaseSessions hmembers with ⟨horphan, hsame⟩
        exact ⟨horphan, (congrFun hsame c).trans (close_freed (hfreed h.freed) hclose)⟩
  refine ⟨hr.1.of_same rfl ?_ fun _ _ hd heq => heq ▸ hd, hr.2⟩
  exact Function.update_of_ne hba.symm _ _

/-- The cleanup of the sessions either fails or leaves the orphan. -/
theorem cleanupSessions (h : Abandoned s c a t) (now : DateTime) {xs : List Address}
    (hcleanup : SessionManager.cleanupEntries s now xs = some s') : Abandoned s' c a t := by
  induction xs generalizing s with
  | nil =>
      cases hcleanup
      exact h
  | cons x xs ih =>
      rcases Option.bind_eq_some_iff.1 hcleanup with ⟨session, _, hcleanup⟩
      by_cases htimeout : session.validTill < now
      · rw [if_pos htimeout] at hcleanup
        rcases Option.bind_eq_some_iff.1 hcleanup with ⟨r, hremove, hcleanup⟩
        exact ih (h.removeSession hremove) hcleanup
      · rw [if_neg htimeout] at hcleanup
        exact ih h hcleanup

/-- The cleanup of the channels uses the connection that was freed. -/
theorem cleanupChannels (h : Abandoned s c a t) {now : DateTime} (hnow : t < now)
    {as : List ChannelAddress} (ha : a ∈ as) :
    SecureChannelManager.cleanupEntries s now as = none := by
  by_contra hne
  rcases Option.ne_none_iff_exists'.1 hne with ⟨s', hcleanup⟩
  clear hne
  induction as generalizing s with
  | nil => cases ha
  | cons b as ih =>
      rcases Option.bind_eq_some_iff.1 hcleanup with ⟨channel, hb, hcleanup⟩
      by_cases hba : b = a
      · subst hba
        rcases h.channel with ⟨channel', ha', hc, ht⟩
        rw [hb] at ha'
        cases ha'
        rw [if_pos (Or.inl (by rwa [ht]))] at hcleanup
        rcases Option.bind_eq_some_iff.1 hcleanup with ⟨r, hremove, _⟩
        rcases Option.bind_eq_some_iff.1 hremove with ⟨r', hmembers, _⟩
        rcases Option.bind_eq_some_iff.1 hmembers with ⟨channel', hb', hmembers⟩
        rw [show channel' = channel from Option.some.inj (hb'.symm.trans hb), hc] at hmembers
        rcases Option.bind_eq_some_iff.1 hmembers with ⟨r'', hdetach, _⟩
        rcases Option.bind_eq_some_iff.1 hdetach with ⟨connection, hconnection, _⟩
        rw [show _ = none from h.freed] at hconnection
        cases hconnection
      · have ha' := List.mem_of_ne_of_mem (fun heq => hba heq.symm) ha
        by_cases htimeout : SecureChannelManager.timeout channel < now ∨ channel.connection = none
        · rw [if_pos htimeout] at hcleanup
          rcases Option.bind_eq_some_iff.1 hcleanup with ⟨r, hremove, hcleanup⟩
          exact ih (h.removeChannel hba hremove) ha' hcleanup
        · rw [if_neg htimeout] at hcleanup
          by_cases hnext : 0 < channel.nextSecurityToken.tokenId
          · rw [if_pos hnext] at hcleanup
            rcases Option.bind_eq_some_iff.1 hcleanup with ⟨r, hrevolve, hcleanup⟩
            rcases Option.bind_eq_some_iff.1 hrevolve with ⟨channel', _, hrevolve⟩
            have hr : Abandoned r c a t := by
              split at hrevolve
              · cases hrevolve
                exact h
              · cases hrevolve
                exact ⟨h.setChannel hba _, h.freed⟩
            exact ih hr ha' hcleanup
          · rw [if_neg hnext] at hcleanup
            exact ih h ha' hcleanup

end Abandoned

/-- **Use after free.**  The connection of an orphan is lost, and later the orphan times out. -/
theorem Orphan.faults {s : Server} {c : Address} {a : ChannelAddress} {t : DateTime}
    (h : Orphan s c a t) (hc : s.connectionAt c ≠ none) {now : DateTime} (hnow : t < now) :
    run s [.detachConnection c, .cleanup now] = none := by
  by_contra hne
  rcases Option.ne_none_iff_exists'.1 hne with ⟨s', hrun⟩
  rcases Option.bind_eq_some_iff.1 hrun with ⟨r, hlost, hrun⟩
  rcases Option.bind_eq_some_iff.1 hrun with ⟨r', hcleanup, _⟩
  dsimp only [processJob] at hlost hcleanup
  rw [if_neg hc] at hlost
  rcases Option.bind_eq_some_iff.1 hlost with ⟨q, hdetach, hlost⟩
  cases hlost
  rcases h.detachSecureChannel hdetach with ⟨hq, hbound, _⟩
  have habandoned : Abandoned (q.freeConnection c) c a t := by
    refine ⟨hq.of_same rfl rfl ?_, by simp [freeConnection]⟩
    rintro d b hd rfl
    by_cases hdc : d = c
    · subst hdc
      simp [bound, freeConnection] at hd
    · simpa [bound, freeConnection, hdc] using hd
  rcases Option.bind_eq_some_iff.1 hcleanup with ⟨r'', hsessions, hchannels⟩
  have hlate := habandoned.cleanupSessions now hsessions
  have hnone := hlate.cleanupChannels hnow hlate.listed
  rw [SecureChannelManager.cleanupTimedOut, hnone] at hchannels
  cases hchannels

/-- The connection stays, whatever becomes of the response. -/
theorem close_connectionAt {s s' : Server} {c : Address} (h : Connection.close s c = some s') :
    s'.connectionAt c ≠ none := by
  unfold Connection.close at h
  cases hc : s.connectionAt c with
  | none =>
      rw [hc] at h
      cases h
  | some connection =>
      rw [hc] at h
      cases h
      simp [Server.setConnection]

/-- The response goes over the new channel. -/
theorem respondOpen_orphan {s : Server} {c : Address} {a b : ChannelAddress} {t : DateTime}
    (h : Orphan s c a t) {connection : Connection} {channel : SecureChannel}
    (hc : s.connectionAt c = some connection) (hbound : connection.channel = some b)
    (hb : s.channelAt b = some channel) (hne : b ≠ a) (out : Sending) (result : StatusCode) :
    ∃ s', respondOpen s c out result = some s' ∧ Orphan s' c a t ∧ s'.connectionAt c ≠ none := by
  have hcount := h.setChannel hne channel.count
  have hc' : (s.setChannel b channel.count).connectionAt c = some connection := hc
  have hclose := close_eq hc'
  simp only [respondOpen, hc, hbound, hb, Option.bind_eq_bind, Option.bind_some]
  by_cases hbuffer : out.buffer = .good
  · rw [if_neg (by simpa using hbuffer)]
    by_cases hencoding : out.encoding = .good
    · rw [if_neg (by simpa using hencoding)]
      cases hsent : out.sent with
      | true =>
          refine ⟨_, rfl, hcount.log _, ?_⟩
          rw [show ((s.setChannel b channel.count).log _).connectionAt c = some connection from hc]
          simp
      | false =>
          simp only [send, Bool.false_eq_true, if_false, hclose, Option.bind_eq_bind,
            Option.pure_def, Option.bind_some]
          exact ⟨_, rfl, hcount.close hclose, close_connectionAt hclose⟩
    · rw [if_pos hencoding]
      exact ⟨_, hclose, hcount.close hclose, close_connectionAt hclose⟩
  · rw [if_pos hbuffer]
    refine ⟨_, rfl, hcount, ?_⟩
    rw [hc']
    simp

/-- A second channel leaves the first one an orphan. -/
theorem reissued_orphan {s : Server} (hs : Consistent s) {c : Address} {a : ChannelAddress}
    {connection : Connection} {channel : SecureChannel}
    (hc : s.connectionAt c = some connection) (hstate : connection.state = .established)
    (hbound : connection.channel = some a) (ha : s.channelAt a = some channel) {m : OpenMessage}
    {request : OpenSecureChannelRequest} (hrequest : m.request = some request)
    (hgrants : Grants s request m.memory) :
    ∃ s', processOPN s c m = some s' ∧ Orphan s' c a (SecureChannelManager.timeout channel) ∧
      s'.connectionAt c ≠ none := by
  have hb : s.bound c = some a := (bound_eq hc).trans hbound
  rcases hs.channelAt_of_bound hb with ⟨hanon, channel', ha', hpeer⟩
  rw [ha] at ha'
  cases ha'
  rcases openChannel_cases hc request m.memory m.now hgrants.issue with
    ⟨hrefused, _⟩ | ⟨_, n, lifetime, hn, hissued⟩
  · exact absurd hgrants hrefused
  · have hna : ChannelAddress.entry n ≠ a := by
      rintro rfl
      rw [hn] at ha
      cases ha
    have hc' : (s.issue c n connection m.now lifetime).connectionAt c =
        some { connection with channel := some (.entry n) } := by
      simp [Server.issue, Server.log, Server.setConnection]
    have horphan : Orphan (s.issue c n connection m.now lifetime) c a
        (SecureChannelManager.timeout channel) := by
      refine ⟨?_, ⟨channel, ?_, hpeer, rfl⟩, ?_⟩
      · have hlisted := (hs.mem_channels a).2 ⟨hanon, by rw [ha]; simp⟩
        simp [Server.issue, Server.log, Server.setConnection, Server.setChannel, hlisted]
      · simpa [Server.issue, Server.log, Server.setConnection, Server.setChannel, hna.symm] using ha
      · intro d hd
        unfold Server.issue at hd
        rw [bound_log, bound_setConnection] at hd
        by_cases hdc : d = c
        · subst hdc
          rw [Function.update_self] at hd
          exact hna (Option.some.inj hd)
        · rw [Function.update_of_ne hdc] at hd
          have hpeer' := hs.peer_iff.2 (show s.bound d = some a from hd)
          rw [hs.peer_iff.2 hb] at hpeer'
          exact hdc (Option.some.inj hpeer').symm
    have hn' : (s.issue c n connection m.now lifetime).channelAt (.entry n) ≠ none := by
      simp [Server.issue, Server.log, Server.setConnection, Server.setChannel]
    rcases Option.ne_none_iff_exists'.1 hn' with ⟨channel', hchannel'⟩
    simp only [processOPN, hc, hrequest, Option.bind_eq_bind, Option.bind_some]
    rw [if_neg (by simpa using hstate), openSecureChannel, if_pos hgrants.issue, hissued]
    exact respondOpen_orphan horphan hc' rfl hchannel' hna m.out .good

/-! ## A session on the anonymous channel -/

/-- A session that was activated over the anonymous channel. -/
structure Left (s : Server) (x : Address) (t : DateTime) : Prop where
  listed : x ∈ s.sessionManager.sessions
  session : ∃ session, s.sessionAt x = some session ∧ session.channel = some .anonymous ∧
    session.validTill = t

/-- The anonymous channel is gone, but not from the session. -/
structure Stray (s : Server) (x : Address) (t : DateTime) : Prop extends Left s x t where
  quiet : s.channelAt .anonymous = none

namespace Stray

variable {s s' : Server} {x : Address} {t : DateTime}

theorem removeSession (h : Stray s x t) {y : Address} (hy : y ≠ x)
    (hremove : SessionManager.removeEntry s y = some s') : Stray s' x t := by
  rcases Option.bind_eq_some_iff.1 hremove with ⟨r, hmembers, hremove⟩
  cases hremove
  rcases h.session with ⟨stray, hx, hleft, ht⟩
  have hlisted : x ∈ s.sessionManager.sessions.erase y :=
    (List.mem_erase_of_ne fun heq => hy heq.symm).2 h.listed
  rcases Option.bind_eq_some_iff.1 hmembers with ⟨session, _, hmembers⟩
  cases hown : session.channel with
  | none =>
      rw [hown] at hmembers
      cases hmembers
      refine ⟨⟨hlisted, stray, ?_, hleft, ht⟩, h.quiet⟩
      rw [← hx]
      exact Function.update_of_ne hy.symm _ _
  | some b =>
      rw [hown] at hmembers
      rcases Option.bind_eq_some_iff.1 hmembers with ⟨session', _, hmembers⟩
      rcases Option.bind_eq_some_iff.1 hmembers with ⟨channel, hb, hmembers⟩
      cases hmembers
      have hanon : (ChannelAddress.anonymous) ≠ b := by
        rintro rfl
        rw [show _ = none from h.quiet] at hb
        cases hb
      refine ⟨⟨hlisted, stray, ?_, hleft, ht⟩, ?_⟩
      · simpa [Server.log, freeSession, Server.setChannel, Server.setSession, hy.symm] using hx
      · simpa [Server.log, freeSession, Server.setChannel, Server.setSession, hanon] using h.quiet

/-- The cleanup of the sessions uses the anonymous channel. -/
theorem cleanupSessions (h : Stray s x t) {now : DateTime} (hnow : t < now) {xs : List Address}
    (hx : x ∈ xs) : SessionManager.cleanupEntries s now xs = none := by
  by_contra hne
  rcases Option.ne_none_iff_exists'.1 hne with ⟨s', hcleanup⟩
  clear hne
  induction xs generalizing s with
  | nil => cases hx
  | cons y ys ih =>
      rcases Option.bind_eq_some_iff.1 hcleanup with ⟨session, hsession, hcleanup⟩
      by_cases hy : y = x
      · subst hy
        rcases h.session with ⟨stray, hstray, hleft, ht⟩
        rw [hsession] at hstray
        cases hstray
        rw [if_pos (by rwa [ht])] at hcleanup
        rcases Option.bind_eq_some_iff.1 hcleanup with ⟨r, hremove, _⟩
        rcases Option.bind_eq_some_iff.1 hremove with ⟨r', hmembers, _⟩
        rcases Option.bind_eq_some_iff.1 hmembers with ⟨session', hsession', hmembers⟩
        rw [show session' = session from Option.some.inj (hsession'.symm.trans hsession),
          hleft] at hmembers
        rcases Option.bind_eq_some_iff.1 hmembers with ⟨_, _, hmembers⟩
        rcases Option.bind_eq_some_iff.1 hmembers with ⟨channel, hanon, _⟩
        rw [show _ = none from h.quiet] at hanon
        cases hanon
      · have hx' := List.mem_of_ne_of_mem (fun heq => hy heq.symm) hx
        by_cases htimeout : session.validTill < now
        · rw [if_pos htimeout] at hcleanup
          rcases Option.bind_eq_some_iff.1 hcleanup with ⟨r, hremove, hcleanup⟩
          exact ih (h.removeSession hy hremove) hx' hcleanup
        · rw [if_neg htimeout] at hcleanup
          exact ih h hx' hcleanup

/-- **Use after free.**  The session times out. -/
theorem faults (h : Stray s x t) {now : DateTime} (hnow : t < now) :
    run s [.cleanup now] = none := by
  have hsessions := h.cleanupSessions hnow h.listed
  simp [run, processJob, cleanup, SessionManager.cleanupTimedOut, hsessions]

/-- The graph is not consistent any more. -/
theorem not_consistent (h : Stray s x t) : ¬ Consistent s := by
  intro hs
  rcases h.session with ⟨session, hx, hleft, _⟩
  exact hs.ne_anonymous_of_owner ((owner_eq hx).trans hleft) rfl

end Stray

/-- A session without a channel is attached to the anonymous one. -/
theorem attach_left {s : Server} {c x : Address} (h : Speaks s c .anonymous) {session : Session}
    (hx : s.sessionAt x = some session) (hfree : session.channel = none)
    (hlisted : x ∈ s.sessionManager.sessions) (request : ActivateSessionRequest)
    (hentry : request.entry = true) :
    ∃ s' t, ((SecureChannel.attachSession s .anonymous x request.entry).bind fun s =>
        (s.sessionAt x).bind fun session => some ((s.setSession x
          ({ session with activated := true }.updateLifetime (request.clock 2))).log
            (.activated x .anonymous request.identity))) = some s' ∧
      Left s' x t ∧ Speaks s' c .anonymous ∧ s'.connectionAt = s.connectionAt := by
  rcases h.channel with ⟨channel, hanon, hc⟩
  simp only [SecureChannel.attachSession, hentry, if_true, hx, hfree, hanon, ne_eq,
    not_true_eq_false, if_false, Option.bind_eq_bind, Option.bind_some, Option.pure_def]
  simp only [setChannel, setSession, Function.update_self, Function.update_idem, Option.bind_some]
  refine ⟨_, _, rfl, ⟨hlisted, _, Function.update_self _ _ _, rfl, rfl⟩, ⟨?_, ?_⟩, rfl⟩
  · exact ⟨{ channel with sessions := x :: channel.sessions }, by simp [Server.log], hc⟩
  · exact fun hne => absurd rfl hne

/-- The session of an accepted activation is left on the anonymous channel. -/
theorem activateSession_left {s : Server} (hs : Consistent s) {c x : Address}
    (h : Speaks s c .anonymous) {request : ActivateSessionRequest}
    (hactivates : Activates s request x) :
    ∃ s' t, activateSession s .anonymous request = some (.good, s') ∧ Left s' x t ∧
      Speaks s' c .anonymous ∧ s'.connectionAt = s.connectionAt := by
  rcases getSession_eq hs request.authenticationToken (request.clock 0) with ⟨r, hr, hfound⟩
  rw [hactivates.found] at hr
  cases hr
  rcases hfound x rfl with ⟨session, hx, _⟩
  have hlisted : x ∈ s.sessionManager.sessions := (hs.mem_sessions x).2 (by rw [hx]; simp)
  have hvalid : ¬ session.validTill < request.clock 1 := not_lt.2 (hactivates.valid session hx)
  suffices hactivate : ∃ s' t, activate s .anonymous x request = some s' ∧ Left s' x t ∧
      Speaks s' c .anonymous ∧ s'.connectionAt = s.connectionAt by
    rcases hactivate with ⟨s', t, hactivate, hleft⟩
    refine ⟨s', t, ?_, hleft⟩
    simp only [activateSession, hactivates.found, hx, Option.bind_eq_bind, Option.bind_some]
    rw [if_neg hvalid, if_pos hactivates.accepted, hactivate]
    simp [hactivates.accepted]
  simp only [activate, hx, Option.bind_eq_bind, Option.bind_some, Option.pure_def]
  cases hown : session.channel with
  | none => exact attach_left h hx hown hlisted request hactivates.entry
  | some b =>
      -- The session comes from a channel of the manager.
      have hb : b ≠ .anonymous := hs.ne_anonymous_of_owner ((owner_eq hx).trans hown)
      simp only [ne_eq, hb, not_false_eq_true, if_true]
      rw [detachSession_eq hs.grouped hx hown]
      simp only [Option.bind_some]
      have h' : Speaks ((s.unlisted x).setSession x { session with channel := none }) c .anonymous :=
        (h.unlisted x).of_channelAt rfl
      exact attach_left h' (Function.update_self _ _ _) rfl hlisted request hactivates.entry

/-- The response goes over the anonymous channel. -/
theorem sendBinaryMessage_left {s : Server} {c x : Address} {a : ChannelAddress} {t : DateTime}
    (h : Left s x t) (hspeaks : Speaks s c a) (hc : s.connectionAt c ≠ none) (out : Sending)
    (result : StatusCode) :
    ∃ r, SecureChannel.sendBinaryMessage s a out result = some r ∧ Left r.2 x t := by
  rcases hspeaks.channel with ⟨channel, ha, hpeer⟩
  rcases Option.ne_none_iff_exists'.1 hc with ⟨connection, hconnection⟩
  simp only [SecureChannel.sendBinaryMessage, ha, hpeer, hconnection, Option.bind_eq_bind,
    Option.bind_some]
  by_cases hbuffer : out.buffer = .good
  · by_cases hencoding : out.encoding = .good
    · rw [if_neg (by simpa using hbuffer), if_neg (by simpa using hencoding)]
      cases hsent : out.sent with
      | true => exact ⟨_, rfl, h.listed, h.session⟩
      | false =>
          have hclose := close_eq (s := s.setChannel a channel.count) (c := c) hconnection
          simp only [send, Bool.false_eq_true, if_false, hclose, Option.bind_eq_bind,
            Option.bind_some, Option.pure_def]
          exact ⟨_, rfl, h.listed, h.session⟩
    · rw [if_neg (by simpa using hbuffer), if_pos hencoding]
      exact ⟨_, rfl, h⟩
  · rw [if_pos hbuffer]
    exact ⟨_, rfl, h⟩

/-- An activation over the anonymous channel leaves a stray session. -/
theorem processMSG_stray {s : Server} (hs : Consistent s) {c x : Address} (h : Ready s c)
    (hbound : s.bound c = none) {m : SecuredMessage} {tokenId : UInt32}
    (htoken : m.tokenId = some tokenId) (hne : tokenId ≠ 0) {request : ActivateSessionRequest}
    {out : Sending} (hrequest : m.request = .activateSession request out)
    (hactivates : Activates s request x) :
    ∃ s' t, processMSG s c m = some s' ∧ Stray s' x t := by
  rcases Option.ne_none_iff_exists'.1 h.connection with ⟨connection, hc⟩
  have hfree : connection.channel = none := (bound_eq hc).symm.trans hbound
  have hspeaks : Speaks (s.setChannel .anonymous { SecureChannel.init with connection := some c }) c
      .anonymous :=
    ⟨⟨{ SecureChannel.init with connection := some c }, by simp [Server.setChannel], rfl⟩,
      fun hne => absurd rfl hne⟩
  rcases activateSession_left (hs.enter h.connection) hspeaks (activates_setChannel.2 hactivates)
    with ⟨s₁, t, hactivate, hleft, hspeaks₁, hsame⟩
  have hc₁ : s₁.connectionAt c ≠ none := by
    rw [hsame]
    exact h.connection
  rcases sendBinaryMessage_left hleft hspeaks₁ hc₁ out .good with ⟨r, hsend, hr⟩
  refine ⟨r.2.freeChannel .anonymous, t, ?_, ⟨hr.listed, hr.session⟩, by simp [freeChannel]⟩
  simp only [processMSG, hc, hfree, processSecured, htoken, if_neg hne, if_true, hrequest,
    processRequest, hactivate, hsend, Option.bind_eq_bind, Option.bind_some, Option.pure_def]

/-! ## Exactness -/

/-- A job without messages. -/
def Job.isSilent : Job → Bool
  | .binaryMessage _ _ => false
  | _ => true

theorem safeRun_of_silent {later : List Job} (h : ∀ job ∈ later, job.isSilent = true)
    (s : Server) : SafeRun s later := by
  induction later generalizing s with
  | nil => trivial
  | cons job later ih =>
      refine ⟨?_, fun s' _ => ih (fun job' hjob' => h job' (List.mem_cons_of_mem job hjob')) s'⟩
      cases job with
      | binaryMessage c ms => exact absurd (h _ List.mem_cons_self) (by simp [Job.isSilent])
      | accept | detachConnection | cleanup => trivial

/-- A job of one message. -/
theorem processJob_message {s s' : Server} {c : Address} {m : Message} (goesOn : Bool)
    (hc : s.connectionAt c ≠ none) (h : processMessage s c m = some (goesOn, s')) :
    processJob s (.binaryMessage c [m]) = some s' := by
  simp only [processJob, if_neg hc, processBinaryMessage, h, Option.bind_eq_bind, Option.bind_some,
    Option.pure_def]
  cases goesOn <;> rfl

/-- A message that dangles is processed, and what it leaves behind is used later. -/
theorem dangles_faults {s : Server} (hs : Consistent s) {c : Address} (h : Ready s c) {m : Message}
    (hdangles : Dangles s c m) :
    ∃ s', processJob s (.binaryMessage c [m]) = some s' ∧ ¬ Consistent s' ∧
      ∃ later, (∀ job ∈ later, job.isSilent = true) ∧ run s' later = none := by
  cases hdangles with
  | @reissued m request connection hc hstate hchannel hrequest hgrants =>
      rcases Option.ne_none_iff_exists'.1 hchannel with ⟨a, hbound⟩
      rcases hs.channelAt_of_bound ((bound_eq hc).trans hbound) with ⟨_, channel, ha, _⟩
      rcases reissued_orphan hs hc hstate hbound ha hrequest hgrants with
        ⟨s', hs', horphan, hc'⟩
      refine ⟨s', processJob_message true h.connection ?_, horphan.not_consistent,
        [.detachConnection c, .cleanup (SecureChannelManager.timeout channel + 1)], ?_,
        horphan.faults hc' (lt_add_one _)⟩
      · simp [processMessage, hs']
      · simp [Job.isSilent]
  | @left m request out tokenId connection x hc hstate hchannel htoken hne hrequest hactivates =>
      rcases processMSG_stray hs h ((bound_eq hc).trans hchannel) htoken hne hrequest hactivates
        with ⟨s', t, hs', hstray⟩
      refine ⟨s', processJob_message true h.connection ?_, hstray.not_consistent,
        [.cleanup (t + 1)], ?_, hstray.faults (lt_add_one t)⟩
      · simp [processMessage, hc, hstate, hs']
      · simp [Job.isSilent]

/-- **Which messages corrupt the server.**  After any safe run, a message is processed without the use
of a freed object.  It leaves the graph inconsistent exactly when it dangles, and exactly then losing
connections and letting time pass, without another message, can make the server use a freed object. -/
theorem corrupts_iff_dangles (config : ServerConfig) (jobs : List Job)
    (hsafe : SafeRun (Server.init config) jobs) {s : Server}
    (hrun : run (Server.init config) jobs = some s) {c : Address} (hc : s.connectionAt c ≠ none)
    (m : Message) :
    ∃ s', processJob s (.binaryMessage c [m]) = some s' ∧ (¬ Consistent s' ↔ Dangles s c m) ∧
      ((∃ later, (∀ job ∈ later, job.isSilent = true) ∧ run s' later = none) ↔
        Dangles s c m) := by
  rcases run_follows (.init config) rfl hsafe with ⟨r, hrun', hsteps, hquiet⟩
  rw [hrun] at hrun'
  cases hrun'
  have hs := steps_consistent hsteps (.init config)
  by_cases hdangles : Dangles s c m
  · rcases dangles_faults hs ⟨hc, hquiet⟩ hdangles with ⟨s', hjob, hbroken, hfaults⟩
    exact ⟨s', hjob, iff_of_true hbroken hdangles, iff_of_true hfaults hdangles⟩
  · have hmessages : SafeJob s (.binaryMessage c [m]) := fun _ => ⟨hdangles, fun _ _ => trivial⟩
    rcases processJob_follows hs hquiet hmessages with ⟨s', hjob, hsteps', hquiet'⟩
    have hs' := steps_consistent hsteps' hs
    refine ⟨s', hjob, iff_of_false (not_not_intro hs') hdangles, iff_of_false ?_ hdangles⟩
    rintro ⟨later, hsilent, hfault⟩
    rcases run_follows hs' hquiet' (safeRun_of_silent hsilent s') with ⟨t, ht, _⟩
    have ht' : run s' later = some t := ht
    rw [hfault] at ht'
    cases ht'

/-- The first client asks for a second channel. -/
def secondChannel : Message :=
  .openSecureChannel ⟨some ⟨0, 1, 600000⟩, some 8, 2000, delivered⟩

theorem corrupts_iff_dangles_secondChannel :
    ∃ s, run (Server.init anonymousOnly) [.accept 0, .binaryMessage 0 loginMessages] = some s ∧
      Dangles s 0 secondChannel ∧ ∃ s', processJob s (.binaryMessage 0 [secondChannel]) = some s' ∧
        (¬ Consistent s' ↔ Dangles s 0 secondChannel) ∧
          ((∃ later, (∀ job ∈ later, job.isSilent = true) ∧ run s' later = none) ↔
            Dangles s 0 secondChannel) := by
  have hrun : ∃ s, run (Server.init anonymousOnly) [.accept 0, .binaryMessage 0 loginMessages] =
      some s ∧ s.connectionAt 0 ≠ none ∧ Dangles s 0 secondChannel := by
    decide +kernel
  rcases hrun with ⟨s, hrun, hc, hdangles⟩
  exact ⟨s, hrun, hdangles, corrupts_iff_dangles anonymousOnly
    [.accept 0, .binaryMessage 0 loginMessages] (by decide +kernel) hrun hc secondChannel⟩

end Channels

end ForteOpcUa
