import ForteOpcUa.Channels.Decisions

/-!
# Runs — whole runs of the server

- `SafeRun`           : no message of the run leaves a dangling pointer,
- `processJob_follows` : a job makes changes of the graph only,
- `run_consistent`     : in a safe run no freed object is used, and the graph stays consistent.
-/

namespace ForteOpcUa

namespace Channels

open Interaction Pointers Server

/-- No message dangles, as far as the loop gets. -/
def SafeMessages (s : Server) (c : Address) : List Message → Prop
  | [] => True
  | m :: ms => ¬ Dangles s c m ∧
      ∀ s', processMessage s c m = some (true, s') → SafeMessages s' c ms

/-- A job none of whose messages dangles. -/
def SafeJob (s : Server) : Job → Prop
  | .binaryMessage c ms => s.connectionAt c ≠ none → SafeMessages s c ms
  | _ => True

/-- A run none of whose messages dangles. -/
def SafeRun (s : Server) : List Job → Prop
  | [] => True
  | job :: jobs => SafeJob s job ∧ ∀ s', processJob s job = some s' → SafeRun s' jobs

/-- What holds of the state behind a message, if the loop goes on. -/
instance decidableGoesOn (o : Option (Bool × Server)) (P : Server → Prop) [DecidablePred P] :
    Decidable (∀ s', o = some (true, s') → P s') :=
  match o with
  | none => isTrue (by simp)
  | some (false, _) => isTrue (by simp)
  | some (true, s') => decidable_of_iff (P s') (by simp)

instance decidableSafeMessages (s : Server) (c : Address) :
    (ms : List Message) → Decidable (SafeMessages s c ms)
  | [] => .isTrue trivial
  | m :: ms =>
      have : DecidablePred fun s' => SafeMessages s' c ms := fun s' => decidableSafeMessages s' c ms
      inferInstanceAs (Decidable (¬ Dangles s c m ∧
        ∀ s', processMessage s c m = some (true, s') → SafeMessages s' c ms))

instance decidableSafeJob (s : Server) : (job : Job) → Decidable (SafeJob s job)
  | .accept _ => .isTrue trivial
  | .binaryMessage c ms =>
      inferInstanceAs (Decidable (s.connectionAt c ≠ none → SafeMessages s c ms))
  | .detachConnection _ => .isTrue trivial
  | .cleanup _ => .isTrue trivial

instance decidableSafeRun (s : Server) : (jobs : List Job) → Decidable (SafeRun s jobs)
  | [] => .isTrue trivial
  | job :: jobs =>
      have : DecidablePred fun s' => SafeRun s' jobs := fun s' => decidableSafeRun s' jobs
      inferInstanceAs (Decidable (SafeJob s job ∧
        ∀ s', processJob s job = some s' → SafeRun s' jobs))

/-- Everybody's connections and channels. -/
def anybody : Address → Prop :=
  fun _ => True

variable {s : Server} {c : Address}

theorem processBinaryMessage_follows (hs : Consistent s) (h : Ready s c) {ms : List Message}
    (hsafe : SafeMessages s c ms) :
    Follows (Update anybody) s id (processBinaryMessage s c ms) fun r => Ready r c := by
  induction ms generalizing s with
  | nil => exact .pure rfl h
  | cons m ms ih =>
      rcases processMessage_follows (P := anybody) hs h trivial
        (fun _ _ _ _ _ _ _ _ _ _ => trivial) hsafe.1 with ⟨⟨goesOn, s'⟩, hm, hsteps, hready⟩
      have hs' := steps_consistent hsteps hs
      simp only [processBinaryMessage, hm, Option.bind_eq_bind, Option.bind_some]
      cases goesOn with
      | false =>
          rw [if_neg (by simp)]
          exact ⟨s', rfl, hsteps, hready⟩
      | true =>
          rw [if_pos rfl]
          rcases ih hs' hready (hsafe.2 s' hm) with ⟨t, ht, hsteps', hready'⟩
          exact ⟨t, ht, hsteps.trans hsteps', hready'⟩

/-! ## The recurring cleanup -/

theorem cleanupSessions_follows (hs : Consistent s) (hquiet : s.channelAt .anonymous = none)
    (now : DateTime) {xs : List Address} (hxs : xs.Nodup) (hlive : ∀ x ∈ xs, s.sessionAt x ≠ none) :
    Follows (Update anybody) s id (SessionManager.cleanupEntries s now xs)
      fun r => r.channelAt .anonymous = none := by
  induction xs generalizing s with
  | nil => exact .pure rfl hquiet
  | cons x xs ih =>
      have hx := hlive x List.mem_cons_self
      have hnodup := List.nodup_cons.1 hxs
      rcases Option.ne_none_iff_exists'.1 hx with ⟨session, hsession⟩
      simp only [SessionManager.cleanupEntries, hsession, Option.bind_eq_bind, Option.bind_some]
      by_cases htimeout : session.validTill < now
      · rw [if_pos htimeout, removeSession_eq hs hx]
        refine .head (.forgotten hx) (ih (hs.withoutSession hx) ?_ hnodup.2 ?_)
        · simp [Server.withoutSession, Server.unlisted, hquiet]
        · intro y hy
          have hne : y ≠ x := fun heq => hnodup.1 (heq ▸ hy)
          simpa [Server.withoutSession, hne] using hlive y (List.mem_cons_of_mem x hy)
      · rw [if_neg htimeout]
        exact ih hs hquiet hnodup.2 fun y hy => hlive y (List.mem_cons_of_mem x hy)

/-- A pending token comes in force. -/
def SecureChannel.refreshed (channel : SecureChannel) : SecureChannel :=
  if 0 < channel.nextSecurityToken.tokenId then channel.revolve else channel

theorem tokenId_ne_zero {tokenId : UInt32} (h : 0 < tokenId) : tokenId ≠ 0 := by
  rintro rfl
  exact absurd h (by decide)

theorem setChannel_self {a : ChannelAddress} {channel : SecureChannel}
    (ha : s.channelAt a = some channel) : s.setChannel a channel = s := by
  unfold setChannel
  rw [← ha, Function.update_eq_self]

/-- A channel that stays gets its pending token, and the loop goes on. -/
theorem cleanupEntries_refreshed {now : DateTime} {a : ChannelAddress}
    {channel : SecureChannel} (ha : s.channelAt a = some channel)
    (hstale : ¬ (SecureChannelManager.timeout channel < now ∨ channel.connection = none))
    (as : List ChannelAddress) :
    SecureChannelManager.cleanupEntries s now (a :: as) =
      SecureChannelManager.cleanupEntries (s.setChannel a channel.refreshed) now as := by
  simp only [SecureChannelManager.cleanupEntries, ha, Option.bind_eq_bind, Option.bind_some]
  rw [if_neg hstale]
  by_cases hnext : 0 < channel.nextSecurityToken.tokenId
  · simp [hnext, SecureChannel.refreshed, SecureChannel.revolveTokens, ha, tokenId_ne_zero hnext]
  · rw [if_neg hnext, SecureChannel.refreshed, if_neg hnext, setChannel_self ha]

/-- At most the tokens revolve. -/
theorem refreshed_steps {a : ChannelAddress} {channel : SecureChannel}
    (ha : s.channelAt a = some channel) :
    Relation.ReflTransGen (Update anybody) s (s.setChannel a channel.refreshed) := by
  unfold SecureChannel.refreshed
  by_cases hnext : 0 < channel.nextSecurityToken.tokenId
  · rw [if_pos hnext]
    exact .single (.revolved (fun _ _ => trivial) ha (tokenId_ne_zero hnext))
  · rw [if_neg hnext, setChannel_self ha]

theorem cleanupChannels_follows (hs : Consistent s) (hquiet : s.channelAt .anonymous = none)
    (now : DateTime) {as : List ChannelAddress} (has : as.Nodup)
    (hmem : ∀ a ∈ as, a ∈ s.secureChannelManager.channels) :
    Follows (Update anybody) s id (SecureChannelManager.cleanupEntries s now as)
      fun r => r.channelAt .anonymous = none := by
  induction as generalizing s with
  | nil => exact .pure rfl hquiet
  | cons a as ih =>
      have ha := hmem a List.mem_cons_self
      have hrest := fun b hb => hmem b (List.mem_cons_of_mem a hb)
      have hnodup := List.nodup_cons.1 has
      rcases (hs.mem_channels a).1 ha with ⟨hanon, hne⟩
      have hne' : (ChannelAddress.anonymous) ≠ a := fun heq => hanon heq.symm
      rcases Option.ne_none_iff_exists'.1 hne with ⟨channel, hchannel⟩
      by_cases htimeout : SecureChannelManager.timeout channel < now ∨ channel.connection = none
      · simp only [SecureChannelManager.cleanupEntries, hchannel, Option.bind_eq_bind,
          Option.bind_some]
        rw [if_pos htimeout, removeChannel_eq hs ha]
        refine .head (.removed (fun _ _ => trivial) ha) (ih (hs.withoutChannel ha) ?_ hnodup.2 ?_)
        · simpa [Server.withoutChannel, hne'] using hquiet
        · intro b hb
          have hba : b ≠ a := fun heq => hnodup.1 (heq ▸ hb)
          exact (List.mem_erase_of_ne hba).2 (hrest b hb)
      · have hsteps := refreshed_steps hchannel
        have hquiet' : (s.setChannel a channel.refreshed).channelAt .anonymous = none := by
          simpa [Server.setChannel, hne'] using hquiet
        rw [cleanupEntries_refreshed hchannel htimeout]
        rcases ih (steps_consistent hsteps hs) hquiet' hnodup.2 hrest with
          ⟨r, hr, hsteps', hquiet''⟩
        exact ⟨r, hr, hsteps.trans hsteps', hquiet''⟩

theorem cleanup_follows (hs : Consistent s) (hquiet : s.channelAt .anonymous = none)
    (now : DateTime) :
    Follows (Update anybody) s id (cleanup s now) fun r => r.channelAt .anonymous = none := by
  unfold cleanup
  refine .bind (cleanupSessions_follows hs hquiet now hs.sessions.nodup
    fun x hx => (hs.mem_sessions x).1 hx) ?_
  intro r hsteps hr
  have hr' := steps_consistent hsteps hs
  exact cleanupChannels_follows hr' hr now hr'.channels.nodup fun _ ha => ha

/-! ## Jobs -/

/-- **A job whose messages leave no pointer behind makes changes of the graph only.** -/
theorem processJob_follows (hs : Consistent s) (hquiet : s.channelAt .anonymous = none) {job : Job}
    (hsafe : SafeJob s job) :
    Follows (Update anybody) s id (processJob s job) fun r => r.channelAt .anonymous = none := by
  cases job with
  | accept c =>
      dsimp only [processJob]
      by_cases hc : s.connectionAt c = none
      · rw [if_pos hc]
        exact .one (.accepted hc) hquiet
      · rw [if_neg hc]
        exact .pure rfl hquiet
  | binaryMessage c ms =>
      dsimp only [processJob]
      by_cases hc : s.connectionAt c = none
      · rw [if_pos hc]
        exact .pure rfl hquiet
      · rw [if_neg hc]
        exact (processBinaryMessage_follows hs ⟨hc, hquiet⟩ (hsafe hc)).mono fun r hr => hr.quiet
  | detachConnection c =>
      dsimp only [processJob]
      by_cases hc : s.connectionAt c = none
      · rw [if_pos hc]
        exact .pure rfl hquiet
      · rcases Option.ne_none_iff_exists'.1 hc with ⟨connection, hconnection⟩
        rw [if_neg hc, detachConnection_eq hs hquiet hconnection]
        refine .one (.lost trivial hquiet) ?_
        simp [Server.withoutConnection, hquiet]
  | cleanup now => exact cleanup_follows hs hquiet now

theorem run_follows (hs : Consistent s) (hquiet : s.channelAt .anonymous = none) {jobs : List Job}
    (hsafe : SafeRun s jobs) :
    Follows (Update anybody) s id (run s jobs) fun r => r.channelAt .anonymous = none := by
  induction jobs generalizing s with
  | nil => exact .pure rfl hquiet
  | cons job jobs ih =>
      rcases processJob_follows hs hquiet hsafe.1 with ⟨s', hjob, hsteps, hquiet'⟩
      rcases ih (steps_consistent hsteps hs) hquiet' (hsafe.2 s' hjob) with
        ⟨t, ht, hsteps', hquiet''⟩
      refine ⟨t, ?_, hsteps.trans hsteps', hquiet''⟩
      rw [run, hjob]
      exact ht

/-- **Safety of runs.**  As long as no message dangles, the server never uses an object that was
freed, whatever the clients send in whatever order; connections and channels point at each other,
sessions and channels too, what is listed is there, and the counters are right. -/
theorem run_consistent (config : ServerConfig) (jobs : List Job)
    (hsafe : SafeRun (Server.init config) jobs) :
    ∃ s, run (Server.init config) jobs = some s ∧ Consistent s ∧
      s.channelAt .anonymous = none := by
  rcases run_follows (.init config) rfl hsafe with ⟨s, hrun, hsteps, hquiet⟩
  exact ⟨s, hrun, steps_consistent hsteps (.init config), hquiet⟩

/-! ### Two clients -/

/-- Anonymous users only. -/
def anonymousOnly : ServerConfig :=
  ⟨true, false, []⟩

/-- All goes well. -/
def delivered : Sending :=
  ⟨.good, .good, true⟩

/-- The authentication token that the random numbers give. -/
def firstToken : NodeId :=
  ⟨1, .guid (Vector.replicate 16 7)⟩

/-- A client says hello and gets a channel at the address. -/
def greeting (n : Address) : List Message :=
  [.hello true delivered, .openSecureChannel ⟨some ⟨0, 1, 600000⟩, some n, 1000, delivered⟩]

/-- A client opens a channel, creates a session, activates it, and reads. -/
def loginMessages : List Message :=
  greeting 5 ++
    [.secured ⟨some 1, .createSession
        ⟨none, .good, some 9, Vector.replicate 16 7, 1000, .good⟩ delivered⟩,
      .secured ⟨some 1, .activateSession
        ⟨firstToken, ⟨some anonymousPolicy, none, none, none⟩, true, fun _ => 2000⟩ delivered⟩,
      .secured ⟨some 1, .service ⟨firstToken, .read, .good, 3000, delivered, delivered⟩⟩]

/-- A second client comes, and the first one is lost. -/
def twoClients : List Job :=
  [.accept 0, .binaryMessage 0 loginMessages, .accept 1, .binaryMessage 1 (greeting 6),
    .detachConnection 0, .cleanup 4000]

theorem run_consistent_twoClients :
    ∃ s, run (Server.init anonymousOnly) twoClients = some s ∧ Consistent s ∧
      s.channelAt .anonymous = none :=
  run_consistent anonymousOnly twoClients (by decide +kernel)

end Channels

end ForteOpcUa
