import ForteOpcUa.Channels.Runs

/-!
# Identifiers — channels have ids of their own

A message names the channel to close by its id.  As long as the counter of ids has not wrapped, no
two channels have the same, so that clients do not close each other's channels:

- `run_numbered` : the ids of the channels are different,
- `isolation`    : messages of one connection leave the others and their channels alone.
-/

namespace ForteOpcUa

namespace Channels

open Interaction Pointers Server

/-- A channel is issued. -/
def Event.isIssued : Event → Bool
  | .issued _ _ => true
  | _ => false

/-- How many channels were issued. -/
def Server.issuedCount (s : Server) : ℕ :=
  s.events.countP Event.isIssued

/-- The security tokens of a channel of the manager. -/
def Server.tokensAt (s : Server) (a : ChannelAddress) :
    Option (ChannelSecurityToken × ChannelSecurityToken) :=
  if a = .anonymous then none
  else (s.channelAt a).map fun channel => (channel.securityToken, channel.nextSecurityToken)

theorem tokensAt_eq {s : Server} {a : ChannelAddress} {channel : SecureChannel}
    (ha : a ≠ .anonymous) (h : s.channelAt a = some channel) :
    s.tokensAt a = some (channel.securityToken, channel.nextSecurityToken) := by
  rw [tokensAt, if_neg ha, h]
  rfl

theorem channelAt_of_tokensAt {s : Server} {a : ChannelAddress}
    {tokens : ChannelSecurityToken × ChannelSecurityToken} (h : s.tokensAt a = some tokens) :
    a ≠ .anonymous ∧ ∃ channel, s.channelAt a = some channel ∧
      channel.securityToken = tokens.1 ∧ channel.nextSecurityToken = tokens.2 := by
  unfold tokensAt at h
  by_cases ha : a = .anonymous
  · rw [if_pos ha] at h
    cases h
  · rw [if_neg ha] at h
    rcases Option.map_eq_some_iff.1 h with ⟨channel, hchannel, htokens⟩
    subst htokens
    exact ⟨ha, channel, hchannel, rfl, rfl⟩

/-- The channel manager counts, and no id was given twice. -/
structure Numbered (s : Server) : Prop where
  last : s.secureChannelManager.lastChannelId = UInt32.ofNat (1 + s.issuedCount)
  below : 1 + s.issuedCount < 2 ^ 32 → ∀ a tokens, s.tokensAt a = some tokens →
    tokens.1.channelId.toNat < 1 + s.issuedCount
  distinct : 1 + s.issuedCount < 2 ^ 32 → ∀ a b tokens tokens', s.tokensAt a = some tokens →
    s.tokensAt b = some tokens' → tokens.1.channelId = tokens'.1.channelId → a = b
  next : ∀ a tokens, s.tokensAt a = some tokens → tokens.2.tokenId ≠ 0 →
    tokens.2.channelId = tokens.1.channelId

namespace Numbered

variable {s s' : Server}

theorem init (config : ServerConfig) : Numbered (Server.init config) where
  last := rfl
  below := by simp [tokensAt, Server.init]
  distinct := by simp [tokensAt, Server.init]
  next := by simp [tokensAt, Server.init]

/-- No channel is issued, and the tokens of every channel that is left keep their id. -/
theorem keep (h : Numbered s)
    (hlast : s'.secureChannelManager.lastChannelId = s.secureChannelManager.lastChannelId)
    (hcount : s'.issuedCount = s.issuedCount)
    (htokens : ∀ a tokens', s'.tokensAt a = some tokens' → ∃ tokens, s.tokensAt a = some tokens ∧
      tokens'.1.channelId = tokens.1.channelId ∧
        (tokens'.2.tokenId ≠ 0 → tokens'.2.channelId = tokens.1.channelId)) : Numbered s' where
  last := by rw [hlast, hcount, h.last]
  below := by
    rw [hcount]
    intro hsmall a tokens' ha
    rcases htokens a tokens' ha with ⟨tokens, ha', hid, _⟩
    rw [hid]
    exact h.below hsmall a tokens ha'
  distinct := by
    rw [hcount]
    intro hsmall a b tokens' tokens'' ha hb heq
    rcases htokens a tokens' ha with ⟨tokens₁, ha', hid₁, _⟩
    rcases htokens b tokens'' hb with ⟨tokens₂, hb', hid₂, _⟩
    exact h.distinct hsmall a b tokens₁ tokens₂ ha' hb' (hid₁.symm.trans (heq.trans hid₂))
  next := by
    intro a tokens' ha hne
    rcases htokens a tokens' ha with ⟨tokens, _, hid, hnext⟩
    rw [hid]
    exact hnext hne

/-- No channel is issued, and no token changes. -/
theorem same (h : Numbered s)
    (hlast : s'.secureChannelManager.lastChannelId = s.secureChannelManager.lastChannelId)
    (hcount : s'.issuedCount = s.issuedCount)
    (htokens : ∀ a tokens, s'.tokensAt a = some tokens → s.tokensAt a = some tokens) :
    Numbered s' :=
  h.keep hlast hcount fun a tokens ha =>
    ⟨tokens, htokens a tokens ha, rfl, h.next a tokens (htokens a tokens ha)⟩

end Numbered

/-- One more event. -/
theorem issuedCount_log (s : Server) (e : Event) :
    (s.log e).issuedCount = s.issuedCount + if e.isIssued then 1 else 0 := by
  simp [issuedCount, Server.log]

theorem tokensAt_setChannel {s : Server} {a b : ChannelAddress} {channel : SecureChannel}
    (ha : a ≠ .anonymous) :
    (s.setChannel a channel).tokensAt b =
      if b = a then some (channel.securityToken, channel.nextSecurityToken) else s.tokensAt b := by
  by_cases hb : b = a
  · subst hb
    simp [tokensAt, ha, Server.setChannel]
  · simp [tokensAt, hb, Server.setChannel]

theorem tokensAt_setAnonymous {s : Server} {b : ChannelAddress} {channel : SecureChannel} :
    (s.setChannel .anonymous channel).tokensAt b = s.tokensAt b := by
  by_cases hb : b = .anonymous
  · subst hb
    rfl
  · simp [tokensAt, hb, Server.setChannel]

/-- A channel is written with its tokens as they are. -/
theorem tokensAt_rewrite {s : Server} {a : ChannelAddress} {channel : SecureChannel}
    (channel' : SecureChannel) (ha : s.channelAt a = some channel) (htoken : channel'.securityToken = channel.securityToken)
    (hnext : channel'.nextSecurityToken = channel.nextSecurityToken) (b : ChannelAddress) :
    (s.setChannel a channel').tokensAt b = s.tokensAt b := by
  by_cases hanon : a = .anonymous
  · subst hanon
    exact tokensAt_setAnonymous
  · rw [tokensAt_setChannel hanon]
    by_cases hb : b = a
    · subst hb
      rw [if_pos rfl, htoken, hnext, tokensAt_eq hanon ha]
    · rw [if_neg hb]

/-- Whatever is done to connections and sessions of channels, their tokens stay. -/
theorem tokensAt_map {s s' : Server} {f : SecureChannel → SecureChannel}
    (h : ∀ a, s'.channelAt a = (s.channelAt a).map f)
    (hf : ∀ channel, (f channel).securityToken = channel.securityToken ∧
      (f channel).nextSecurityToken = channel.nextSecurityToken) (a : ChannelAddress) :
    s'.tokensAt a = s.tokensAt a := by
  unfold tokensAt
  rw [h a, Option.map_map]
  by_cases ha : a = .anonymous
  · rw [if_pos ha, if_pos ha]
  · rw [if_neg ha, if_neg ha]
    congr 1
    funext channel
    simp [(hf channel).1, (hf channel).2]

theorem tokensAt_issue {s : Server} {c n : Address} {connection : Connection} {now : DateTime}
    {lifetime : UInt32} (b : ChannelAddress) :
    (s.issue c n connection now lifetime).tokensAt b =
      if b = .entry n then some (⟨s.secureChannelManager.lastChannelId,
        s.secureChannelManager.lastTokenId, now, lifetime⟩, .init) else s.tokensAt b :=
  tokensAt_setChannel (by simp)

theorem tokensAt_unlisted (s : Server) (x : Address) (b : ChannelAddress) :
    (s.unlisted x).tokensAt b = s.tokensAt b :=
  tokensAt_map (f := fun channel => { channel with sessions := channel.sessions.erase x })
    (fun _ => rfl) (fun _ => ⟨rfl, rfl⟩) b

theorem tokensAt_withoutConnection (s : Server) (c : Address) (b : ChannelAddress) :
    (s.withoutConnection c).tokensAt b = s.tokensAt b := by
  refine tokensAt_map (fun _ => rfl) ?_ b
  intro channel
  split
  · exact ⟨rfl, rfl⟩
  · exact ⟨rfl, rfl⟩

theorem tokensAt_withoutChannel {s : Server} {a b : ChannelAddress}
    {tokens : ChannelSecurityToken × ChannelSecurityToken}
    (h : (s.withoutChannel a).tokensAt b = some tokens) : s.tokensAt b = some tokens := by
  rcases channelAt_of_tokensAt h with ⟨hanon, channel, hchannel, htoken, hnext⟩
  rw [tokensAt_eq hanon (of_update_none hchannel).2, htoken, hnext]

/-- The counter goes on. -/
theorem ofNat_succ (n : ℕ) : UInt32.ofNat (1 + n) + 1 = UInt32.ofNat (1 + (n + 1)) := by
  rw [← Nat.add_assoc, UInt32.ofNat_add (1 + n) 1]
  rfl

theorem toNat_ofNat {n : ℕ} (h : n < 2 ^ 32) : (UInt32.ofNat n).toNat = n := by
  rw [UInt32.toNat_ofNat']
  exact Nat.mod_eq_of_lt h

/-- An id that was not given yet. -/
theorem Numbered.issue {s : Server} (h : Numbered s) (c n : Address) (connection : Connection)
    (now : DateTime) (lifetime : UInt32) : Numbered (s.issue c n connection now lifetime) := by
  have hcount : (s.issue c n connection now lifetime).issuedCount = s.issuedCount + 1 := by
    unfold Server.issue
    rw [issuedCount_log]
    rfl
  have hnew : 1 + (s.issuedCount + 1) < 2 ^ 32 →
      s.secureChannelManager.lastChannelId.toNat = 1 + s.issuedCount := by
    intro hsmall
    rw [h.last]
    exact toNat_ofNat (by omega)
  constructor
  · have hlast : (s.issue c n connection now lifetime).secureChannelManager.lastChannelId =
        s.secureChannelManager.lastChannelId + 1 := rfl
    rw [hlast, hcount, h.last, ofNat_succ]
  · rw [hcount]
    intro hsmall a tokens ha
    rw [tokensAt_issue] at ha
    by_cases han : a = .entry n
    · rw [if_pos han] at ha
      cases ha
      dsimp only
      rw [hnew hsmall]
      omega
    · rw [if_neg han] at ha
      have hlt := h.below (by omega) a tokens ha
      omega
  · rw [hcount]
    intro hsmall a b tokens tokens' ha hb heq
    have hold : ∀ {a tokens}, s.tokensAt a = some tokens →
        tokens.1.channelId ≠ s.secureChannelManager.lastChannelId := by
      intro a tokens ha heq
      have hlt := h.below (by omega) a tokens ha
      rw [heq, hnew hsmall] at hlt
      omega
    rw [tokensAt_issue] at ha hb
    by_cases han : a = .entry n
    · by_cases hbn : b = .entry n
      · rw [han, hbn]
      · rw [if_pos han] at ha
        rw [if_neg hbn] at hb
        cases ha
        exact absurd heq.symm (hold hb)
    · rw [if_neg han] at ha
      by_cases hbn : b = .entry n
      · rw [if_pos hbn] at hb
        cases hb
        exact absurd heq (hold ha)
      · rw [if_neg hbn] at hb
        exact h.distinct (by omega) a b tokens tokens' ha hb heq
  · intro a tokens ha hne
    rw [tokensAt_issue] at ha
    by_cases han : a = .entry n
    · rw [if_pos han] at ha
      cases ha
      exact absurd rfl hne
    · rw [if_neg han] at ha
      exact h.next a tokens ha hne

/-- **The changes give no id twice.** -/
theorem Update.numbered {P : Address → Prop} {s s' : Server} (h : Update P s s')
    (hs : Numbered s) : Numbered s' := by
  cases h with
  | accepted _ => exact hs.same rfl rfl fun _ _ ha => ha
  | stateChanged _ _ _ => exact hs.same rfl rfl fun _ _ ha => ha
  | lost _ _ =>
      exact hs.same rfl rfl fun b _ hb => (tokensAt_withoutConnection s _ b).symm.trans hb
  | entered _ => exact hs.same rfl rfl fun _ _ hb => tokensAt_setAnonymous.symm.trans hb
  | left =>
      refine hs.same rfl rfl fun b tokens hb => ?_
      rcases channelAt_of_tokensAt hb with ⟨hanon, _⟩
      simpa [tokensAt, hanon, Server.freeChannel] using hb
  | @counted a channel _ ha =>
      exact hs.same rfl rfl fun b _ hb =>
        (tokensAt_rewrite channel.count ha rfl rfl b).symm.trans hb
  | @sent a channel _ ha _ =>
      exact hs.same rfl (by rw [issuedCount_log]; rfl) fun b _ hb =>
        (tokensAt_rewrite channel.count ha rfl rfl b).symm.trans hb
  | issued _ now lifetime _ _ _ _ => exact hs.issue _ _ _ now lifetime
  | @renewed c a channel _ now lifetime hpeer ha _ =>
      have hanon := (channelAt_of_peer hpeer).1
      refine hs.keep rfl (by unfold Server.renew; rw [issuedCount_log]; rfl) fun b tokens hb => ?_
      have hb' := (tokensAt_setChannel hanon).symm.trans hb
      by_cases hba : b = a
      · subst hba
        rw [if_pos rfl] at hb'
        cases hb'
        exact ⟨_, tokensAt_eq hanon ha, rfl, fun _ => rfl⟩
      · rw [if_neg hba] at hb'
        exact ⟨tokens, hb', rfl, hs.next b tokens hb'⟩
  | @revolved a channel _ ha hnext =>
      refine hs.keep rfl rfl fun b tokens hb => ?_
      by_cases hanon : a = .anonymous
      · subst hanon
        have hb' := tokensAt_setAnonymous.symm.trans hb
        exact ⟨tokens, hb', rfl, hs.next b tokens hb'⟩
      · have hb' := (tokensAt_setChannel hanon).symm.trans hb
        by_cases hba : b = a
        · subst hba
          rw [if_pos rfl] at hb'
          cases hb'
          have htokens := tokensAt_eq hanon ha
          exact ⟨_, htokens, hs.next b _ htokens hnext, fun hne => absurd rfl hne⟩
        · rw [if_neg hba] at hb'
          exact ⟨tokens, hb', rfl, hs.next b tokens hb'⟩
  | removed _ _ =>
      exact hs.same rfl (issuedCount_log s _) fun _ _ hb => tokensAt_withoutChannel hb
  | created session _ _ _ =>
      exact hs.same rfl (by unfold Server.create; rw [issuedCount_log]; rfl) fun _ _ hb => hb
  | forgotten _ =>
      exact hs.same rfl (issuedCount_log s _) fun b _ hb =>
        (tokensAt_unlisted s _ b).symm.trans hb
  | detached _ =>
      exact hs.same rfl rfl fun b _ hb => (tokensAt_unlisted s _ b).symm.trans hb
  | @activated x a session channel _ _ _ _ _ ha _ _ =>
      exact hs.same rfl (by rw [issuedCount_log]; rfl) fun b _ hb =>
        (tokensAt_rewrite { channel with sessions := x :: channel.sessions } ha rfl rfl b).symm.trans
          hb
  | confirmed _ _ _ _ => exact hs.same rfl (by rw [issuedCount_log]; rfl) fun _ _ hb => hb
  | served _ _ _ _ _ => exact hs.same rfl (by rw [issuedCount_log]; rfl) fun _ _ hb => hb

/-- What was done stays done. -/
theorem Update.events_prefix {P : Address → Prop} {s s' : Server} (h : Update P s s') :
    s.events <+: s'.events := by
  cases h with
  | accepted | stateChanged | lost | entered | left | counted | revolved | detached =>
      exact List.prefix_refl _
  | sent | issued | renewed | removed | created | forgotten | activated | confirmed | served =>
      exact List.prefix_append _ _

theorem issuedCount_le {P : Address → Prop} {s s' : Server}
    (h : Relation.ReflTransGen (Update P) s s') : s.issuedCount ≤ s'.issuedCount := by
  induction h with
  | refl => exact Nat.le_refl _
  | tail _ hlast ih => exact Nat.le_trans ih (hlast.events_prefix.sublist.countP_le)

theorem steps_numbered {P : Address → Prop} {s s' : Server}
    (h : Relation.ReflTransGen (Update P) s s') (hs : Numbered s) : Numbered s' :=
  invariant_of_steps (fun _ _ hstep => hstep.numbered) h hs

/-! ## Isolation -/

/-- A connection and its channel are as they were, but for sessions that left the channel. -/
structure Undisturbed (s s' : Server) (d : Address) : Prop where
  connection : s'.connectionAt d = s.connectionAt d
  channel : ∀ a channel, s.bound d = some a → s.channelAt a = some channel →
    ∃ sessions, s'.channelAt a = some { channel with sessions := sessions } ∧
      sessions.Sublist channel.sessions

namespace Undisturbed

variable {s s' s'' : Server} {d : Address}

theorem refl (s : Server) (d : Address) : Undisturbed s s d :=
  ⟨rfl, fun _ channel _ ha => ⟨channel.sessions, ha, List.Sublist.refl _⟩⟩

theorem trans (h : Undisturbed s s' d) (h' : Undisturbed s' s'' d) : Undisturbed s s'' d := by
  refine ⟨h'.connection.trans h.connection, ?_⟩
  intro a channel hd ha
  have hd' : s'.bound d = some a := by
    rw [← hd, bound, bound, h.connection]
  rcases h.channel a channel hd ha with ⟨sessions, ha', hsub⟩
  rcases h'.channel a _ hd' ha' with ⟨sessions', ha'', hsub'⟩
  exact ⟨sessions', ha'', hsub'.trans hsub⟩

/-- Nothing happens to the channel. -/
theorem of_same (hconnection : s'.connectionAt d = s.connectionAt d)
    (hchannel : ∀ a, s.bound d = some a → s'.channelAt a = s.channelAt a) :
    Undisturbed s s' d :=
  ⟨hconnection, fun a channel hd ha => ⟨channel.sessions, (hchannel a hd).trans ha,
    List.Sublist.refl _⟩⟩

/-- Something happens to another channel. -/
theorem of_setChannel {a : ChannelAddress} (hconnection : s'.connectionAt d = s.connectionAt d)
    {channel : Option SecureChannel}
    (hchannel : s'.channelAt = Function.update s.channelAt a channel) (hne : s.bound d ≠ some a) :
    Undisturbed s s' d := by
  refine of_same hconnection ?_
  intro b hb
  have hba : b ≠ a := fun heq => hne (heq ▸ hb)
  rw [hchannel, Function.update_of_ne hba]

/-- A session leaves its channel. -/
theorem of_unlisted (hconnection : s'.connectionAt d = s.connectionAt d) {x : Address}
    (hchannel : s'.channelAt = (s.unlisted x).channelAt) : Undisturbed s s' d := by
  refine ⟨hconnection, ?_⟩
  intro a channel _ ha
  refine ⟨channel.sessions.erase x, ?_, List.erase_sublist⟩
  rw [hchannel]
  simp [Server.unlisted, ha]

end Undisturbed

/-- **The changes for one connection leave the others alone.** -/
theorem Update.undisturbed {c d : Address} {s s' : Server} (h : Update (· = c) s s')
    (hs : Consistent s) (hd : s.connectionAt d ≠ none) (hne : d ≠ c) : Undisturbed s s' d := by
  have hother : ∀ {a}, (∀ e, s.peer a = some e → e = c) → s.bound d ≠ some a := by
    intro a ha hb
    exact hne (ha d (hs.peer_iff.2 hb))
  have hanon : s.bound d ≠ some .anonymous := fun hb => (hs.channelAt_of_bound hb).1 rfl
  cases h with
  | @accepted c' hc =>
      have hdc : d ≠ c' := fun heq => hd (heq ▸ hc)
      exact .of_same (by simp [Server.setConnection, hdc]) fun _ _ => rfl
  | stateChanged _ hP _ =>
      subst hP
      exact .of_same (by simp [Server.setConnection, hne]) fun _ _ => rfl
  | @lost c' hP _ =>
      subst hP
      refine .of_same (by simp [Server.withoutConnection, hne]) ?_
      intro a hb
      rcases hs.channelAt_of_bound hb with ⟨_, channel, ha, hpeer⟩
      have hdc : channel.connection ≠ some c' := by
        rw [hpeer]
        exact fun heq => hne (Option.some.inj heq)
      simp [Server.withoutConnection, ha, hdc]
  | entered _ => exact .of_setChannel rfl rfl hanon
  | left => exact .of_setChannel rfl rfl hanon
  | counted hP _ => exact .of_setChannel rfl rfl (hother hP)
  | sent hP _ _ => exact .of_setChannel rfl rfl (hother hP)
  | @issued c' n connection hP now lifetime _ _ hn _ =>
      subst hP
      refine .of_setChannel ?_ rfl ?_
      · simp [Server.issue, Server.log, Server.setConnection, Server.setChannel, hne]
      · intro hb
        rcases hs.channelAt_of_bound hb with ⟨_, channel, ha, _⟩
        rw [hn] at ha
        cases ha
  | renewed hP _ _ hpeer _ _ =>
      subst hP
      refine .of_setChannel rfl rfl (hother ?_)
      intro e he
      rw [hpeer] at he
      exact (Option.some.inj he).symm
  | revolved hP _ _ => exact .of_setChannel rfl rfl (hother hP)
  | @removed a hP _ =>
      refine .of_setChannel ?_ rfl (hother hP)
      rcases Option.ne_none_iff_exists'.1 hd with ⟨connection, hconnection⟩
      have hb := hother hP
      rw [bound_eq hconnection] at hb
      simp [Server.withoutChannel, hconnection, hb]
  | created _ _ _ _ => exact .of_same rfl fun _ _ => rfl
  | forgotten _ => exact .of_unlisted rfl rfl
  | detached _ => exact .of_unlisted rfl rfl
  | activated hP _ _ _ _ _ _ => exact .of_setChannel rfl rfl (hother hP)
  | confirmed _ _ _ _ => exact .of_same rfl fun _ _ => rfl
  | served _ _ _ _ _ => exact .of_same rfl fun _ _ => rfl

/-- Rows of changes for one connection. -/
theorem steps_undisturbed {c d : Address} {s s' : Server}
    (h : Relation.ReflTransGen (Update (· = c)) s s') (hs : Consistent s)
    (hd : s.connectionAt d ≠ none) (hne : d ≠ c) : Undisturbed s s' d := by
  induction h with
  | refl => exact .refl s d
  | tail hsteps hlast ih =>
      refine ih.trans (hlast.undisturbed (steps_consistent hsteps hs) ?_ hne)
      rw [ih.connection]
      exact hd

/-- With different ids, the id of a channel is that of no one else's. -/
theorem Numbered.owned {s : Server} (h : Numbered s) (hs : Consistent s)
    (hquiet : s.channelAt .anonymous = none) (hsmall : 1 + s.issuedCount < 2 ^ 32) (c : Address) :
    Owned (· = c) s c := by
  intro a channel hb ha b channel' hchannel' hid d hd
  have hanon := (hs.channelAt_of_bound hb).1
  have hanon' : b ≠ .anonymous := by
    rintro rfl
    rw [hquiet] at hchannel'
    cases hchannel'
  have heq := h.distinct hsmall b a _ _ (tokensAt_eq hanon' hchannel') (tokensAt_eq hanon ha) hid
  subst heq
  rw [hs.peer_iff.2 hb] at hd
  exact (Option.some.inj hd).symm

theorem processBinaryMessage_undisturbed {s s' : Server} (hs : Consistent s) (hn : Numbered s)
    {c d : Address} (h : Ready s c) {ms : List Message} (hsafe : SafeMessages s c ms)
    (hrun : processBinaryMessage s c ms = some s') (hsmall : 1 + s'.issuedCount < 2 ^ 32)
    (hd : s.connectionAt d ≠ none) (hne : d ≠ c) : Undisturbed s s' d := by
  induction ms generalizing s with
  | nil =>
      cases hrun
      exact .refl s' d
  | cons m ms ih =>
      -- The ids are few throughout, since they are few in the end.
      have hfew : 1 + s.issuedCount < 2 ^ 32 := by
        rcases processBinaryMessage_follows hs h hsafe with ⟨t, ht, hsteps, _⟩
        rw [hrun] at ht
        cases ht
        have hle := issuedCount_le hsteps
        dsimp only [id] at hle
        omega
      rcases processMessage_follows (P := (· = c)) hs h rfl (hn.owned hs h.quiet hfew c) hsafe.1 with
        ⟨⟨goesOn, t⟩, hm, hsteps, hready⟩
      have hfirst := steps_undisturbed hsteps hs hd hne
      simp only [processBinaryMessage, hm, Option.bind_eq_bind, Option.bind_some] at hrun
      cases goesOn with
      | false =>
          rw [if_neg (by simp)] at hrun
          cases hrun
          exact hfirst
      | true =>
          rw [if_pos rfl] at hrun
          refine hfirst.trans (ih (steps_consistent hsteps hs) (steps_numbered hsteps hn) hready
            (hsafe.2 t hm) hrun ?_)
          rw [hfirst.connection]
          exact hd

/-- In a safe run the ids of the channels are different. -/
theorem run_numbered {config : ServerConfig} {jobs : List Job}
    (hsafe : SafeRun (Server.init config) jobs) {s : Server}
    (hrun : run (Server.init config) jobs = some s) :
    Consistent s ∧ Numbered s ∧ s.channelAt .anonymous = none := by
  rcases run_follows (.init config) rfl hsafe with ⟨s', hrun', hsteps, hquiet⟩
  rw [hrun] at hrun'
  cases hrun'
  exact ⟨steps_consistent hsteps (.init config), steps_numbered hsteps (.init config), hquiet⟩

/-- **Isolation.**  As long as the counter of channel ids has not overflowed, the messages of one
connection leave every other connection as it is, and its channel too: not closed, with the same
tokens and sequence number.  The channel may lose a session only. -/
theorem isolation (config : ServerConfig) (jobs : List Job)
    (hsafe : SafeRun (Server.init config) jobs) {s : Server}
    (hrun : run (Server.init config) jobs = some s) {c : Address} {ms : List Message}
    (hms : SafeJob s (.binaryMessage c ms)) {s' : Server}
    (hjob : processJob s (.binaryMessage c ms) = some s') (hfew : 1 + s'.issuedCount < 2 ^ 31)
    {d : Address} (hd : s.connectionAt d ≠ none) (hne : d ≠ c) : Undisturbed s s' d := by
  rcases run_numbered hsafe hrun with ⟨hs, hn, hquiet⟩
  dsimp only [processJob] at hjob
  by_cases hc : s.connectionAt c = none
  · rw [if_pos hc] at hjob
    cases hjob
    exact .refl s d
  · rw [if_neg hc] at hjob
    exact processBinaryMessage_undisturbed hs hn ⟨hc, hquiet⟩ (hms hc) hjob (by omega) hd hne

theorem isolation_greeting : ∃ s, run (Server.init anonymousOnly)
      [.accept 0, .binaryMessage 0 loginMessages, .accept 1] = some s ∧
    ∃ s', processJob s (.binaryMessage 1 (greeting 6)) = some s' ∧ Undisturbed s s' 0 := by
  have hrun : ∃ s, run (Server.init anonymousOnly)
        [.accept 0, .binaryMessage 0 loginMessages, .accept 1] = some s ∧
      ((SafeJob s (.binaryMessage 1 (greeting 6)) ∧ s.connectionAt 0 ≠ none) ∧
        ∃ s', processJob s (.binaryMessage 1 (greeting 6)) = some s' ∧
          1 + s'.issuedCount < 2 ^ 31) := by
    decide +kernel
  rcases hrun with ⟨s, hrun, ⟨hsafe, hd⟩, s', hjob, hfew⟩
  exact ⟨s, hrun, s', hjob, isolation anonymousOnly
    [.accept 0, .binaryMessage 0 loginMessages, .accept 1] (by decide +kernel) hrun hsafe hjob hfew
    hd (by decide)⟩

end Channels

end ForteOpcUa
