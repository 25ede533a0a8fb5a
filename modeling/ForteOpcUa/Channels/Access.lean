import Mathlib.Data.List.Induction
import ForteOpcUa.Channels.Runs
import ForteOpcUa.Interaction.Monitor

/-!
# Access — no service without a login

A service runs for a session only over the channel that the session was activated over, by a user
whom the configuration accepts.  `access` is the monitor of that rule: it reads what the server does,
and remembers the channel over which each session may be used.
-/

namespace ForteOpcUa

namespace Channels

open Interaction Pointers Server

/-- The channel over which a session may be used. -/
def access (config : ServerConfig) : Monitor Event (Address → Option ChannelAddress) where
  next := fun q e =>
    match e with
    | .activated x a identity =>
        if authenticate config identity = .good then some (Function.update q x (some a)) else none
    | .served x a _ => if q x = some a then some q else none
    | .closed x => some (Function.update q x none)
    | .removed a => some fun x => if q x = some a then none else q x
    | _ => some q

/-- The rule was kept so far, and who has a channel may use it. -/
def Granted (s : Server) : Prop :=
  ∃ q, (access s.config).run (fun _ => none) s.events = some q ∧
    ∀ x a, s.owner x = some a → q x = some a

namespace Granted

variable {s s' : Server}

/-- Nothing is done, and no session gets a channel. -/
theorem keep (h : Granted s) (hconfig : s'.config = s.config) (hevents : s'.events = s.events)
    (howner : ∀ x a, s'.owner x = some a → s.owner x = some a) : Granted s' := by
  rcases h with ⟨q, hrun, hq⟩
  refine ⟨q, ?_, fun x a hx => hq x a (howner x a hx)⟩
  rw [hconfig, hevents]
  exact hrun

/-- Something is done that the monitor accepts. -/
theorem advance (h : Granted s) (hconfig : s'.config = s.config) {e : Event}
    (hevents : s'.events = s.events ++ [e])
    (hnext : ∀ q, (∀ x a, s.owner x = some a → q x = some a) →
      ∃ q', (access s.config).next q e = some q' ∧ ∀ x a, s'.owner x = some a → q' x = some a) :
    Granted s' := by
  rcases h with ⟨q, hrun, hq⟩
  rcases hnext q hq with ⟨q', hq', howner⟩
  refine ⟨q', ?_, howner⟩
  rw [hconfig, hevents, Monitor.run_append, hrun]
  simp [hq']

/-- Something is done that the monitor does not look at. -/
theorem pass (h : Granted s) (hconfig : s'.config = s.config) {e : Event}
    (hevents : s'.events = s.events ++ [e]) (hnext : ∀ q, (access s.config).next q e = some q)
    (howner : ∀ x a, s'.owner x = some a → s.owner x = some a) : Granted s' :=
  h.advance hconfig hevents fun q hq => ⟨q, hnext q, fun x a hx => hq x a (howner x a hx)⟩

end Granted

/-- **The changes keep the rule.** -/
theorem Update.granted {P : Address → Prop} {s s' : Server} (h : Update P s s')
    (hs : Granted s) : Granted s' := by
  cases h with
  | accepted _ => exact hs.keep rfl rfl fun _ _ hx => hx
  | stateChanged _ _ _ => exact hs.keep rfl rfl fun _ _ hx => hx
  | lost _ _ => exact hs.keep rfl rfl fun _ _ hx => hx
  | entered _ => exact hs.keep rfl rfl fun _ _ hx => hx
  | left => exact hs.keep rfl rfl fun _ _ hx => hx
  | counted _ _ => exact hs.keep rfl rfl fun _ _ hx => hx
  | sent _ _ _ => exact hs.pass rfl rfl (fun _ => rfl) fun _ _ hx => hx
  | issued _ _ _ _ _ _ _ => exact hs.pass rfl rfl (fun _ => rfl) fun _ _ hx => hx
  | renewed _ _ _ _ _ _ => exact hs.pass rfl rfl (fun _ => rfl) fun _ _ hx => hx
  | revolved _ _ _ => exact hs.keep rfl rfl fun _ _ hx => hx
  | @removed a _ _ =>
      refine hs.advance rfl rfl fun q hq => ⟨_, rfl, ?_⟩
      intro x b hx
      rw [owner_withoutChannel] at hx
      dsimp only at hx
      have hne : s.owner x ≠ some a := by
        intro heq
        rw [if_pos heq] at hx
        cases hx
      rw [if_neg hne] at hx
      rw [hq x b hx, if_neg (by rwa [← hx])]
  | @created x session _ hchannel _ =>
      refine hs.pass rfl rfl (fun _ => rfl) ?_
      intro y a hy
      unfold Server.create at hy
      rw [owner_log, owner_setSession, hchannel] at hy
      exact (of_update_none hy).2
  | @forgotten x _ =>
      refine hs.advance rfl rfl fun q hq => ⟨_, rfl, ?_⟩
      intro y a hy
      rw [owner_withoutSession] at hy
      rcases of_update_none hy with ⟨hne, hy'⟩
      rw [Function.update_of_ne hne]
      exact hq y a hy'
  | @detached x session _ =>
      refine hs.keep rfl rfl ?_
      intro y a hy
      rw [owner_setSession] at hy
      exact (of_update_none hy).2
  | @activated x a session channel identity _ _ _ _ _ _ haccept =>
      refine hs.advance rfl rfl fun q hq => ⟨Function.update q x (some a), if_pos haccept, ?_⟩
      intro y b hy
      rw [owner_log, owner_setChannel, owner_setSession] at hy
      by_cases heq : y = x
      · subst heq
        rw [Function.update_self] at hy ⊢
        exact hy
      · rw [Function.update_of_ne heq] at hy ⊢
        exact hq y b hy
  | @confirmed x a session identity _ hx hchannel haccept =>
      refine hs.advance rfl rfl fun q hq => ⟨Function.update q x (some a), if_pos haccept, ?_⟩
      intro y b hy
      rw [owner_log, owner_setSession] at hy
      by_cases heq : y = x
      · subst heq
        rw [Function.update_self] at hy ⊢
        rcases hchannel with hfree | hown
        · rw [show (Session.updateLifetime { session with activated := true } _).channel =
            session.channel from rfl, hfree] at hy
          cases hy
        · exact hown.symm.trans hy
      · rw [Function.update_of_ne heq] at hy ⊢
        exact hq y b hy
  | @served x a session _ kind hx hchannel _ =>
      refine hs.advance rfl rfl fun q hq => ⟨q, ?_, ?_⟩
      · exact if_pos (hq x a ((owner_eq hx).trans hchannel))
      · intro y b hy
        rw [owner_log, owner_setSession] at hy
        by_cases heq : y = x
        · subst heq
          rw [Function.update_self] at hy
          exact hq y b ((owner_eq hx).trans hy)
        · rw [Function.update_of_ne heq] at hy
          exact hq y b hy

/-- The configuration stays. -/
theorem Update.config_eq {P : Address → Prop} {s s' : Server} (h : Update P s s') :
    s'.config = s.config := by
  cases h <;> rfl

/-- In a safe run the rule is kept. -/
theorem run_granted {config : ServerConfig} {jobs : List Job}
    (hsafe : SafeRun (Server.init config) jobs) {s : Server}
    (hrun : run (Server.init config) jobs = some s) : Granted s ∧ s.config = config := by
  have hinit : Granted (Server.init config) := ⟨fun _ => none, rfl, by simp [owner, Server.init]⟩
  rcases run_follows (.init config) rfl hsafe with ⟨s', hrun', hsteps, _⟩
  rw [hrun] at hrun'
  cases hrun'
  have hconfig : ∀ r r' : Server, Update anybody r r' → r.config = config → r'.config = config :=
    fun _ _ hstep heq => hstep.config_eq.trans heq
  exact ⟨invariant_of_steps (fun _ _ hstep => hstep.granted) hsteps hinit,
    invariant_of_steps hconfig hsteps rfl⟩

/-! ## What the rule says -/

/-- Where the monitor allows a session a channel, it was activated over it by an accepted user, and
since then neither was closed, nor was the session activated elsewhere. -/
theorem activated_of_access {config : ServerConfig} {tr : List Event}
    {q : Address → Option ChannelAddress} (h : (access config).run (fun _ => none) tr = some q)
    {x : Address} {a : ChannelAddress} (hx : q x = some a) :
    ∃ before identity after, tr = before ++ .activated x a identity :: after ∧
      authenticate config identity = .good ∧ Event.closed x ∉ after ∧ Event.removed a ∉ after ∧
        ∀ b identity', Event.activated x b identity' ∈ after → b = a := by
  induction tr using List.reverseRecOn generalizing q with
  | nil =>
      cases h
      cases hx
  | append_singleton tr e ih =>
      rw [Monitor.run_append] at h
      rcases Option.bind_eq_some_iff.1 h with ⟨q', hq', hlast⟩
      have hnext : (access config).next q' e = some q := by simpa using hlast
      -- The last event either allows the channel itself or leaves what was allowed before.
      have hstays : q' x = some a → e ≠ .closed x → e ≠ .removed a →
          (∀ b identity, e = .activated x b identity → b = a) →
          ∃ before identity after, tr ++ [e] = before ++ .activated x a identity :: after ∧
            authenticate config identity = .good ∧ Event.closed x ∉ after ∧
              Event.removed a ∉ after ∧
                ∀ b identity', Event.activated x b identity' ∈ after → b = a := by
        intro hx' hclosed hremoved hactivated
        rcases ih hq' hx' with ⟨before, identity, after, heq, hgood, hcl, hrem, hact⟩
        refine ⟨before, identity, after ++ [e], by rw [heq]; simp, hgood, ?_, ?_, ?_⟩
        · simpa using ⟨hcl, fun heq => hclosed heq.symm⟩
        · simpa using ⟨hrem, fun heq => hremoved heq.symm⟩
        · intro b identity' hmem
          rcases List.mem_append.1 hmem with hmem | hmem
          · exact hact b identity' hmem
          · exact hactivated b identity' (List.mem_singleton.1 hmem).symm
      cases e with
      | activated y b identity =>
          dsimp only [access] at hnext
          by_cases hgood : authenticate config identity = .good
          · rw [if_pos hgood] at hnext
            cases hnext
            by_cases hy : x = y
            · subst hy
              rw [Function.update_self] at hx
              cases hx
              exact ⟨tr, identity, [], rfl, hgood, by simp, by simp, by simp⟩
            · rw [Function.update_of_ne hy] at hx
              refine hstays hx (by simp) (by simp) ?_
              intro b' identity' heq
              cases heq
              exact absurd rfl hy
          · rw [if_neg hgood] at hnext
            cases hnext
      | served y b kind =>
          dsimp only [access] at hnext
          by_cases hy : q' y = some b
          · rw [if_pos hy] at hnext
            cases hnext
            exact hstays hx (by simp) (by simp) (by simp)
          · rw [if_neg hy] at hnext
            cases hnext
      | closed y =>
          cases hnext
          rcases of_update_none hx with ⟨hne, hx'⟩
          exact hstays hx' (by simpa using fun heq : y = x => hne heq.symm) (by simp) (by simp)
      | removed b =>
          cases hnext
          dsimp only at hx
          by_cases hb : q' x = some b
          · rw [if_pos hb] at hx
            cases hx
          · rw [if_neg hb] at hx
            refine hstays hx (by simp) ?_ (by simp)
            intro heq
            cases heq
            exact hb hx
      | issued | renewed | created | sent =>
          cases hnext
          exact hstays hx (by simp) (by simp) (by simp)

/-- **No service without a login.**  In a safe run, a service runs for a session over a channel only
if before it an accepted user activated the session over that channel, and since then neither the
session nor the channel was closed, and the session was not activated over another one. -/
theorem served_after_activation (config : ServerConfig) (jobs : List Job)
    (hsafe : SafeRun (Server.init config) jobs) {s : Server}
    (hrun : run (Server.init config) jobs = some s) {before after : List Event} {x : Address}
    {a : ChannelAddress} {kind : Service} (hserved : s.events = before ++ .served x a kind :: after) :
    ∃ first identity since, before = first ++ .activated x a identity :: since ∧
      authenticate config identity = .good ∧ Event.closed x ∉ since ∧ Event.removed a ∉ since ∧
        ∀ b identity', Event.activated x b identity' ∈ since → b = a := by
  rcases run_granted hsafe hrun with ⟨⟨q, hq, _⟩, hconfig⟩
  rw [hconfig, hserved, Monitor.run_append] at hq
  rcases Option.bind_eq_some_iff.1 hq with ⟨q', hbefore, hrest⟩
  rw [Monitor.run_cons] at hrest
  rcases Option.bind_eq_some_iff.1 hrest with ⟨q'', hnext, _⟩
  dsimp only [access] at hnext
  by_cases hx : q' x = some a
  · exact activated_of_access hbefore hx
  · rw [if_neg hx] at hnext
    cases hnext

theorem served_after_activation_twoClients :
    ∃ s, run (Server.init anonymousOnly) twoClients = some s ∧ ∃ before after,
      s.events = before ++ .served 9 (.entry 5) .read :: after ∧ ∃ first identity since,
        before = first ++ .activated 9 (.entry 5) identity :: since ∧
        authenticate anonymousOnly identity = .good ∧ Event.closed 9 ∉ since ∧
          Event.removed (.entry 5) ∉ since ∧
            ∀ b identity', Event.activated 9 b identity' ∈ since → b = .entry 5 := by
  have hrun : ∃ s, run (Server.init anonymousOnly) twoClients = some s ∧
      s.events = s.events.take 6 ++ .served 9 (.entry 5) .read :: s.events.drop 7 := by
    decide +kernel
  rcases hrun with ⟨s, hrun, hserved⟩
  exact ⟨s, hrun, _, _, hserved,
    served_after_activation anonymousOnly twoClients (by decide +kernel) hrun hserved⟩

end Channels

end ForteOpcUa
