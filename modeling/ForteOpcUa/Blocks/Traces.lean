import ForteOpcUa.Blocks.Stages

/-!
# Traces — what one request does, under any environment

For each handler one inversion theorem says what the trace of a request looks like, whatever the
client library and the servers answer.  The results about output events and about client handles
are read off these shapes and never unfold a handler again.
-/

namespace ForteOpcUa

open Interaction
open Interaction.Prog

/-- A request of a handler with its reply. -/
abbrev ClientEvent : Type :=
  Event Client

/-- The event of request `o` answered by `r`. -/
abbrev answered (o : Call) (r : o.Reply) : ClientEvent :=
  ⟨o, r⟩

/-- The request is a service call on client `c`. -/
def Call.isServiceOn (c : Handle) : Call → Prop
  | browse c' _ => c' = c
  | addNode c' _ => c' = c
  | deleteNode c' _ _ => c' = c
  | read c' _ => c' = c
  | write c' _ _ => c' = c
  | _ => False

/-- The last call of `clientNew` or `clientDelete` that was about `c` deleted it. -/
def Deleted (c : Handle) (past : List ClientEvent) : Prop :=
  ∃ before after, past = before ++ answered (.clientDelete c) () :: after ∧
    answered .clientNew c ∉ after

/-- C does not say what the request does: it frees a local variable, the `value` of `OPC_UA_WRITE`, or
is made on a client that was deleted.  The process may end there. -/
def Call.Undefined (past : List ClientEvent) (o : Call) : Prop :=
  o = .writeRequestDeleteMembers ∨ ∃ c, o.client? = some c ∧ Deleted c past

/-- The process may end at the last event of a trace. -/
def UndefinedCall (past : List ClientEvent) (e : ClientEvent) : Prop :=
  e.op.Undefined past

/-- The last three requests of a handler that got as far as disconnecting. -/
def release (c : Handle) (closed : StatusCode) (eventId : ℕ) : List ClientEvent :=
  [answered (.disconnect c) closed, answered (.clientDelete c) (),
    answered (.sendOutputEvent eventId) ()]

theorem run_finish {c : Handle} {eventId : ℕ} {tr : List ClientEvent} :
    Run (finish c eventId) tr () ↔ ∃ closed, tr = release c closed eventId := by
  simp only [finish, run_call_iff, run_ret_iff]
  constructor
  · rintro ⟨closed, _, rfl, _, _, rfl, _, _, rfl, rfl, _⟩
    exact ⟨closed, rfl⟩
  · rintro ⟨closed, rfl⟩
    exact ⟨closed, _, rfl, (), _, rfl, (), _, rfl, rfl, trivial⟩

/-! ## OPC_UA_PUBLISH -/

namespace OpcUaPublish

/-- `tr` is a list of services on `c` followed by its release. -/
def ServesAndReleases (c : Handle) (tr : List ClientEvent) : Prop :=
  ∃ services closed, (∀ e ∈ services, e.op.isServiceOn c) ∧
    tr = services ++ release c closed eventCNF

theorem ServesAndReleases.finish {c : Handle} {tr : List ClientEvent}
    (h : Run (finish c eventCNF) tr ()) : ServesAndReleases c tr := by
  rcases run_finish.1 h with ⟨closed, rfl⟩
  exact ⟨[], closed, by simp, by simp⟩

theorem ServesAndReleases.cons {c : Handle} {e : ClientEvent} {tr : List ClientEvent}
    (he : e.op.isServiceOn c) (h : ServesAndReleases c tr) : ServesAndReleases c (e :: tr) := by
  rcases h with ⟨services, closed, hall, rfl⟩
  refine ⟨e :: services, closed, ?_, rfl⟩
  intro e' he'
  rcases List.mem_cons.1 he' with rfl | he'
  · exact he
  · exact hall e' he'

section Stages

variable {sameText : SameText} {c : Handle} {fb_id var_id : Name} {tr : List ClientEvent}

theorem run_addItemStage (h : Run (addItemStage c fb_id var_id) tr ()) :
    ServesAndReleases c tr := by
  rcases run_call_iff.1 h with ⟨r, tr', rfl, hrest⟩
  exact (ServesAndReleases.finish hrest).cons rfl

theorem run_deleteStage (h : Run (deleteStage c fb_id var_id) tr ()) :
    ServesAndReleases c tr := by
  rcases run_call_iff.1 h with ⟨r, tr', rfl, hrest⟩
  exact (run_addItemStage hrest).cons rfl

theorem run_browseItemStage (h : Run (browseItemStage sameText c fb_id var_id) tr ()) :
    ServesAndReleases c tr := by
  rcases run_call_iff.1 h with ⟨r, tr', rfl, hrest⟩
  split at hrest
  · exact (run_deleteStage hrest).cons rfl
  · exact (run_addItemStage hrest).cons rfl

theorem run_addObjectStage (h : Run (addObjectStage c fb_id var_id) tr ()) :
    ServesAndReleases c tr := by
  rcases run_call_iff.1 h with ⟨r, tr', rfl, hrest⟩
  exact (run_addItemStage hrest).cons rfl

theorem run_browseStage (h : Run (browseStage sameText c fb_id var_id) tr ()) :
    ServesAndReleases c tr := by
  rcases run_call_iff.1 h with ⟨r, tr', rfl, hrest⟩
  split at hrest
  · exact (run_addObjectStage hrest).cons rfl
  · exact (run_browseItemStage hrest).cons rfl

end Stages

/-- A publish request is not connected, cannot connect, or issues services on one client between
connecting and releasing it. -/
theorem executeEvent_run {sameText : SameText} {inputs : Inputs} {tr : List ClientEvent}
    (h : Run (executeEvent sameText eventREQ inputs) tr ()) :
    tr = [answered (.sendOutputEvent eventCNF) ()] ∨
    (∃ c r, r ≠ StatusCode.good ∧
      tr = [answered .clientNew c, answered (.connect c localServer) r,
        answered (.clientDelete c) (), answered (.sendOutputEvent eventCNF) ()]) ∨
    (∃ c rest, ServesAndReleases c rest ∧
      tr = answered .clientNew c :: answered (.connect c localServer) StatusCode.good ::
        rest) := by
  cases hconn : inputs.connection with
  | none =>
      rw [executeEvent_unconnected hconn] at h
      rcases run_call_iff.1 h with ⟨_, _, rfl, hret⟩
      rcases run_ret_iff.1 hret with ⟨rfl, -⟩
      exact Or.inl rfl
  | some source =>
      rw [executeEvent_connected hconn] at h
      right
      rcases run_call_iff.1 h with ⟨c, _, rfl, h₁⟩
      rcases run_call_iff.1 h₁ with ⟨r, rest, rfl, h₂⟩
      -- The connect decides: services and release, or the early `break`.
      by_cases hr : r = StatusCode.good
      · rw [if_pos hr] at h₂
        subst hr
        exact Or.inr ⟨c, rest, run_browseStage h₂, rfl⟩
      · rw [if_neg hr] at h₂
        rcases run_call_iff.1 h₂ with ⟨_, _, rfl, h₃⟩
        rcases run_call_iff.1 h₃ with ⟨_, _, rfl, h₄⟩
        rcases run_ret_iff.1 h₄ with ⟨rfl, -⟩
        exact Or.inl ⟨c, r, hr, rfl⟩

end OpcUaPublish

/-! ## OPC_UA_READ and OP_UA_SUBSCRIBE -/

/-- What the read stage does with the reply before it disconnects. -/
def takeValue (eventId : ℕ) (rResp : ReadResponse) : ClientEvent :=
  match rResp.firstInt32 with
  | some value => answered (.assignOUT value) ()
  | none => answered (.sendOutputEvent eventId) ()

/-- What a failed connect adds to the trace of `readValue`. -/
def refusal (eventId : ℕ) (c : Handle) (connected : StatusCode) : List ClientEvent :=
  if connected = StatusCode.good then
    []
  else
    [answered (.clientDelete c) (), answered (.sendOutputEvent eventId) ()]

/-- The trace of a read request. -/
def readTrace (eventId : ℕ) (SERVER NODE : ByteString) (c : Handle) (connected : StatusCode)
    (rResp : ReadResponse) (closed : StatusCode) : List ClientEvent :=
  answered (.assignOUT 0) () :: answered .clientNew c ::
    answered (.connect c SERVER) connected :: (refusal eventId c connected ++
      answered (.read c (NodeId.string 1 NODE)) rResp ::
        takeValue eventId rResp :: release c closed eventId)

theorem run_readStage {eventId : ℕ} {c : Handle} {NODE : ByteString} {tr : List ClientEvent}
    (h : Run (readStage eventId c NODE) tr ()) :
    ∃ rResp closed, tr = answered (.read c (NodeId.string 1 NODE)) rResp ::
      takeValue eventId rResp :: release c closed eventId := by
  rcases run_call_iff.1 h with ⟨rResp, _, rfl, h₁⟩
  refine ⟨rResp, ?_⟩
  unfold takeValue
  -- Both answers leave one event before the release, which `takeValue` names.
  cases hval : rResp.firstInt32 with
  | some value =>
      rw [hval] at h₁
      rcases run_call_iff.1 h₁ with ⟨_, _, rfl, h₂⟩
      rcases run_finish.1 h₂ with ⟨closed, rfl⟩
      exact ⟨closed, rfl⟩
  | none =>
      rw [hval] at h₁
      rcases run_call_iff.1 h₁ with ⟨_, _, rfl, h₂⟩
      rcases run_finish.1 h₂ with ⟨closed, rfl⟩
      exact ⟨closed, rfl⟩

/-- A read request always reads: after a failed connect, on the client it has just deleted. -/
theorem readValue_run {eventId : ℕ} {SERVER NODE : ByteString} {tr : List ClientEvent}
    (h : Run (readValue eventId SERVER NODE) tr ()) :
    ∃ c connected rResp closed,
      tr = readTrace eventId SERVER NODE c connected rResp closed := by
  rw [readValue_eq] at h
  rcases run_call_iff.1 h with ⟨_, _, rfl, h₁⟩
  rcases run_call_iff.1 h₁ with ⟨c, _, rfl, h₂⟩
  rcases run_call_iff.1 h₂ with ⟨connected, _, rfl, h₃⟩
  -- Unlike above the two branches meet again at the read.
  by_cases hc : connected = StatusCode.good
  · rw [if_pos hc] at h₃
    rcases run_readStage h₃ with ⟨rResp, closed, rfl⟩
    exact ⟨c, connected, rResp, closed, by simp [readTrace, refusal, hc]⟩
  · rw [if_neg hc] at h₃
    rcases run_call_iff.1 h₃ with ⟨_, _, rfl, h₄⟩
    rcases run_call_iff.1 h₄ with ⟨_, _, rfl, h₅⟩
    rcases run_readStage h₅ with ⟨rResp, closed, rfl⟩
    exact ⟨c, connected, rResp, closed, by simp [readTrace, refusal, hc]⟩

/-- Every such trace can happen: the environment may answer each request as it likes. -/
theorem readTrace_run (eventId : ℕ) (SERVER NODE : ByteString) (c : Handle)
    (connected : StatusCode) (rResp : ReadResponse) (closed : StatusCode) :
    Run (readValue eventId SERVER NODE)
      (readTrace eventId SERVER NODE c connected rResp closed) () := by
  have hread : Run (readStage eventId c NODE)
      (answered (.read c (NodeId.string 1 NODE)) rResp ::
        takeValue eventId rResp :: release c closed eventId) () := by
    refine Run.call _ _ _ _ _ ?_
    unfold takeValue
    cases rResp.firstInt32 with
    | none =>
        exact Run.call _ _ _ _ _ (run_finish.2 ⟨closed, rfl⟩)
    | some value =>
        exact Run.call _ _ _ _ _ (run_finish.2 ⟨closed, rfl⟩)
  rw [readValue_eq]
  refine Run.call _ _ _ _ _ (Run.call _ _ _ _ _ (Run.call _ _ _ _ _ ?_))
  by_cases hc : connected = StatusCode.good
  · rw [if_pos hc, refusal, if_pos hc]
    exact hread
  · rw [if_neg hc, refusal, if_neg hc]
    exact Run.call _ _ _ _ _ (Run.call _ _ _ _ _ hread)

/-! ## OPC_UA_WRITE -/

/-- The trace of a write request that connects. -/
def OpcUaWrite.writeTrace (IN : Int16) (c : Handle) (wResp : WriteResponse)
    (closed : StatusCode) : List ClientEvent :=
  answered .clientNew c :: answered (.connect c localServer) StatusCode.good ::
    answered (.write c theAnswer (requestValue IN.toInt32)) wResp ::
      answered .writeRequestDeleteMembers () :: release c closed eventCNF

/-- A write request cannot connect and ends, or writes and releases its client. -/
theorem OpcUaWrite.executeEvent_run {SERVER NODE : ByteString} {IN : Int16}
    {tr : List ClientEvent}
    (h : Run (OpcUaWrite.executeEvent eventREQ SERVER NODE IN) tr ()) :
    (∃ c r, r ≠ StatusCode.good ∧
      tr = [answered .clientNew c, answered (.connect c localServer) r,
        answered (.clientDelete c) ()]) ∨
    (∃ c wResp closed, tr = writeTrace IN c wResp closed) := by
  rw [OpcUaWrite.executeEvent_eq] at h
  rcases run_call_iff.1 h with ⟨c, _, rfl, h₁⟩
  rcases run_call_iff.1 h₁ with ⟨r, _, rfl, h₂⟩
  by_cases hr : r = StatusCode.good
  · rw [if_pos hr] at h₂
    subst hr
    rcases run_call_iff.1 h₂ with ⟨wResp, _, rfl, h₃⟩
    rcases run_call_iff.1 h₃ with ⟨_, _, rfl, h₄⟩
    rcases run_finish.1 h₄ with ⟨closed, rfl⟩
    exact Or.inr ⟨c, wResp, closed, rfl⟩
  · rw [if_neg hr] at h₂
    rcases run_call_iff.1 h₂ with ⟨_, _, rfl, h₃⟩
    rcases run_ret_iff.1 h₃ with ⟨rfl, -⟩
    exact Or.inl ⟨c, r, hr, rfl⟩

/-! ## Requests delivered to the blocks -/

/-- A request that was handled: its trace is one the handler can leave. -/
structure Handled (sameText : OpcUaPublish.SameText) where
  request : Request
  trace : List ClientEvent
  ran : Run (request.program sameText) trace ()

end ForteOpcUa
