import ForteOpcUa.Blocks.Undefined

/-!
# Confirmation — when a request is confirmed by exactly one output event

A request is confirmed once if its last action is the output event, no other output event is sent
before it, and every client it created is released by then.  As far as the process survives what C
leaves undefined, `OPC_UA_PUBLISH` always does so.  `OPC_UA_READ` and `OP_UA_SUBSCRIBE` send one event
more for a failed connect (they do not leave the handler there) and one more for a reply that carries
no scalar `Int32`; `OPC_UA_WRITE` sends none after a failed connect.
-/

namespace ForteOpcUa

open Interaction
open Interaction.Prog

/-! ## Output events of a trace -/

/-- The event is an output event of the block. -/
def isOutput (e : ClientEvent) : Bool :=
  match e.op with
  | .sendOutputEvent _ => true
  | _ => false

/-- The trace ends with its only output event, after every client it created was released. -/
def ConfirmsOnce (tr : List ClientEvent) : Prop :=
  ∃ body, tr = body ++ [answered (.sendOutputEvent eventCNF) ()] ∧
    (∀ e ∈ body, isOutput e = false) ∧
    ∀ c, answered .clientNew c ∈ body → answered (.clientDelete c) () ∈ body

theorem ConfirmsOnce.countP {tr : List ClientEvent} (h : ConfirmsOnce tr) :
    tr.countP isOutput = 1 := by
  rcases h with ⟨body, rfl, hbody, -⟩
  -- The last event is an output event and no other one is.
  have hzero : body.countP isOutput = 0 := by
    rw [List.countP_eq_zero]
    intro e he
    simp [hbody e he]
  simp [hzero, isOutput]

/-- A service call is neither an output event nor the creation of a client. -/
theorem isOutput_service {c : Handle} {e : ClientEvent} (h : e.op.isServiceOn c) :
    isOutput e = false := by
  rcases e with ⟨o, r⟩
  cases o <;> first | rfl | exact h.elim

theorem service_ne_clientNew {c c' : Handle} {e : ClientEvent} (h : e.op.isServiceOn c) :
    e ≠ answered .clientNew c' := by
  rintro rfl
  exact h

/-! ## The environment that answers well -/

/-- A connect that succeeds, a read that delivers a scalar `Int32`; any other reply will do. -/
def GoodReply : ClientEvent → Prop
  | ⟨.connect _ _, retval⟩ => retval = StatusCode.good
  | ⟨.read _ _, rResp⟩ => rResp.firstInt32 ≠ none
  | _ => True

/-- The environment answered a read, subscribe or write request well. -/
def Handled.Smooth {sameText : OpcUaPublish.SameText} (x : Handled sameText) : Prop :=
  match x.request with
  | .publish _ => True
  | _ => ∀ e ∈ x.trace, GoodReply e

/-! ## The four blocks -/

theorem OpcUaPublish.confirmsOnce {sameText : SameText} {inputs : Inputs}
    {tr : List ClientEvent} (h : Run (executeEvent sameText eventREQ inputs) tr ()) :
    ConfirmsOnce tr := by
  -- Not connected, refused, or served: the confirmation is last each time.
  rcases executeEvent_run h with rfl | ⟨c, r, -, rfl⟩ | ⟨c, rest, hrest, rfl⟩
  · exact ⟨[], rfl, by simp, by simp⟩
  · refine ⟨[answered .clientNew c, answered (.connect c localServer) r,
      answered (.clientDelete c) ()], rfl, ?_, ?_⟩
    · simp [isOutput]
    · simp
  · rcases hrest with ⟨services, closed, hall, rfl⟩
    refine ⟨answered .clientNew c :: answered (.connect c localServer) StatusCode.good ::
      (services ++ [answered (.disconnect c) closed, answered (.clientDelete c) ()]),
      by simp [release], ?_, ?_⟩
    · intro e he
      simp only [List.mem_cons, List.mem_append, List.not_mem_nil, or_false] at he
      rcases he with rfl | rfl | he | rfl | rfl
      · rfl
      · rfl
      · exact isOutput_service (hall e he)
      · rfl
      · rfl
    · intro c' he
      -- Services create no client, so the one released is the only one.
      have hne : answered .clientNew c' ∉ services := fun hmem =>
        service_ne_clientNew (hall _ hmem) rfl
      have hc : c' = c := by simpa [hne] using he
      simp [hc]

section Read

variable {SERVER NODE : ByteString} {c : Handle} {connected closed : StatusCode}
variable {rResp : ReadResponse}

/-- A read request answered well is confirmed once. -/
theorem readTrace_confirmsOnce (hc : connected = StatusCode.good)
    (hval : rResp.firstInt32 ≠ none) :
    ConfirmsOnce (readTrace eventCNF SERVER NODE c connected rResp closed) := by
  rcases Option.ne_none_iff_exists'.1 hval with ⟨value, hvalue⟩
  refine ⟨[answered (.assignOUT 0) (), answered .clientNew c,
    answered (.connect c SERVER) connected, answered (.read c (NodeId.string 1 NODE)) rResp,
    answered (.assignOUT value) (), answered (.disconnect c) closed,
    answered (.clientDelete c) ()], ?_, ?_, ?_⟩
  · simp [readTrace, refusal, takeValue, release, hc, hvalue]
  · simp [isOutput]
  · simp

/-- Output events of a read request: one, one more for a failed connect and one more for a reply
without a scalar `Int32`. -/
theorem readTrace_countP :
    (readTrace eventCNF SERVER NODE c connected rResp closed).countP isOutput =
      (if connected = StatusCode.good then 0 else 1) +
        (if rResp.firstInt32 = none then 1 else 0) + 1 := by
  have htake : (takeValue eventCNF rResp :: release c closed eventCNF).countP isOutput =
      (if rResp.firstInt32 = none then 1 else 0) + 1 := by
    cases hval : rResp.firstInt32 with
    | none =>
        simp only [takeValue, hval]
        rfl
    | some value =>
        simp only [takeValue, hval]
        rfl
  -- A refusal adds its own output event in front of the rest.
  by_cases hc : connected = StatusCode.good
  · simpa [readTrace, refusal, isOutput, hc] using htake
  · simp only [readTrace, refusal, hc, if_false, List.countP_cons, List.countP_append] at htake ⊢
    simp [isOutput] at htake ⊢
    omega

/-- A read request is confirmed once exactly when it is answered well. -/
theorem readTrace_confirmsOnce_iff :
    ConfirmsOnce (readTrace eventCNF SERVER NODE c connected rResp closed) ↔
      ∀ e ∈ readTrace eventCNF SERVER NODE c connected rResp closed, GoodReply e := by
  constructor
  · intro h
    have hcount := h.countP
    rw [readTrace_countP] at hcount
    -- Either fault makes the count two or more.
    have hc : connected = StatusCode.good := by
      by_contra hc
      simp [hc] at hcount
    have hval : rResp.firstInt32 ≠ none := by
      intro hval
      simp [hc, hval] at hcount
    rcases Option.ne_none_iff_exists'.1 hval with ⟨value, hvalue⟩
    simp [readTrace, refusal, takeValue, release, GoodReply, hc, hvalue]
  · intro h
    have hc : connected = StatusCode.good :=
      h (answered (.connect c SERVER) connected) (by simp [readTrace])
    have hval : rResp.firstInt32 ≠ none :=
      h (answered (.read c (NodeId.string 1 NODE)) rResp) (by simp [readTrace])
    exact readTrace_confirmsOnce hc hval

end Read

/-- A write request is confirmed once exactly when its connect succeeds. -/
theorem OpcUaWrite.confirmsOnce_iff {SERVER NODE : ByteString} {IN : Int16}
    {tr : List ClientEvent} (h : Run (executeEvent eventREQ SERVER NODE IN) tr ()) :
    ConfirmsOnce tr ↔ ∀ e ∈ tr, GoodReply e := by
  rcases executeEvent_run h with ⟨c, r, hr, rfl⟩ | ⟨c, wResp, closed, rfl⟩
  · constructor
    · intro hc
      have hcount := hc.countP
      simp [isOutput] at hcount
    · intro hall
      exact absurd (hall (answered (.connect c localServer) r) (by simp)) hr
  · constructor
    · intro _
      simp [writeTrace, release, GoodReply]
    · intro _
      refine ⟨[answered .clientNew c, answered (.connect c localServer) StatusCode.good,
        answered (.write c theAnswer (requestValue IN.toInt32)) wResp,
        answered .writeRequestDeleteMembers (), answered (.disconnect c) closed,
        answered (.clientDelete c) ()], rfl, ?_, ?_⟩
      · simp [isOutput]
      · simp

/-- A request that the process survives is confirmed once exactly when the environment answered it
well. -/
theorem Handled.confirmsOnce_iff {sameText : OpcUaPublish.SameText} (x : Handled sameText) :
    ConfirmsOnce x.trace ↔ x.Smooth := by
  rcases x with ⟨request, tr, ran⟩
  cases request with
  | publish inputs =>
      exact iff_of_true (OpcUaPublish.confirmsOnce ran) trivial
  | read SERVER NODE =>
      rcases readValue_run ran with ⟨c, connected, rResp, closed, rfl⟩
      exact readTrace_confirmsOnce_iff
  | subscribe SERVER NODE =>
      rcases readValue_run ran with ⟨c, connected, rResp, closed, rfl⟩
      exact readTrace_confirmsOnce_iff
  | write SERVER NODE IN =>
      exact @OpcUaWrite.confirmsOnce_iff SERVER NODE IN tr ran

/-! ## Whole runs -/

section Runs

variable {P : Platform}

/-- The last step of the request is its only output event, and every client is released before. -/
def Delivered.ConfirmsOnce (x : Delivered P) : Prop :=
  x.seen.getLast? = some (OpcUaPublish.replied (.sendOutputEvent eventCNF) ()) ∧
    ForteOpcUa.ConfirmsOnce x.calls

/-- The environment answered a read, subscribe or write request well. -/
def Delivered.Smooth (x : Delivered P) : Prop :=
  match x.delivery with
  | .publish _ => True
  | _ => ∀ e ∈ x.calls, GoodReply e

/-- The number of output events in a run of requests. -/
def outputEvents (run : List (Delivered P)) : ℕ :=
  (run.map fun x => x.calls.countP isOutput).sum

/-- One request is confirmed once exactly when the process survives it and the environment answered it
well. -/
theorem Delivered.confirmsOnce_iff (x : Delivered P) : x.ConfirmsOnce ↔ ¬ x.Dies ∧ x.Smooth := by
  -- Sending the output event is defined, so a request that ends with it has not broken off.
  have hsurvives : x.seen.getLast? = some (OpcUaPublish.replied (.sendOutputEvent eventCNF) ()) →
      ¬ x.Dies := fun hlast => not_breaks_of_getLast hlast fun past => by
    simp [Undefined, Call.Undefined, Call.client?]
  have hcalls : ¬ x.Dies → (ForteOpcUa.ConfirmsOnce x.calls ↔ x.Smooth) := by
    intro hdies
    rcases x.handled hdies with ⟨sameText, y, hrequest, htrace⟩
    have hsmooth : y.Smooth ↔ x.Smooth := by
      rw [Handled.Smooth, Smooth, hrequest, htrace]
      cases x.delivery with
      | publish connection => exact Iff.rfl
      | read SERVER NODE => exact Iff.rfl
      | subscribe SERVER NODE => exact Iff.rfl
      | write SERVER NODE IN => exact Iff.rfl
    rw [← htrace, y.confirmsOnce_iff, hsmooth]
  constructor
  · rintro ⟨hlast, hconf⟩
    exact ⟨hsurvives hlast, (hcalls (hsurvives hlast)).1 hconf⟩
  · rintro ⟨hdies, hsmooth⟩
    have hconf := (hcalls hdies).2 hsmooth
    refine ⟨x.getLast_seen hdies ?_, hconf⟩
    rcases hconf with ⟨body, hbody, -⟩
    rw [hbody, List.getLast?_concat]

/-- If every request is confirmed once, there are as many output events as requests. -/
theorem outputEvents_of_confirmsOnce (run : List (Delivered P)) (h : ∀ x ∈ run, x.ConfirmsOnce) :
    outputEvents run = run.length := by
  -- Induction on the run: each request adds one event to the sum and one to the length.
  induction run with
  | nil =>
      rfl
  | cons x run ih =>
      have hx : x.calls.countP isOutput = 1 := (h x (by simp)).2.countP
      have hrest := ih fun y hy => h y (by simp [hy])
      simp only [outputEvents, List.map_cons, List.sum_cons, List.length_cons] at hrest ⊢
      omega

/-- In a run of requests to the four blocks every request is confirmed by exactly one output
event, its last action, and the events are as many as the requests, exactly when the process survives
every operation that C leaves undefined and the environment answered every read, subscribe and write
request well. -/
theorem one_confirmation_iff (run : List (Delivered P)) :
    ((∀ x ∈ run, x.ConfirmsOnce) ∧ outputEvents run = run.length) ↔
      ∀ x ∈ run, ¬ x.Dies ∧ x.Smooth := by
  constructor
  · rintro ⟨hall, -⟩ x hx
    exact x.confirmsOnce_iff.1 (hall x hx)
  · intro hall
    have hconf : ∀ x ∈ run, x.ConfirmsOnce := fun x hx => x.confirmsOnce_iff.2 (hall x hx)
    exact ⟨hconf, outputEvents_of_confirmsOnce run hconf⟩

end Runs

/-- The steps of a read of a node that the server does not know: the reply has no value, the handler
sends `CNF` for it and goes on to the common tail. -/
def readOfUnknownTrace : List (Event OpcUaPublish.Formatted) :=
  [OpcUaPublish.replied (.assignOUT 0) (),
    OpcUaPublish.replied .clientNew (0 : Handle),
    OpcUaPublish.replied (.connect 0 localServer) StatusCode.good,
    OpcUaPublish.replied (.read 0 (NodeId.string 1 (ascii "a")))
      ({ serviceResult := StatusCode.good
         results := [Server.empty.readSingle (NodeId.string 1 (ascii "a"))] } : ReadResponse),
    OpcUaPublish.replied (.sendOutputEvent eventCNF) (),
    OpcUaPublish.replied (.disconnect 0) StatusCode.good,
    OpcUaPublish.replied (.clientDelete 0) (),
    OpcUaPublish.replied (.sendOutputEvent eventCNF) ()]

/-- The request with these steps; none of them is undefined. -/
def readOfUnknownNode : Delivered glibc where
  delivery := .read localServer (ascii "a")
  whole := readOfUnknownTrace
  result := some ()
  ran := raised_run (readTrace_run eventCNF localServer (ascii "a") 0 StatusCode.good _
    StatusCode.good) (by simp [readOfUnknownTrace])
  seen := readOfUnknownTrace
  shown := .whole

/-- That request is confirmed twice. -/
theorem readOfUnknownNode_confirmed_twice :
    outputEvents [readOfUnknownNode] = 2 ∧
      ¬ ((∀ x ∈ [readOfUnknownNode], x.ConfirmsOnce) ∧
        outputEvents [readOfUnknownNode] = [readOfUnknownNode].length) := by
  have htwo : outputEvents [readOfUnknownNode] = 2 := rfl
  refine ⟨htwo, ?_⟩
  rintro ⟨-, hone⟩
  rw [htwo] at hone
  cases hone

end ForteOpcUa
