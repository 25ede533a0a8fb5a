import ForteOpcUa.Blocks.Undefined

/-!
# Handles — client handles are used in legal order

The legal order of calls on a client is the monitor `clientOrder`: create, connect, then after a
failed connect only delete, after a successful one any services, disconnect and delete.  Its state
is a ledger of the phase of every handle; a request starts and must end with every handle dead.

`OPC_UA_PUBLISH` and `OPC_UA_WRITE` always keep the order, and release their client unless the process
ends before, at an operation that C leaves undefined.  `OPC_UA_READ` and `OP_UA_SUBSCRIBE` keep the
order exactly when the connect succeeds: after a failed one they delete the client and then read on
it.
-/

namespace ForteOpcUa

open Interaction
open Interaction.Prog

/-! ## The order of calls on a client -/

/-- Where a client stands in its life. -/
inductive Phase
  | dead
  | fresh
  | connected
  | refused
  | closed
  deriving DecidableEq

/-- The phase of every handle. -/
abbrev Ledger : Type :=
  Handle → Phase

/-- No client is alive. -/
def Ledger.allDead : Ledger :=
  fun _ => .dead

/-- A service call needs a connected client and keeps it connected. -/
def Ledger.service (l : Ledger) (c : Handle) : Option Ledger :=
  if l c = .connected then some l else none

/-- One call on a client: the next phase, or nothing if the call is out of order. -/
def Ledger.advance (l : Ledger) : ClientEvent → Option Ledger
  | ⟨.clientNew, c⟩ =>
      if l c = .dead then some (Function.update l c .fresh) else none
  | ⟨.connect c _, retval⟩ =>
      if l c = .fresh then
        some (Function.update l c (if retval = StatusCode.good then .connected else .refused))
      else
        none
  | ⟨.browse c _, _⟩ => l.service c
  | ⟨.addNode c _, _⟩ => l.service c
  | ⟨.deleteNode c _ _, _⟩ => l.service c
  | ⟨.read c _, _⟩ => l.service c
  | ⟨.write c _ _, _⟩ => l.service c
  | ⟨.disconnect c, _⟩ =>
      if l c = .connected then some (Function.update l c .closed) else none
  | ⟨.clientDelete c, _⟩ =>
      if l c = .refused ∨ l c = .closed then some (Function.update l c .dead) else none
  -- The request and the outputs of the block mention no client.
  | ⟨.writeRequestDeleteMembers, _⟩ => some l
  | ⟨.assignOUT _, _⟩ => some l
  | ⟨.sendOutputEvent _, _⟩ => some l

/-- The legal orders of client calls. -/
def clientOrder : Monitor ClientEvent Ledger :=
  { next := Ledger.advance }

/-- The calls of a run are in legal order, and no request leaves a client alive. -/
def LegalOrder {P : Platform} (run : List (Delivered P)) : Prop :=
  clientOrder.AcceptsBlocks (fun l => l = Ledger.allDead) Ledger.allDead
    (run.map Delivered.calls)

/-! ## The ledger of one client -/

/-- Only client `c` is alive, in phase `p`. -/
def Ledger.only (c : Handle) (p : Phase) : Ledger :=
  Function.update Ledger.allDead c p

@[simp]
theorem only_self (c : Handle) (p : Phase) : Ledger.only c p c = p :=
  Function.update_self ..

@[simp]
theorem update_only (c : Handle) (p p' : Phase) :
    Function.update (Ledger.only c p) c p' = Ledger.only c p' :=
  Function.update_idem ..

@[simp]
theorem only_dead (c : Handle) : Ledger.only c .dead = Ledger.allDead :=
  Function.update_eq_self ..

/-! Each call in order moves the one client on; the lemmas are the simp set of `clientOrder`. -/

@[simp]
theorem next_clientNew (c : Handle) :
    clientOrder.next Ledger.allDead (answered .clientNew c) = some (Ledger.only c .fresh) :=
  rfl

@[simp]
theorem next_connect_good (c : Handle) (url : ByteString) :
    clientOrder.next (Ledger.only c .fresh) (answered (.connect c url) StatusCode.good) =
      some (Ledger.only c .connected) := by
  simp [clientOrder, Ledger.advance]

theorem next_connect_bad (c : Handle) (url : ByteString) {retval : StatusCode}
    (h : retval ≠ StatusCode.good) :
    clientOrder.next (Ledger.only c .fresh) (answered (.connect c url) retval) =
      some (Ledger.only c .refused) := by
  simp [clientOrder, Ledger.advance, h]

theorem next_service {c : Handle} {e : ClientEvent} (he : e.op.isServiceOn c) :
    clientOrder.next (Ledger.only c .connected) e = some (Ledger.only c .connected) := by
  rcases e with ⟨o, r⟩
  cases o with
  | browse c' id => cases he; simp [clientOrder, Ledger.advance, Ledger.service]
  | addNode c' item => cases he; simp [clientOrder, Ledger.advance, Ledger.service]
  | deleteNode c' id refs => cases he; simp [clientOrder, Ledger.advance, Ledger.service]
  | read c' id => cases he; simp [clientOrder, Ledger.advance, Ledger.service]
  | write c' id value => cases he; simp [clientOrder, Ledger.advance, Ledger.service]
  | _ => exact he.elim

@[simp]
theorem next_disconnect (c : Handle) (retval : StatusCode) :
    clientOrder.next (Ledger.only c .connected) (answered (.disconnect c) retval) =
      some (Ledger.only c .closed) := by
  simp [clientOrder, Ledger.advance]

@[simp]
theorem next_clientDelete_refused (c : Handle) :
    clientOrder.next (Ledger.only c .refused) (answered (.clientDelete c) ()) =
      some Ledger.allDead := by
  simp [clientOrder, Ledger.advance]

@[simp]
theorem next_clientDelete_closed (c : Handle) :
    clientOrder.next (Ledger.only c .closed) (answered (.clientDelete c) ()) =
      some Ledger.allDead := by
  simp [clientOrder, Ledger.advance]

@[simp]
theorem next_writeRequestDeleteMembers (l : Ledger) :
    clientOrder.next l (answered .writeRequestDeleteMembers ()) = some l :=
  rfl

@[simp]
theorem next_assignOUT (l : Ledger) (value : Int32) :
    clientOrder.next l (answered (.assignOUT value) ()) = some l :=
  rfl

@[simp]
theorem next_sendOutputEvent (l : Ledger) (eventId : ℕ) :
    clientOrder.next l (answered (.sendOutputEvent eventId) ()) = some l :=
  rfl

/-- A read on a client that is not connected is out of order. -/
@[simp]
theorem next_read_dead (c : Handle) (id : NodeId) (rResp : ReadResponse) :
    clientOrder.next Ledger.allDead (answered (.read c id) rResp) = none :=
  rfl

theorem run_services {c : Handle} {services : List ClientEvent}
    (h : ∀ e ∈ services, e.op.isServiceOn c) :
    clientOrder.run (Ledger.only c .connected) services = some (Ledger.only c .connected) := by
  -- Induction on the services; each finds the client connected and leaves it so.
  induction services with
  | nil =>
      rfl
  | cons e services ih =>
      have he := next_service (h e (by simp))
      simp [he, ih fun e' he' => h e' (by simp [he'])]

@[simp]
theorem run_release (c : Handle) (closed : StatusCode) (eventId : ℕ) :
    clientOrder.run (Ledger.only c .connected) (release c closed eventId) =
      some Ledger.allDead := by
  simp [release]

/-! ## Clients that are left -/

/-- The event creates client `c`. -/
def creates (c : Handle) : ClientEvent → Bool
  | ⟨.clientNew, c'⟩ => c' = c
  | _ => false

/-- The event deletes client `c`. -/
def deletes (c : Handle) : ClientEvent → Bool
  | ⟨.clientDelete c', _⟩ => c' = c
  | _ => false

/-- `c` was created once more than it was deleted. -/
def Alive (c : Handle) (tr : List ClientEvent) : Prop :=
  tr.countP (deletes c) < tr.countP (creates c)

/-- How many clients the ledger has under `c`, one or none. -/
def Ledger.held (l : Ledger) (c : Handle) : ℕ :=
  if l c = .dead then 0 else 1

theorem Ledger.held_update_of_ne (l : Ledger) {c c' : Handle} (h : c' ≠ c) (p : Phase) :
    Ledger.held (Function.update l c' p) c = l.held c := by
  rw [held, Function.update_of_ne h.symm, held]

section Counts

variable {l l' : Ledger} {e : ClientEvent} {c : Handle} {tr : List ClientEvent}

/-- A call in order changes what the ledger holds by what it creates and deletes. -/
theorem held_next (h : clientOrder.next l e = some l') :
    l.held c + (if creates c e then 1 else 0) = l'.held c + (if deletes c e then 1 else 0) := by
  have hservice : ∀ {c' : Handle}, l.service c' = some l' → l' = l := by
    intro c' hs
    unfold Ledger.service at hs
    split at hs
    · exact (Option.some.inj hs).symm
    · cases hs
  rcases e with ⟨o, r⟩
  cases o with
  | clientNew =>
      simp only [clientOrder, Ledger.advance] at h
      split at h
      · rename_i hdead
        cases h
        by_cases hc : r = c
        · subst hc
          simp [creates, deletes, Ledger.held, hdead]
        · simp [Ledger.held_update_of_ne l hc, creates, deletes, hc]
      · cases h
  | connect c' url =>
      simp only [clientOrder, Ledger.advance] at h
      split at h
      · rename_i hfresh
        cases h
        by_cases hc : c' = c
        · subst hc
          by_cases hgood : r = StatusCode.good
          · simp [creates, deletes, Ledger.held, hfresh, hgood]
          · simp [creates, deletes, Ledger.held, hfresh, hgood]
        · simp [Ledger.held_update_of_ne l hc, creates, deletes]
      · cases h
  | disconnect c' =>
      simp only [clientOrder, Ledger.advance] at h
      split at h
      · rename_i hconnected
        cases h
        by_cases hc : c' = c
        · subst hc
          simp [creates, deletes, Ledger.held, hconnected]
        · simp [Ledger.held_update_of_ne l hc, creates, deletes]
      · cases h
  | clientDelete c' =>
      simp only [clientOrder, Ledger.advance] at h
      split at h
      · rename_i hphase
        cases h
        by_cases hc : c' = c
        · subst hc
          rcases hphase with hphase | hphase
          · simp [creates, deletes, Ledger.held, hphase]
          · simp [creates, deletes, Ledger.held, hphase]
        · simp [Ledger.held_update_of_ne l hc, creates, deletes, hc]
      · cases h
  | browse c' id => rw [hservice h]; simp [creates, deletes]
  | addNode c' item => rw [hservice h]; simp [creates, deletes]
  | deleteNode c' id refs => rw [hservice h]; simp [creates, deletes]
  | read c' id => rw [hservice h]; simp [creates, deletes]
  | write c' id value => rw [hservice h]; simp [creates, deletes]
  | writeRequestDeleteMembers => cases h; simp [creates, deletes]
  | assignOUT value => cases h; simp [creates, deletes]
  | sendOutputEvent eventId => cases h; simp [creates, deletes]

theorem held_run (h : clientOrder.run l tr = some l') :
    l.held c + tr.countP (creates c) = l'.held c + tr.countP (deletes c) := by
  -- Induction on the trace, one call at a time.
  induction tr generalizing l with
  | nil =>
      cases h
      simp
  | cons e tr ih =>
      rw [Monitor.run_cons] at h
      rcases Option.bind_eq_some_iff.1 h with ⟨m, hnext, hrest⟩
      have hhead := held_next (c := c) hnext
      have htail := ih hrest
      rw [List.countP_cons, List.countP_cons]
      omega

/-- After calls in order no client is left exactly when the ledger is clean. -/
theorem eq_allDead_iff (h : clientOrder.run Ledger.allDead tr = some l) :
    l = Ledger.allDead ↔ ∀ c, ¬ Alive c tr := by
  have hheld : ∀ c, Alive c tr ↔ l c ≠ .dead := by
    intro c
    have hcount := held_run (c := c) h
    have hzero : Ledger.allDead.held c = 0 := rfl
    rw [hzero, Ledger.held] at hcount
    unfold Alive
    split at hcount
    · rename_i hdead
      simp only [hdead, ne_eq, not_true_eq_false, iff_false]
      omega
    · rename_i halive
      simp only [ne_eq, halive, not_false_eq_true, iff_true]
      omega
  simp only [hheld, ne_eq, not_not]
  exact ⟨fun hl c => hl ▸ rfl, fun hl => funext hl⟩

/-- A call on a client that is not alive is out of order, except to create it. -/
theorem next_dead {o : Call} {r : o.Reply} (hl : l c = .dead) (ho : o.client? = some c) :
    clientOrder.next l ⟨o, r⟩ = none := by
  cases o <;> cases ho <;> simp [clientOrder, Ledger.advance, Ledger.service, hl]

/-- A call on a deleted client is out of order. -/
theorem run_deleted {past : List ClientEvent} {o : Call} {r : o.Reply} (hdel : Deleted c past)
    (ho : o.client? = some c) (l : Ledger) : clientOrder.run l (past ++ [⟨o, r⟩]) = none := by
  rcases hdel with ⟨before, after, rfl, hnew⟩
  rw [Monitor.run_append, Option.bind_eq_none_iff]
  intro m hpast
  rw [Monitor.run_append] at hpast
  rcases Option.bind_eq_some_iff.1 hpast with ⟨m₁, -, hafter⟩
  rw [Monitor.run_cons] at hafter
  rcases Option.bind_eq_some_iff.1 hafter with ⟨m₂, hdelete, hrest⟩
  have hdead : m₂.held c = 0 := by
    have hnext := held_next (c := c) hdelete
    have hone : m₁.held c ≤ 1 := by
      unfold Ledger.held
      split <;> omega
    simp [creates, deletes] at hnext
    omega
  -- Nothing creates the client again.
  have hcreate : after.countP (creates c) = 0 := by
    rw [List.countP_eq_zero]
    rintro ⟨o', r'⟩ hmem hcreates
    cases o' with
    | clientNew =>
        have hr : r' = c := by simpa [creates] using hcreates
        exact hnew (hr ▸ hmem)
    | _ => cases hcreates
  have hm : m c = .dead := by
    have hcount := held_run (c := c) hrest
    by_contra halive
    rw [hdead, hcreate, Ledger.held, if_neg halive] at hcount
    omega
  simp [next_dead hm ho]

end Counts

/-! ## Requests that the process survives -/

/-- From a clean ledger back to a clean ledger. -/
abbrev KeepsOrder (tr : List ClientEvent) : Prop :=
  clientOrder.Accepts (fun l => l = Ledger.allDead) Ledger.allDead tr

theorem OpcUaPublish.keepsOrder {sameText : SameText} {inputs : Inputs}
    {tr : List ClientEvent} (h : Run (executeEvent sameText eventREQ inputs) tr ()) :
    KeepsOrder tr := by
  rcases executeEvent_run h with rfl | ⟨c, r, hr, rfl⟩ | ⟨c, rest, hrest, rfl⟩
  · exact ⟨Ledger.allDead, rfl, rfl⟩
  · refine ⟨Ledger.allDead, ?_, rfl⟩
    simp [next_connect_bad c localServer hr]
  · rcases hrest with ⟨services, closed, hall, rfl⟩
    refine ⟨Ledger.allDead, ?_, rfl⟩
    simp [run_services hall]

theorem OpcUaWrite.keepsOrder (SERVER NODE : ByteString) {IN : Int16} {tr : List ClientEvent}
    (h : Run (executeEvent eventREQ SERVER NODE IN) tr ()) : KeepsOrder tr := by
  rcases executeEvent_run h with ⟨c, r, hr, rfl⟩ | ⟨c, wResp, closed, rfl⟩
  · refine ⟨Ledger.allDead, ?_, rfl⟩
    simp [next_connect_bad c localServer hr]
  · refine ⟨Ledger.allDead, ?_, rfl⟩
    have hwrite : (Call.write c theAnswer (requestValue IN.toInt32)).isServiceOn c := rfl
    simp [writeTrace, next_service (e := answered _ wResp) hwrite]

/-- A read request keeps the order exactly when its connect succeeds. -/
theorem readTrace_keepsOrder_iff {SERVER NODE : ByteString} {c : Handle}
    {connected closed : StatusCode} {rResp : ReadResponse} :
    KeepsOrder (readTrace eventCNF SERVER NODE c connected rResp closed) ↔
      connected = StatusCode.good := by
  constructor
  · rintro ⟨l, hrun, -⟩
    by_contra hc
    -- the refused client is deleted, so the read finds its handle dead
    simp [readTrace, refusal, hc, next_connect_bad c SERVER hc] at hrun
  · intro hc
    -- Connected, the read is a service like any other and the tail closes the client.
    refine ⟨Ledger.allDead, ?_, rfl⟩
    have hread : (Call.read c (NodeId.string 1 NODE)).isServiceOn c := rfl
    have htake : ∀ l, clientOrder.next l (takeValue eventCNF rResp) = some l := by
      intro l
      unfold takeValue
      split <;> rfl
    simp [readTrace, refusal, hc, next_service (e := answered _ rResp) hread, htake]

theorem readTrace_connect_iff {SERVER NODE : ByteString} {c : Handle}
    {connected closed : StatusCode} {rResp : ReadResponse} :
    (∀ c' url retval, answered (.connect c' url) retval ∈
        readTrace eventCNF SERVER NODE c connected rResp closed → retval = StatusCode.good) ↔
      connected = StatusCode.good := by
  constructor
  · intro h
    exact h c SERVER connected (by simp [readTrace])
  · rintro hc c' url retval hmem
    cases hval : rResp.firstInt32 with
    | none =>
        simp [readTrace, refusal, takeValue, release, hval, hc] at hmem
        exact hmem.2
    | some value =>
        simp [readTrace, refusal, takeValue, release, hval, hc] at hmem
        exact hmem.2

/-! ## Requests that may break off -/

open OpcUaPublish (Formatted clientView)

/-- The order of calls, read from the steps of a handler. -/
abbrev stepOrder : Monitor (Event Formatted) Ledger :=
  clientOrder.behind clientView

section Guards

variable {l l' : Ledger}

theorem guards_request {α : Type} {o : Call} {next : OpcUaPublish.RawReply o → Prog Formatted α}
    (h : ∀ r, clientOrder.next l (answered o (OpcUaPublish.shownReply o r)) = some l')
    (hnext : ∀ r, stepOrder.Guards l' (next r)) :
    stepOrder.Guards l (.call (S := Formatted) (.request o) next) :=
  fun r => ⟨l', h r, hnext r⟩

theorem guards_service {α : Type} {c : Handle} {o : Call}
    {next : OpcUaPublish.RawReply o → Prog Formatted α} (h : o.isServiceOn c)
    (hnext : ∀ r, stepOrder.Guards (.only c .connected) (next r)) :
    stepOrder.Guards (.only c .connected) (.call (S := Formatted) (.request o) next) :=
  guards_request (fun r => next_service (e := answered o (OpcUaPublish.shownReply o r)) h) hnext

theorem guards_written {α : Type} {w : OpcUaPublish.Sprintf} {next : Unit → Prog Formatted α}
    (hnext : ∀ r, stepOrder.Guards l (next r)) :
    stepOrder.Guards l (.call (S := Formatted) (.sprintf w) next) :=
  fun r => ⟨l, rfl, hnext r⟩

theorem guards_copied {α : Type} {source : Name} {next : Unit → Prog Formatted α}
    (hnext : ∀ r, stepOrder.Guards l (next r)) :
    stepOrder.Guards l (.call (S := Formatted) (.strcpy source) next) :=
  fun r => ⟨l, rfl, hnext r⟩

end Guards

namespace OpcUaPublish

namespace Formatting

variable {P : Platform} {client : Handle} {fb_id var_id : Name}

/-- A search makes no calls. -/
theorem guards_search {l : Ledger} {wanted : ByteString} {targets : List RawNodeId} {found : Bool}
    {next : Bool → Prog Formatted (Option Unit)} (hnext : ∀ flag, stepOrder.Guards l (next flag)) :
    stepOrder.Guards l
      (Option.elimM (searchLoop P wanted targets found).run (.ret none) next) := by
  induction targets generalizing found with
  | nil =>
      exact hnext found
  | cons nodeId targets ih =>
      rw [searchLoop, OptionT.run_bind, run_sprintf, elimM_call, elimM_call]
      refine guards_written fun _ => ?_
      cases htext : P.printed nodeId with
      | none => simp [Sprintf.text, htext]
      | some text => simpa [Sprintf.text, htext] using ih

theorem guards_finish : stepOrder.Guards (.only client .connected) (finish client) :=
  guards_request (fun r => next_disconnect client r) fun _ =>
    guards_request (fun _ => next_clientDelete_closed client) fun _ =>
      guards_request (fun _ => next_sendOutputEvent _ eventCNF) fun _ => trivial

theorem guards_addItemStage :
    stepOrder.Guards (.only client .connected) (addItemStage client fb_id var_id) :=
  guards_written fun _ => guards_written fun _ => guards_service rfl fun _ => guards_finish

theorem guards_deleteStage :
    stepOrder.Guards (.only client .connected) (deleteStage client fb_id var_id) :=
  guards_service rfl fun _ => guards_addItemStage

theorem guards_browseItemStage :
    stepOrder.Guards (.only client .connected) (browseItemStage P client fb_id var_id) :=
  guards_service rfl fun _ => guards_search fun _ =>
    Monitor.guards_ite _ (fun _ => guards_deleteStage) fun _ => guards_addItemStage

theorem guards_addObjectStage :
    stepOrder.Guards (.only client .connected) (addObjectStage client fb_id var_id) :=
  guards_written fun _ => guards_service rfl fun _ => guards_addItemStage

theorem guards_browseStage :
    stepOrder.Guards (.only client .connected) (browseStage P client fb_id var_id) :=
  guards_service rfl fun _ => guards_search fun _ =>
    Monitor.guards_ite _ (fun _ => guards_addObjectStage) fun _ => guards_browseItemStage

theorem guards_connectStage :
    stepOrder.Guards (.only client .fresh) (connectStage P client fb_id var_id) := by
  intro retval
  by_cases hgood : retval = StatusCode.good
  · refine ⟨.only client .connected, ?_, ?_⟩
    · rw [hgood]
      exact next_connect_good client localServer
    · dsimp only
      rw [if_pos hgood]
      exact guards_browseStage
  · refine ⟨.only client .refused, next_connect_bad client localServer hgood, ?_⟩
    dsimp only
    rw [if_neg hgood]
    exact guards_request (fun _ => next_clientDelete_refused client) fun _ =>
      guards_request (fun _ => next_sendOutputEvent _ eventCNF) fun _ => trivial

theorem guards_newStage (source : SourcePoint) :
    stepOrder.Guards Ledger.allDead (newStage P source) :=
  guards_written fun _ => guards_copied fun _ => guards_copied fun _ => guards_written fun _ =>
    fun client => ⟨.only client .fresh, next_clientNew client, guards_connectStage⟩

/-- The calls of a publisher are in order at every step. -/
theorem guards_executeEvent (connection : Option SourcePoint) :
    stepOrder.Guards Ledger.allDead (executeEvent P eventREQ connection).run := by
  cases connection with
  | none =>
      exact guards_request (o := .sendOutputEvent eventCNF)
        (fun _ => next_sendOutputEvent _ eventCNF) fun _ => trivial
  | some source =>
      rw [executeEvent_connected]
      exact guards_newStage source

end Formatting

end OpcUaPublish

/-- So are those of `OPC_UA_WRITE`. -/
theorem OpcUaWrite.guards_executeEvent (SERVER NODE : ByteString) (IN : Int16) :
    stepOrder.Guards Ledger.allDead (raised (executeEvent eventREQ SERVER NODE IN)) := by
  rw [executeEvent_eq]
  intro client
  refine ⟨.only client .fresh, next_clientNew client, ?_⟩
  intro retval
  by_cases hgood : retval = StatusCode.good
  · refine ⟨.only client .connected, ?_, ?_⟩
    · rw [hgood]
      exact next_connect_good client localServer
    · have hwrite : stepOrder.Guards (.only client .connected)
          (raised (.call (.write client theAnswer (requestValue IN.toInt32)) fun _ =>
            .call .writeRequestDeleteMembers fun _ => finish client eventCNF)) :=
        guards_service rfl fun _ =>
          guards_request (fun _ => next_writeRequestDeleteMembers _) fun _ =>
            guards_request (fun r => next_disconnect client r) fun _ =>
              guards_request (fun _ => next_clientDelete_closed client) fun _ =>
                guards_request (fun _ => next_sendOutputEvent _ eventCNF) fun _ => trivial
      simpa [OpcUaPublish.shownReply, hgood] using hwrite
  · refine ⟨.only client .refused, next_connect_bad client localServer hgood, ?_⟩
    have hdelete : stepOrder.Guards (.only client .refused)
        (raised (.call (.clientDelete client) .ret)) :=
      guards_request (fun _ => next_clientDelete_refused client) fun _ => trivial
    simpa [OpcUaPublish.shownReply, hgood] using hdelete

/-! ## Whole runs -/

section Runs

variable {P : Platform}

/-- Every connect of a read or subscribe request succeeds. -/
def Delivered.Connects (x : Delivered P) : Prop :=
  match x.delivery with
  | .read _ _ | .subscribe _ _ =>
      ∀ c url retval, answered (.connect c url) retval ∈ x.whole.filterMap clientView.event →
        retval = StatusCode.good
  | _ => True

/-- If the process ends at an undefined operation, no client is left. -/
def Delivered.LeavesNone (x : Delivered P) : Prop :=
  x.Dies → ∀ c, ¬ Alive c x.calls

/-- A prefix of calls in order keeps the order exactly when no client is left. -/
theorem Delivered.keepsOrder_iff_of_guards (x : Delivered P)
    (h : stepOrder.Guards Ledger.allDead (x.delivery.routine P)) :
    KeepsOrder x.calls ↔ ∀ c, ¬ Alive c x.calls := by
  rcases h.run_prefix x.ran x.shown.isPrefix with ⟨l, hl⟩
  rw [Monitor.run_behind] at hl
  have hl : clientOrder.run Ledger.allDead x.calls = some l := hl
  constructor
  · rintro ⟨l', hl', hdead⟩
    exact (eq_allDead_iff hl').1 hdead
  · intro hnone
    exact ⟨l, hl, (eq_allDead_iff hl).2 hnone⟩

theorem readValue_frees_nothing (eventId : ℕ) (SERVER NODE : ByteString) :
    (readValue eventId SERVER NODE).Always (· ≠ Call.writeRequestDeleteMembers) := by
  have hread : ∀ c : Handle,
      (readStage eventId c NODE).Always (· ≠ Call.writeRequestDeleteMembers) := by
    intro c
    refine ⟨by simp, fun rResp => ?_⟩
    dsimp only
    split
    · simp [finish]
    · simp [finish]
  rw [readValue_eq]
  simp [hread]

/-- A read request makes no undefined call but on the client that a failed connect has deleted. -/
theorem Delivered.keepsOrder_iff_of_read (x : Delivered P) {SERVER NODE : ByteString}
    (h : x.delivery.routine P = raised (readValue eventCNF SERVER NODE)) :
    KeepsOrder x.calls ↔ ∀ c url retval,
      answered (.connect c url) retval ∈ x.whole.filterMap clientView.event →
        retval = StatusCode.good := by
  rcases x with ⟨delivery, whole, result, ran, seen, shown⟩
  rw [h] at ran
  have hcalls : ∃ c connected rResp closed, whole.filterMap clientView.event =
      readTrace eventCNF SERVER NODE c connected rResp closed :=
    readValue_run (run_of_raised ran)
  rcases hcalls with ⟨c, connected, rResp, closed, hcalls⟩
  rw [hcalls, readTrace_connect_iff]
  rcases shown.eq_or_breaks with rfl | ⟨past, ⟨o, r⟩, rfl, hundefined⟩
  · rw [calls, hcalls]
    exact readTrace_keepsOrder_iff
  · -- Broken off, the trace ends with a call on a deleted client.
    rcases ran.always (raised_always (readValue_frees_nothing eventCNF SERVER NODE)) ⟨o, r⟩
      (shown.isPrefix.subset (by simp)) with ⟨o', rfl, hne⟩
    rcases hundefined.resolve_left hne with ⟨c', hclient, hdel⟩
    have hnone := run_deleted (r := OpcUaPublish.shownReply o' r) hdel hclient Ledger.allDead
    have hview : (past ++ [(⟨.request o', r⟩ : Event Formatted)]).filterMap clientView.event =
        past.filterMap clientView.event ++ [answered o' (OpcUaPublish.shownReply o' r)] := by
      rw [List.filterMap_append, List.filterMap_cons_some (event_request o' r), List.filterMap_nil]
    constructor
    · rintro ⟨l, hl, -⟩
      rw [calls, hview, hnone] at hl
      cases hl
    · intro hgood
      -- Of an accepted trace every part is accepted.
      rcases readTrace_keepsOrder_iff.2 hgood with ⟨l, hl, -⟩
      rcases shown.isPrefix with ⟨rest, hrest⟩
      rw [← hcalls, ← hrest, List.filterMap_append, Monitor.run_append, hview, hnone] at hl
      cases hl

/-- One request keeps the order exactly when, if it reads, it gets its connection, and no client is
left where the process ends. -/
theorem Delivered.keepsOrder_iff (x : Delivered P) :
    KeepsOrder x.calls ↔ x.Connects ∧ x.LeavesNone := by
  have hclean : KeepsOrder x.calls → ∀ c, ¬ Alive c x.calls := by
    rintro ⟨l, hl, hdead⟩
    exact (eq_allDead_iff hl).1 hdead
  -- Publish and write requests are in order as far as they are seen.
  have hguarded : stepOrder.Guards Ledger.allDead (x.delivery.routine P) →
      (¬ x.Dies → KeepsOrder x.calls) → (KeepsOrder x.calls ↔ x.LeavesNone) := by
    intro hguards hsurvived
    constructor
    · exact fun h _ => hclean h
    · intro hleaves
      by_cases hdies : x.Dies
      · exact (x.keepsOrder_iff_of_guards hguards).2 (hleaves hdies)
      · exact hsurvived hdies
  cases hdelivery : x.delivery with
  | publish connection =>
      have hconnects : x.Connects := by simp [Connects, hdelivery]
      rw [and_iff_right hconnects]
      refine hguarded ?_ fun hdies => ?_
      · rw [hdelivery]
        exact OpcUaPublish.Formatting.guards_executeEvent connection
      · rcases x.handled hdies with ⟨sameText, ⟨request, tr, ran⟩, hrequest, rfl⟩
        rw [hdelivery] at hrequest
        subst hrequest
        exact OpcUaPublish.keepsOrder ran
  | read SERVER NODE =>
      have hread := x.keepsOrder_iff_of_read (congrArg (Delivery.routine P) hdelivery)
      rw [LeavesNone, Connects, hdelivery, ← hread]
      exact ⟨fun h => ⟨h, fun _ => hclean h⟩, And.left⟩
  | subscribe SERVER NODE =>
      have hread := x.keepsOrder_iff_of_read (congrArg (Delivery.routine P) hdelivery)
      rw [LeavesNone, Connects, hdelivery, ← hread]
      exact ⟨fun h => ⟨h, fun _ => hclean h⟩, And.left⟩
  | write SERVER NODE IN =>
      have hconnects : x.Connects := by simp [Connects, hdelivery]
      rw [and_iff_right hconnects]
      refine hguarded ?_ fun hdies => ?_
      · rw [hdelivery]
        exact OpcUaWrite.guards_executeEvent SERVER NODE IN
      · rcases x.handled hdies with ⟨sameText, ⟨request, tr, ran⟩, hrequest, rfl⟩
        rw [hdelivery] at hrequest
        subst hrequest
        exact OpcUaWrite.keepsOrder SERVER NODE ran

/-- In a run of requests to the four blocks every client is used in legal order and released
before its request returns, exactly when every read and subscribe request connects and no client is
left where the process ends at an operation that C leaves undefined. -/
theorem legalOrder_iff (run : List (Delivered P)) :
    LegalOrder run ↔ ∀ x ∈ run, x.Connects ∧ x.LeavesNone := by
  -- Every request ends with the ledger it started from, so requests can be looked at singly.
  refine Monitor.acceptsBlocks_iff ?_ run Ledger.allDead rfl
  rintro l x rfl
  exact x.keepsOrder_iff

end Runs

/-- The steps of a subscribe request to a server that is not there: it reads on, disconnects and
deletes the client it has already deleted. -/
def refusedSubscribeTrace : List (Event Formatted) :=
  [OpcUaPublish.replied (.assignOUT 0) (),
    OpcUaPublish.replied .clientNew (0 : Handle),
    OpcUaPublish.replied (.connect 0 (ascii "opc.tcp://plc:4840")) StatusCode.badConnectionClosed,
    OpcUaPublish.replied (.clientDelete 0) (),
    OpcUaPublish.replied (.sendOutputEvent eventCNF) (),
    OpcUaPublish.replied (.read 0 (NodeId.string 1 (ascii "a")))
      ({ serviceResult := StatusCode.badConnectionClosed, results := [] } : ReadResponse),
    OpcUaPublish.replied (.sendOutputEvent eventCNF) (),
    OpcUaPublish.replied (.disconnect 0) StatusCode.good,
    OpcUaPublish.replied (.clientDelete 0) (),
    OpcUaPublish.replied (.sendOutputEvent eventCNF) ()]

/-- The request with these steps, as a process survives it. -/
def refusedSubscribe : Delivered glibc where
  delivery := .subscribe (ascii "opc.tcp://plc:4840") (ascii "a")
  whole := refusedSubscribeTrace
  result := some ()
  ran := raised_run (readTrace_run eventCNF (ascii "opc.tcp://plc:4840") (ascii "a") 0
    StatusCode.badConnectionClosed _ StatusCode.good) (by simp [refusedSubscribeTrace])
  seen := refusedSubscribeTrace
  shown := .whole

theorem refusedSubscribe_out_of_order : ¬ LegalOrder [refusedSubscribe] := by
  rintro ⟨l, hrun, -⟩
  cases hrun

end ForteOpcUa
