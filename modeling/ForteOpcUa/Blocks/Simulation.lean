import ForteOpcUa.Blocks.Shows
import ForteOpcUa.Client.Effects

/-!
# Simulation — publishers of a device as publishers at a board

The points at which a handler stands between two requests are the program counters of `Billboard`.
`Served` says what answering the pending request of a publisher does, one theorem for each point;
`simulates_step` puts them together: every step of the device without a failure is a step at the
board, with the same history.  Read requests are bystanders.
-/

namespace ForteOpcUa

open Interaction
open Interaction.Prog
open Billboard (Board Setting Slot Verdict Pc Deed Note State Cast)
open OpcUaPublish

/-! ## Program counters -/

/-- The rest of the handler of a publisher that stands at a program counter. -/
def stageCode (p : DataPoint) (c : Handle) : Pc → Option (Prog Client Unit)
  | .idle => none
  | .create => some (newStage exactText p.fb_id p.var_id)
  | .connect => some (connectStage exactText c p.fb_id p.var_id)
  | .browse => some (browseStage exactText c p.fb_id p.var_id)
  | .addTopic => some (addObjectStage c p.fb_id p.var_id)
  | .browseItem => some (browseItemStage exactText c p.fb_id p.var_id)
  | .remove => some (deleteStage c p.fb_id p.var_id)
  | .addItem => some (addItemStage c p.fb_id p.var_id)
  | .disconnect => some (finish c eventCNF)
  | .release =>
      some (.call (.clientDelete c) fun _ => .call (.sendOutputEvent eventCNF) .ret)
  | .confirm => some (.call (.sendOutputEvent eventCNF) .ret)

/-- The state of its client there. -/
def stageLink : Pc → Link → Prop
  | .idle, _ => True
  -- Before there is a client, and once it is released, its state does not matter.
  | .create, _ => True
  | .connect, l => l = .fresh
  | .release, _ => True
  | .confirm, _ => True
  | _, l => l = .connected localServer

/-- The thread stands at a program counter of a publisher of data point `p`. -/
def Stands (p : DataPoint) (pc : Pc) (t : Thread Client Station) : Prop :=
  ∃ c, t.code = stageCode p c pc ∧ stageLink pc (t.loc.link c)

/-- What a request shows in the history of the board. -/
def deedOf : (o : Call) → o.Reply → Deed
  | .browse _ id, _ => if id = objectsFolder then .looked else .quiet
  | .addNode _ item, status => if item.isVariable then .added (verdictOf status) else .quiet
  | .deleteNode _ _ _, status => .removed (status = StatusCode.good)
  | .sendOutputEvent _, _ => .confirmed
  | _, _ => .quiet

/-- A request of the device's history as a note. -/
def view {ι : Type} (e : Entry Client ι) : Note ι :=
  { who := e.thread, round := e.round, deed := deedOf e.op e.reply }

/-! ## Answering the pending request -/

/-- The thread after its pending request was answered. -/
def afterServe (t : Thread Client Station) (net : Network) (o : Call)
    (next : o.Reply → Prog Client Unit) : Thread Client Station :=
  { t with loc := (serve o t.loc net).2.1 }.settle (next (serve o t.loc net).1)

/-- Answering request `o` of a publisher at `pc` is its turn at the board: the same effect, the
program counter `pc'` and the deed. -/
structure Served (σ₀ : Server) (b : Board Name DataPoint) (p : DataPoint) (pc pc' : Pc)
    (t : Thread Client Station) (net : Network) (o : Call)
    (next : o.Reply → Prog Client Unit) : Prop where
  shows : ∃ σ', (serve o t.loc net).2.2 = net.set localServer σ' ∧
    Shows σ₀ (pc.effect (setting σ₀) b p) σ'
  stands : Stands p pc' (afterServe t net o next)
  deed : pc.deed (setting σ₀) b p = [deedOf o (serve o t.loc net).1]
  round : (afterServe t net o next).round = if pc = .confirm then t.round + 1 else t.round

section Served

variable {σ₀ σ : Server} {b : Board Name DataPoint} {p : DataPoint} {c : Handle}
variable {t : Thread Client Station} {net : Network} {connected : Prop}

/-- A request after which the handler stands at `pc'` with the local state `l`. -/
theorem Served.of_after {σ' : Server} {pc pc' : Pc} {o : Call}
    {next : o.Reply → Prog Client Unit} {l : Station}
    (hnet : (serve o t.loc net).2.2 = net.set localServer σ')
    (hshows : Shows σ₀ (pc.effect (setting σ₀) b p) σ')
    (hafter : afterServe t net o next = { t with code := stageCode p c pc', loc := l })
    (hlink : stageLink pc' (l.link c)) (hpc : pc ≠ .confirm)
    (hdeed : pc.deed (setting σ₀) b p = [deedOf o (serve o t.loc net).1]) :
    Served σ₀ b p pc pc' t net o next where
  shows := ⟨σ', hnet, hshows⟩
  stands := by
    rw [hafter]
    exact ⟨c, rfl, hlink⟩
  deed := hdeed
  round := by
    rw [hafter, if_neg hpc]

theorem served_create (hnet : net localServer = some σ) (h : Shows σ₀ b σ) :
    Served σ₀ b p .create .connect t net .clientNew
      fun c => connectStage exactText c p.fb_id p.var_id :=
  .of_after (Network.set_eq_self hnet).symm h rfl t.loc.create_link_self (by simp) rfl

theorem served_connect (hnet : net localServer = some σ) (h : Shows σ₀ b σ)
    (hfresh : t.loc.link c = .fresh) :
    Served σ₀ b p .connect .browse t net (.connect c localServer) fun retval =>
      if retval = StatusCode.good then
        browseStage exactText c p.fb_id p.var_id
      else
        .call (.clientDelete c) fun _ => .call (.sendOutputEvent eventCNF) .ret := by
  have hserve := serve_connect hfresh net localServer
  -- A server listens at the local address, so the refusing branch is not taken.
  rw [hnet] at hserve
  refine .of_after (c := c) (l := t.loc.set c (.connected localServer)) ?_ h ?_
    (Station.set_link_self ..) (by simp) rfl
  · rw [hserve]
    exact (Network.set_eq_self hnet).symm
  · simp only [afterServe, hserve, if_true]
    rfl

theorem served_browse (hat : Attached localServer c t.loc net σ) (h : Shows σ₀ b σ)
    (hwf : b.WellFormed (setting σ₀)) :
    Served σ₀ b p .browse (Pc.browse.next (setting σ₀) b p connected) t net
      (.browse c objectsFolder) fun bResp =>
        if search exactText bResp p.fb_id.text = false then
          addObjectStage c p.fb_id p.var_id
        else
          browseItemStage exactText c p.fb_id p.var_id := by
  have hsearch := h.findsTopic_iff hwf p
  have hnet := hat.browse_network objectsFolder
  -- What the search reports on the address space is what the board finds.
  by_cases hfind : b.FindsTopic (setting σ₀) p.fb_id
  · have hnext : Pc.browse.next (setting σ₀) b p connected = .browseItem := if_pos hfind
    rw [hnext]
    refine .of_after (c := c) (l := t.loc) hnet h ?_ hat.link (by simp) rfl
    simp only [afterServe, hat.browse, hsearch.1 hfind, Bool.true_eq_false, if_false]
    rfl
  · have hnext : Pc.browse.next (setting σ₀) b p connected = .addTopic := if_neg hfind
    have hmiss := Bool.eq_false_iff.2 fun hfound => hfind (hsearch.2 hfound)
    rw [hnext]
    refine .of_after (c := c) (l := t.loc) hnet h ?_ hat.link (by simp) rfl
    simp only [afterServe, hat.browse, hmiss, if_true]
    rfl

theorem served_addTopic (hat : Attached localServer c t.loc net σ) (h : Shows σ₀ b σ)
    (hwf : b.WellFormed (setting σ₀)) :
    Served σ₀ b p .addTopic .addItem t net (.addNode c (objectItem p.fb_id))
      fun _ => addItemStage c p.fb_id p.var_id := by
  refine .of_after (c := c) (l := t.loc) ?_ (h.addTopic hwf p) ?_ hat.link (by simp) rfl
  · rw [hat.addNode]
    rfl
  · simp only [afterServe, hat.addNode]
    rfl

theorem served_browseItem (hat : Attached localServer c t.loc net σ) (h : Shows σ₀ b σ)
    (hwf : b.WellFormed (setting σ₀)) :
    Served σ₀ b p .browseItem (Pc.browseItem.next (setting σ₀) b p connected) t net
      (.browse c (objectId p.fb_id)) fun bResp =>
        if search exactText bResp (varBrowseId p.fb_id p.var_id) then
          deleteStage c p.fb_id p.var_id
        else
          addItemStage c p.fb_id p.var_id := by
  have hsearch := h.findsItem_iff hwf p
  have hnet := hat.browse_network (objectId p.fb_id)
  -- Only the look at the objects folder shows in the history.
  have hdeed : Pc.browseItem.deed (setting σ₀) b p =
      [deedOf (.browse c (objectId p.fb_id))
        (serve (.browse c (objectId p.fb_id)) t.loc net).1] := by
    have hne : objectId p.fb_id ≠ objectsFolder := p.objectId_ne_objectsFolder
    simp only [Pc.deed, deedOf, if_neg hne]
  by_cases hfind : b.FindsItem (setting σ₀) p
  · have hnext : Pc.browseItem.next (setting σ₀) b p connected = .remove := if_pos hfind
    rw [hnext]
    refine .of_after (c := c) (l := t.loc) hnet h ?_ hat.link (by simp) hdeed
    have hfound := hsearch.1 hfind
    rw [DataPoint.objectId] at hfound
    simp only [afterServe, hat.browse, hfound, if_true]
    rfl
  · have hnext : Pc.browseItem.next (setting σ₀) b p connected = .addItem := if_neg hfind
    have hmiss := Bool.eq_false_iff.2 fun hfound => hfind (hsearch.2 hfound)
    rw [DataPoint.objectId] at hmiss
    rw [hnext]
    refine .of_after (c := c) (l := t.loc) hnet h ?_ hat.link (by simp) hdeed
    simp only [afterServe, hat.browse, hmiss, Bool.false_eq_true, if_false]
    rfl

theorem served_remove (hat : Attached localServer c t.loc net σ) (h : Shows σ₀ b σ) :
    Served σ₀ b p .remove .addItem t net
      (.deleteNode c (NodeId.string 1 (varBrowseId p.fb_id p.var_id)) false)
      fun _ => addItemStage c p.fb_id p.var_id := by
  have hremove := h.removeItem p
  refine .of_after (c := c) (l := t.loc) ?_ hremove.1 ?_ hat.link (by simp) ?_
  · rw [hat.deleteNode]
    rfl
  · simp only [afterServe, hat.deleteNode]
    rfl
  · rw [hat.deleteNode]
    simp only [Pc.deed, deedOf, hremove.2]
    rfl

theorem served_addItem (hat : Attached localServer c t.loc net σ) (h : Shows σ₀ b σ) :
    Served σ₀ b p .addItem .disconnect t net (.addNode c (variableItem p.fb_id p.var_id))
      fun _ => finish c eventCNF := by
  have hadd := h.addItem p
  refine .of_after (c := c) (l := t.loc) ?_ hadd.1 ?_ hat.link (by simp) ?_
  · rw [hat.addNode]
    rfl
  · simp only [afterServe, hat.addNode]
    rfl
  · rw [hat.addNode]
    simp only [Pc.deed, deedOf, hadd.2]
    rfl

theorem served_disconnect (hat : Attached localServer c t.loc net σ) (h : Shows σ₀ b σ) :
    Served σ₀ b p .disconnect .release t net (.disconnect c) fun _ =>
      .call (.clientDelete c) fun _ => .call (.sendOutputEvent eventCNF) .ret := by
  refine .of_after (c := c) (l := t.loc.set c .closed) ?_ h ?_ trivial (by simp) rfl
  · rw [hat.disconnect]
    exact (Network.set_eq_self hat.server).symm
  · simp only [afterServe, hat.disconnect]
    rfl

theorem served_release (hnet : net localServer = some σ) (h : Shows σ₀ b σ) :
    Served σ₀ b p .release .confirm t net (.clientDelete c)
      fun _ => .call (.sendOutputEvent eventCNF) .ret :=
  .of_after (c := c) (Network.set_eq_self hnet).symm h rfl trivial (by simp) rfl

theorem served_confirm (hnet : net localServer = some σ) (h : Shows σ₀ b σ) :
    Served σ₀ b p .confirm .idle t net (.sendOutputEvent eventCNF) .ret where
  shows := ⟨σ, (Network.set_eq_self hnet).symm, h⟩
  stands := ⟨0, rfl, trivial⟩
  deed := rfl
  round := rfl

/-- Answering the pending request of a publisher is its turn. -/
theorem served {pc : Pc} {o : Call} {next : o.Reply → Prog Client Unit} (connected : Prop)
    (hnet : net localServer = some σ) (h : Shows σ₀ b σ) (hwf : b.WellFormed (setting σ₀))
    (hstands : Stands p pc t) (hcode : t.code = some (.call o next)) :
    Served σ₀ b p pc (pc.next (setting σ₀) b p connected) t net o next := by
  rcases hstands with ⟨c, hstage, hlink⟩
  rw [hcode] at hstage
  -- The pending request determines the point at which the publisher stands.
  cases pc with
  | idle => cases hstage
  | create =>
      cases hstage
      exact served_create hnet h
  | connect =>
      cases hstage
      exact served_connect hnet h hlink
  | browse =>
      cases hstage
      exact served_browse ⟨hlink, hnet⟩ h hwf
  | addTopic =>
      cases hstage
      exact served_addTopic ⟨hlink, hnet⟩ h hwf
  | browseItem =>
      cases hstage
      exact served_browseItem ⟨hlink, hnet⟩ h hwf
  | remove =>
      cases hstage
      exact served_remove ⟨hlink, hnet⟩ h
  | addItem =>
      cases hstage
      exact served_addItem ⟨hlink, hnet⟩ h
  | disconnect =>
      cases hstage
      exact served_disconnect ⟨hlink, hnet⟩ h
  | release =>
      cases hstage
      exact served_release hnet h
  | confirm =>
      cases hstage
      exact served_confirm hnet h

end Served

/-! ## Publishers and readers -/

/-- An instance of `OPC_UA_PUBLISH`: its data point and the inputs of each round, connected to the
data point or not at all. -/
structure Publisher where
  point : DataPoint
  inputs : ℕ → Inputs
  wired : ∀ r, (inputs r).connection = none ∨ (inputs r).Publishes point

/-- A block of the device: a publisher, or an instance of `OPC_UA_READ` with its inputs. -/
inductive Block
  | publisher (p : Publisher)
  | reader (SERVER NODE : ℕ → ByteString)

namespace Block

/-- The request of a round. -/
def request : Block → ℕ → Request
  | publisher p, r => .publish (p.inputs r)
  | reader SERVER NODE, r => .read (SERVER r) (NODE r)

/-- The data point of a publisher. -/
def point : Block → Option DataPoint
  | publisher p => some p.point
  | reader _ _ => none

/-- In this round the block publishes. -/
def Publishes : Block → ℕ → Prop
  | publisher p, r => (p.inputs r).connection ≠ none
  | reader _ _, _ => False

end Block

/-- The device with exact search loops; by `Formatting.executeEvent_exact` those of a publisher are on
clear replies. -/
def site {ι : Type} (blocks : ι → Block) : System Client ι Station Network Fault :=
  device fun i r => ((blocks i).request r).program exactText

/-- Its publishers at the board. -/
def cast {ι : Type} (blocks : ι → Block) : Cast ι DataPoint where
  item i := (blocks i).point
  connected i r := (blocks i).Publishes r

/-- A read request changes no server, whatever happens. -/
theorem readValue_harmless (eventId : ℕ) (SERVER NODE : ByteString) :
    (readValue eventId SERVER NODE).Always Call.Harmless := by
  -- The read stage is shared by both branches after the connect.
  have hread : ∀ c, (readStage eventId c NODE).Always Call.Harmless := by
    intro c
    refine ⟨trivial, fun rResp => ?_⟩
    beta_reduce
    split <;> simp [finish, Call.Harmless]
  rw [readValue_eq]
  simp [Call.Harmless, hread]

/-! ## The simulation -/

section Simulation

variable {ι : Type} [DecidableEq ι]

/-- The device `c` and the board `s` are in corresponding states: publishers stand at their program
counters, readers can do no harm, the local server shows the board, the other servers are as they
were, and the histories agree. -/
structure Simulates (blocks : ι → Block) (net₀ : Network) (σ₀ : Server)
    (c : Config Client ι Station Network) (s : State ι Name DataPoint) : Prop where
  ready : Billboard.Ready (setting σ₀) (cast blocks) s
  stands : ∀ i p, (blocks i).point = some p → Stands p (s.pc i) (c.thread i)
  round : ∀ i p, (blocks i).point = some p → (c.thread i).round = s.round i
  harmless : ∀ i, (blocks i).point = none → ∀ q, (c.thread i).code = some q →
    q.Always Call.Harmless
  shown : ∃ σ, c.shared localServer = some σ ∧ Shows σ₀ s.board σ
  elsewhere : ∀ url, url ≠ localServer → c.shared url = net₀ url
  log : c.log.map view = s.log

variable {blocks : ι → Block} {net₀ : Network} {σ₀ : Server}
variable {c c' : Config Client ι Station Network} {s : State ι Name DataPoint}

omit [DecidableEq ι] in
theorem simulates_init (h : net₀ localServer = some σ₀) :
    Simulates blocks net₀ σ₀ (System.init (fun _ => Station.init) net₀) State.init where
  ready := Billboard.ready_init
  stands i p _ := ⟨0, rfl, trivial⟩
  round i p _ := rfl
  harmless i _ q hq := by cases hq
  shown := ⟨σ₀, h, shows_init σ₀⟩
  elsewhere url _ := rfl
  log := rfl

/-- A publisher without a program is idle. -/
theorem Stands.eq_idle {p : DataPoint} {pc : Pc} {t : Thread Client Station}
    (h : Stands p pc t) (hcode : t.code = none) : pc = .idle := by
  rcases h with ⟨c, hstage, -⟩
  rw [hcode] at hstage
  -- Every other point has a program left.
  cases pc with
  | idle => rfl
  | _ => cases hstage

omit [DecidableEq ι] in
/-- With no request in flight no publisher moves. -/
theorem Simulates.quiescent (h : Simulates blocks net₀ σ₀ c s) (hq : System.Quiescent c) :
    Billboard.Quiescent (cast blocks) s :=
  fun i p hp => (h.stands i p hp).eq_idle (hq i)

/-- The first program counter of a round. -/
theorem stands_start (σ₀ : Server) (q : Publisher) (r : ℕ) (b : Board Name DataPoint)
    (t : Thread Client Station) :
    Stands q.point (Pc.idle.next (setting σ₀) b q.point ((q.inputs r).connection ≠ none))
        (t.settle ((Request.publish (q.inputs r)).program exactText)) ∧
      (t.settle ((Request.publish (q.inputs r)).program exactText)).round = t.round := by
  -- Without a connection the round is only confirmed.
  rcases q.wired r with hnone | hpub
  · have hnext : Pc.idle.next (setting σ₀) b q.point ((q.inputs r).connection ≠ none) =
        .confirm := if_neg (not_not.2 hnone)
    rw [hnext, Request.program, executeEvent_unconnected hnone]
    exact ⟨⟨0, rfl, trivial⟩, rfl⟩
  · have hconn : (q.inputs r).connection ≠ none := by
      rcases hpub with ⟨source, hsource, -⟩
      simp [hsource]
    have hnext : Pc.idle.next (setting σ₀) b q.point ((q.inputs r).connection ≠ none) =
        .create := if_pos hconn
    rw [hnext, Request.program, hpub.executeEvent_eq]
    exact ⟨⟨0, rfl, trivial⟩, rfl⟩

/-- The matching step of a bystander. -/
theorem simulates_pass (i : ι) (round : ℕ) (entries : List (Entry Client ι))
    (hpoint : (blocks i).point = none) (h : Simulates blocks net₀ σ₀ c s)
    (hthread : ∀ j, j ≠ i → c'.thread j = c.thread j)
    (hharmless : ∀ q, (c'.thread i).code = some q → q.Always Call.Harmless)
    (hshared : c'.shared = c.shared) (hlog : c'.log = c.log ++ entries)
    (hone : entries.length ≤ 1) (hwho : ∀ e ∈ entries, e.thread = i) :
    ∃ s', Billboard.Step (setting σ₀) (cast blocks) s s' ∧ Simulates blocks net₀ σ₀ c' s' := by
  have hstep : Billboard.Step (setting σ₀) (cast blocks) s
      (s.pass i round (entries.map view)) := by
    refine .pass s i round _ hpoint (by simpa using hone) ?_
    intro n hn
    rcases List.mem_map.1 hn with ⟨e, he, rfl⟩
    exact hwho e he
  -- Publishers are other threads, so nothing of theirs has moved.
  have hitem : (cast blocks).item i = none := hpoint
  have hne : ∀ {j p}, (blocks j).point = some p → j ≠ i := fun hj => Cast.ne_of_item hitem hj
  refine ⟨_, hstep, ⟨Billboard.ready_step hstep h.ready, ?_, ?_, ?_, ?_, ?_, ?_⟩⟩
  · intro j p hj
    rw [hthread j (hne hj)]
    exact h.stands j p hj
  · intro j p hj
    rw [hthread j (hne hj), State.pass_round_of_ne (hne hj)]
    exact h.round j p hj
  · intro j hj q hq
    by_cases hji : j = i
    · subst hji
      exact hharmless q hq
    · rw [hthread j hji] at hq
      exact h.harmless j hj q hq
  · rw [hshared]
    exact h.shown
  · intro url hurl
    rw [hshared]
    exact h.elsewhere url hurl
  · rw [hlog, List.map_append, h.log]
    rfl

/-- The matching step of a publisher. -/
theorem simulates_turn {i : ι} {p : DataPoint} {σ : Server} (entries : List (Entry Client ι))
    (hpoint : (blocks i).point = some p) (h : Simulates blocks net₀ σ₀ c s)
    (hthread : ∀ j, j ≠ i → c'.thread j = c.thread j)
    (hstands : Stands p ((s.pc i).next (setting σ₀) s.board p
      ((cast blocks).connected i (s.round i))) (c'.thread i))
    (hround : (c'.thread i).round =
      if s.pc i = .confirm then (c.thread i).round + 1 else (c.thread i).round)
    (hlocal : c'.shared localServer = some σ)
    (hshows : Shows σ₀ ((s.pc i).effect (setting σ₀) s.board p) σ)
    (helse : ∀ url, url ≠ localServer → c'.shared url = c.shared url)
    (hlog : c'.log = c.log ++ entries)
    (hview : entries.map view =
      ((s.pc i).deed (setting σ₀) s.board p).map fun d => ⟨i, s.round i, d⟩) :
    ∃ s', Billboard.Step (setting σ₀) (cast blocks) s s' ∧ Simulates blocks net₀ σ₀ c' s' := by
  have hstep : Billboard.Step (setting σ₀) (cast blocks) s
      (s.turn (setting σ₀) (cast blocks) i p) := .turn s i p hpoint
  -- One field after the other: the publisher itself by the hypotheses, the rest as before.
  refine ⟨_, hstep, ⟨Billboard.ready_step hstep h.ready, ?_, ?_, ?_, ⟨σ, hlocal, hshows⟩, ?_, ?_⟩⟩
  · intro j q hj
    by_cases hji : j = i
    · subst hji
      cases hpoint.symm.trans hj
      rw [State.turn_pc_self]
      exact hstands
    · rw [hthread j hji, State.turn_pc_of_ne hji]
      exact h.stands j q hj
  · intro j q hj
    by_cases hji : j = i
    · subst hji
      rw [hround, h.round j q hj, State.turn_round_self]
    · rw [hthread j hji, State.turn_round_of_ne hji]
      exact h.round j q hj
  · intro j hj q hq
    have hji : j ≠ i := by
      rintro rfl
      cases hpoint.symm.trans hj
    rw [hthread j hji] at hq
    exact h.harmless j hj q hq
  · intro url hurl
    rw [helse url hurl]
    exact h.elsewhere url hurl
  · rw [hlog, List.map_append, h.log, hview]
    rfl

theorem simulates_start {i : ι} (h : Simulates blocks net₀ σ₀ c s)
    (hcode : (c.thread i).code = none) :
    ∃ s', Billboard.Step (setting σ₀) (cast blocks) s s' ∧
      Simulates blocks net₀ σ₀ ((site blocks).started c i) s' := by
  cases hblock : blocks i with
  -- A reader starts: nothing shows, and its program is harmless.
  | reader SERVER NODE =>
      refine simulates_pass i (s.round i) [] (by rw [hblock]; rfl) h
        (fun j hj => System.started_of_ne c i hj) ?_ rfl (by simp) (by simp) (by simp)
      intro q hq
      rw [System.started_self] at hq
      refine System.settle_pending ?_ hq
      simp only [site, device, hblock]
      exact readValue_harmless ..
  -- A publisher starts: the turn from idle, which leaves the board alone.
  | publisher p =>
      have hpoint : (blocks i).point = some p.point := by rw [hblock]; rfl
      have hidle := (h.stands i _ hpoint).eq_idle hcode
      rcases h.shown with ⟨σ, hσ, hshows⟩
      have hstart := stands_start σ₀ p (c.thread i).round s.board (c.thread i)
      have hrequest : (site blocks).request i (c.thread i).round =
          (Request.publish (p.inputs (c.thread i).round)).program exactText := by
        simp only [site, device, hblock]
        rfl
      have hconn : (cast blocks).connected i (s.round i) =
          ((p.inputs (c.thread i).round).connection ≠ none) := by
        simp only [cast, hblock, h.round i _ hpoint]
        rfl
      refine simulates_turn [] hpoint h
        (fun j hj => System.started_of_ne c i hj) ?_ ?_ hσ (by rw [hidle]; exact hshows)
        (fun url _ => rfl) (by simp) (by simp [hidle, Pc.deed])
      · rw [System.started_self, hrequest, hidle, hconn]
        exact hstart.1
      · rw [System.started_self, hrequest, hidle]
        simpa using hstart.2

theorem simulates_call {i : ι} {o : Call} {next : o.Reply → Prog Client Unit}
    {a : Answer Client Station Network o} (h : Simulates blocks net₀ σ₀ c s)
    (hcode : (c.thread i).code = some (.call o next))
    (ha : (site blocks).answer o (c.thread i).loc c.shared .ok = some a) :
    ∃ s', Billboard.Step (setting σ₀) (cast blocks) s s' ∧
      Simulates blocks net₀ σ₀ (c.replied i next a) s' := by
  cases ha
  cases hpoint : (blocks i).point with
  -- A request of a reader changes no server and is at most one entry of the history.
  | none =>
      have hprog := h.harmless i hpoint _ hcode
      refine simulates_pass i (s.round i) _ hpoint h
        (fun j hj => Config.replied_of_ne c i next _ hj) ?_ (serve_harmless hprog.1 ..) rfl
        (by simp) (by simp)
      intro q hq
      rw [Config.replied_self] at hq
      exact System.settle_pending (hprog.2 _) hq
  -- A request of a publisher is its turn, by `served`.
  | some p =>
      rcases h.shown with ⟨σ, hσ, hshows⟩
      have hserved := served ((cast blocks).connected i (s.round i)) hσ hshows h.ready.board
        (h.stands i p hpoint) hcode
      rcases hserved.shows with ⟨σ', hnet, hshows'⟩
      have hshared : (c.replied i next
          { reply := ((site blocks).serve o (c.thread i).loc c.shared).1
            served := some ((site blocks).serve o (c.thread i).loc c.shared).1
            loc := ((site blocks).serve o (c.thread i).loc c.shared).2.1
            shared := ((site blocks).serve o (c.thread i).loc c.shared).2.2 }).shared =
          c.shared.set localServer σ' := hnet
      refine simulates_turn _ hpoint h (fun j hj => Config.replied_of_ne c i next _ hj) ?_ ?_
        (by rw [hshared]; exact Network.set_self ..) hshows'
        (fun url hurl => by rw [hshared]; exact Network.set_of_ne _ _ hurl) rfl ?_
      · rw [Config.replied_self]
        exact hserved.stands
      · rw [Config.replied_self]
        exact hserved.round
      · rw [hserved.deed, ← h.round i p hpoint]
        rfl

/-- Every step without a failure is a step at the board. -/
theorem simulates_step {act : Action ι Fault} (hact : act.faultFree)
    (h : Simulates blocks net₀ σ₀ c s) (hstep : (site blocks).step c act = some c') :
    ∃ s', Billboard.Step (setting σ₀) (cast blocks) s s' ∧ Simulates blocks net₀ σ₀ c' s' := by
  rcases System.step_cases hstep with ⟨i, -, hcode, rfl⟩ | ⟨i, ch, o, next, a, rfl, hcode, ha, rfl⟩
  · exact simulates_start h hcode
  · cases ch with
    | ok => exact simulates_call h hcode ha
    | fail fault reached severed => exact hact.elim

/-- Every run without a failure, from any address space, is a run at the board. -/
theorem simulates_run {as : List (Action ι Fault)} (hlocal : net₀ localServer = some σ₀)
    (hfault : ∀ act ∈ as, act.faultFree)
    (hrun : (site blocks).run (System.init (fun _ => Station.init) net₀) as = some c) :
    ∃ s, Billboard.Steps (setting σ₀) (cast blocks) State.init s ∧
      Simulates blocks net₀ σ₀ c s :=
  System.run_simulates (fun _ _ _ _ hact h hstep => simulates_step hact h hstep) hfault
    (simulates_init hlocal) hrun

end Simulation

/-! ## A publisher and its answers -/

/-- A publisher of the flip-flop's port. -/
def flipFlopPublisher : Publisher where
  point := flipFlopPoint
  inputs _ := flipFlopInputs (.sint 0)
  wired _ := Or.inr ⟨flipFlop .sint, rfl, rfl, rfl⟩

/-- The next `n` requests of one block are answered. -/
def answers {ι : Type} (i : ι) (n : ℕ) : List (Action ι Fault) :=
  List.replicate n (.call i .ok)

end ForteOpcUa
