import ForteOpcUa.Blocks.Racing

/-!
# Disappearance — when a published variable is missing

A publisher that finds its variable deletes it and then adds it again.  For any number of
publishers and readers, any report of the search loops and any failures, a node of the local
server that existed once is there or its absence is accounted for:

- `Instance.Conduct` : what an instance can come to, in particular that an add follows each delete,
- `Interrupted`      : the node was deleted, and the add of that publisher is still to come or was
  not accepted,
- `present_or_interrupted` : nothing else makes a node disappear, and without failures it is back
  whenever no request is in flight.
-/

namespace ForteOpcUa

open Interaction
open Interaction.Prog
open Billboard (State)
open OpcUaPublish

/-! ## Publishers and readers under any environment -/

/-- An instance of `OPC_UA_PUBLISH` or of `OPC_UA_READ`, with the inputs of each round. -/
inductive Instance
  | publish (inputs : ℕ → Inputs)
  | read (SERVER NODE : ℕ → ByteString)

namespace Instance

/-- The request of a round. -/
def request : Instance → ℕ → Request
  | publish inputs, r => .publish (inputs r)
  | read SERVER NODE, r => .read (SERVER r) (NODE r)

/-- A publisher connects to the local server only, deletes only the variable it publishes, and
adds it right after that; a reader changes nothing. -/
def Conduct : Instance → ℕ → (o : Call) → (o.Reply → Prog Client Unit) → Prop
  | publish _, _, .connect _ url, _ => url = localServer
  | publish inputs, r, .deleteNode client id _, next =>
      ∃ source, (inputs r).connection = some source ∧
        id = NodeId.string 1 (varBrowseId source.sourceFBName source.sourceDataPointName) ∧
        ∀ reply, next reply =
          addItemStage client source.sourceFBName source.sourceDataPointName
  | publish _, _, _, _ => True
  | read _ _, _, o, _ => o.Harmless

theorem request_conduct (sameText : SameText) (inst : Instance) (r : ℕ) :
    ((inst.request r).program sameText).Throughout (inst.Conduct r) := by
  cases inst with
  | read SERVER NODE => exact readValue_harmless ..
  | publish inputs =>
      cases hconn : (inputs r).connection with
      | none =>
          simp [request, Request.program, executeEvent_unconnected hconn, Conduct]
      | some source =>
          -- All stages at once: the only delete is followed by `addItemStage`.
          simp [request, Request.program, executeEvent_connected hconn, newStage, connectStage,
            browseStage, browseItemStage, addObjectStage, deleteStage, addItemStage, finish,
            Conduct, hconn]

end Instance

/-- The device of the instances. -/
def plant {ι : Type} (sameText : SameText) (instances : ι → Instance) :
    System Client ι Station Network Fault :=
  device fun i r => ((instances i).request r).program sameText

section Disappearance

variable {ι : Type}

/-! ## Deleted and not yet added again -/

/-- The request reached the server and had this effect there. -/
def Took (P : (o : Call) → o.Reply → Prop) (e : Entry Client ι) : Prop :=
  ∃ reply, e.served = some reply ∧ P e.op reply

/-- The publisher of a delete `d` is about to add the variable, or has asked for it since. -/
def Resumed (source : ConnectionPoint) (d : Entry Client ι) (post : List (Entry Client ι))
    (t : Thread Client Station) : Prop :=
  ∃ client,
    (t.code = some (addItemStage client source.sourceFBName source.sourceDataPointName) ∧
      t.round = d.round) ∨
    ∃ e ∈ post, e.thread = d.thread ∧ e.round = d.round ∧
      e.op = .addNode client (variableItem source.sourceFBName source.sourceDataPointName)

/-- A publisher of this very node deleted it, no request that added it came after that, and the
publisher's own is still to come or was one of those that did not. -/
def Interrupted (instances : ι → Instance) (id : NodeId) (since : List (Entry Client ι))
    (c : Config Client ι Station Network) : Prop :=
  ∃ pre d post, since = pre ++ d :: post ∧ Took (Call.Deletes id) d ∧
    (∀ e ∈ post, ¬ Took (Call.Adds id) e) ∧
    ∃ inputs source, instances d.thread = .publish inputs ∧
      (inputs d.round).connection = some source ∧
      variableId source.sourceFBName source.sourceDataPointName = id ∧
      Resumed source d post (c.thread d.thread)

variable [DecidableEq ι] {sameText : SameText} {instances : ι → Instance} {id : NodeId}
variable {c c' : Config Client ι Station Network} {act : Action ι Fault}

/-- Threads keep to the conduct of their instances, and publishers to the local server. -/
structure Behaved (instances : ι → Instance) (c : Config Client ι Station Network) : Prop where
  pending : System.Pending (fun i => (instances i).Conduct) c
  links : ∀ i inputs, instances i = .publish inputs → (c.thread i).loc.OnlyTo localServer

omit [DecidableEq ι] in
theorem behaved_init (net : Network) :
    Behaved instances (System.init (fun _ => Station.init) net) where
  pending := System.pending_init _ _ _
  links _ _ _ := onlyTo_init

theorem behaved_step (h : Behaved instances c)
    (hstep : (plant sameText instances).step c act = some c') : Behaved instances c' := by
  refine ⟨System.pending_step (fun i r => (instances i).request_conduct sameText r) h.pending
    hstep, ?_⟩
  intro j inputs hj
  rcases System.step_cases hstep with ⟨i, -, -, rfl⟩ | ⟨i, ch, o, next, a, -, hcode, ha, rfl⟩
  · by_cases hji : j = i
    · subst hji
      rw [System.started_self, Thread.settle_loc]
      exact h.links j inputs hj
    · rw [System.started_of_ne c i hji]
      exact h.links j inputs hj
  · by_cases hji : j = i
    · subst hji
      have hold := h.links j inputs hj
      have hhead := (h.pending j _ hcode).1
      rw [Config.replied_self, Thread.settle_loc]
      -- Served, cut off or untouched: no client gets connected elsewhere.
      rcases System.answer_loc_cases ha with hloc | hloc | hloc
      · refine hloc ▸ hold.serve _ ?_
        rintro client url rfl
        simpa only [hj, Instance.Conduct] using hhead
      · exact hloc ▸ hold.sever o
      · exact hloc ▸ hold
    · rw [Config.replied_of_ne c i next a hji]
      exact h.links j inputs hj

/-- A node that is there is there after the next step, or a publisher has deleted it and adds it
next. -/
theorem present_step (hb : Behaved instances c) (h : Present localServer id c.shared)
    (hstep : (plant sameText instances).step c act = some c') :
    ∃ new, c'.log = c.log ++ new ∧
      (Present localServer id c'.shared ∨ Interrupted instances id new c') := by
  rcases System.step_cases hstep with ⟨i, -, -, rfl⟩ | ⟨i, ch, o, next, a, -, hcode, ha, rfl⟩
  · exact ⟨[], by simp, Or.inl h⟩
  · refine ⟨_, Config.replied_log .., ?_⟩
    rw [Config.replied_shared]
    -- A request that never arrived changes nothing.
    rcases System.answer_cases ha with ⟨hshared, -⟩ | ⟨hshared, hserved⟩
    · exact Or.inl (hshared ▸ h)
    · rcases present_serve h (c.thread i).loc o with hthere | hdel
      · exact Or.inl (hshared ▸ hthere)
      · right
        have hhead := (hb.pending i _ hcode).1
        cases o with
        | deleteNode client id' refs =>
            cases hinst : instances i with
            | read SERVER NODE =>
                simp only [hinst, Instance.Conduct] at hhead
                exact hhead.elim
            | publish inputs =>
                simp only [hinst, Instance.Conduct] at hhead
                rcases hhead with ⟨source, hconn, hid, hnext⟩
                -- The delete is the only new request, and its publisher now stands before adding.
                refine ⟨[], _, [], rfl, ⟨_, hserved, hdel⟩, by simp, inputs, source, hinst, hconn,
                  hid.symm.trans hdel.1, client, Or.inl ?_⟩
                rw [Config.replied_self, hnext]
                exact ⟨rfl, rfl⟩
        | _ => exact hdel.elim

/-- An interruption lasts until the node is there again. -/
theorem interrupted_step (hb : Behaved instances c) {since : List (Entry Client ι)}
    (h : Interrupted instances id since c)
    (hstep : (plant sameText instances).step c act = some c') :
    ∃ new, c'.log = c.log ++ new ∧
      (Present localServer id c'.shared ∨ Interrupted instances id (since ++ new) c') := by
  rcases h with ⟨pre, d, post, rfl, hdel, hadds, inputs, source, hinst, hconn, hid, client, hres⟩
  rcases System.step_cases hstep with ⟨i, -, hcode, rfl⟩ | ⟨i, ch, o, next, a, -, hcode, ha, rfl⟩
  · refine ⟨[], by simp, Or.inr ⟨pre, d, post, by simp, hdel, hadds, inputs, source, hinst, hconn,
      hid, client, hres.imp_left ?_⟩⟩
    rintro ⟨hadd, hround⟩
    -- The publisher is in the middle of a round, so it is another thread that starts.
    have hne : d.thread ≠ i := by
      rintro rfl
      cases hcode.symm.trans hadd
    rw [System.started_of_ne c i hne]
    exact ⟨hadd, hround⟩
  · refine ⟨_, Config.replied_log .., ?_⟩
    -- Either this request has brought the node back, or it joins those that did not.
    by_cases hadd : Took (Call.Adds id)
      (⟨i, (c.thread i).round, o, a.reply, a.served⟩ : Entry Client ι)
    · left
      rcases hadd with ⟨reply, hreply, heffect⟩
      have hhead := (hb.pending i _ hcode).1
      rcases System.answer_cases ha with ⟨-, hserved⟩ | ⟨hshared, hserved⟩
      · cases hserved.symm.trans hreply
      · cases hserved.symm.trans hreply
        rw [Config.replied_shared, hshared]
        cases hinst' : instances i with
        | publish inputs' => exact present_of_adds (hb.links i inputs' hinst') heffect
        | read SERVER NODE =>
            simp only [hinst', Instance.Conduct] at hhead
            cases o with
            | addNode client' item => exact hhead.elim
            | _ => exact heffect.elim
    · right
      refine ⟨pre, d, post ++ [⟨i, (c.thread i).round, o, a.reply, a.served⟩], by simp, hdel, ?_,
        inputs, source, hinst, hconn, hid, client, ?_⟩
      · intro e he
        rcases List.mem_append.1 he with hold | hlast
        · exact hadds e hold
        · rw [List.mem_singleton.1 hlast]
          exact hadd
      · rcases hres with ⟨hpending, hround⟩ | ⟨e, he, hanswered⟩
        -- The pending add is the one that was just answered, or still pending.
        · by_cases hdi : d.thread = i
          · right
            subst hdi
            cases hcode.symm.trans hpending
            exact ⟨_, List.mem_append_right _ (List.mem_singleton_self _), rfl, hround, rfl⟩
          · left
            rw [Config.replied_of_ne c i next a hdi]
            exact ⟨hpending, hround⟩
        · exact Or.inr ⟨e, List.mem_append_left _ he, hanswered⟩

/-! ## Whole runs -/

omit [DecidableEq ι] in
theorem Interrupted.append {since new : List (Entry Client ι)}
    (h : Interrupted instances id new c) : Interrupted instances id (since ++ new) c := by
  rcases h with ⟨pre, d, post, rfl, hrest⟩
  exact ⟨since ++ pre, d, post, by simp, hrest⟩

/-- The node is there, or its absence is accounted for by what was requested since `c₁`. -/
def Explained (instances : ι → Instance) (id : NodeId)
    (c₁ c : Config Client ι Station Network) : Prop :=
  ∃ since, c.log = c₁.log ++ since ∧
    (Present localServer id c.shared ∨ Interrupted instances id since c)

theorem explained_step {c₁ : Config Client ι Station Network} (hb : Behaved instances c)
    (h : Explained instances id c₁ c)
    (hstep : (plant sameText instances).step c act = some c') : Explained instances id c₁ c' := by
  rcases h with ⟨since, hlog, hthere | hinterrupted⟩
  · rcases present_step hb hthere hstep with ⟨new, hnew, hcases⟩
    exact ⟨since ++ new, by simp [hnew, hlog], hcases.imp_right Interrupted.append⟩
  · rcases interrupted_step hb hinterrupted hstep with ⟨new, hnew, hcases⟩
    exact ⟨since ++ new, by simp [hnew, hlog], hcases⟩

section Runs

variable {net : Network} {as as₁ as₂ : List (Action ι Fault)}
variable {c₁ c₂ : Config Client ι Station Network}

theorem behaved_run (h : Behaved instances c₁)
    (hrun : (plant sameText instances).run c₁ as = some c₂) : Behaved instances c₂ :=
  System.run_induct (P := fun _ => True) (I := Behaved instances)
    (fun _ _ _ _ hb hstep => behaved_step hb hstep) as c₁ c₂ (by simp) h hrun

theorem explained_run (hb : Behaved instances c₁) (h : Present localServer id c₁.shared)
    (hrun : (plant sameText instances).run c₁ as = some c₂) :
    Explained instances id c₁ c₂ := by
  refine (System.run_induct (P := fun _ => True)
    (I := fun d => Behaved instances d ∧ Explained instances id c₁ d) ?_ as c₁ c₂ (by simp)
    ⟨hb, [], by simp, Or.inl h⟩ hrun).2
  rintro d act d' - ⟨hd, hexplained⟩ hstep
  exact ⟨behaved_step hd hstep, explained_step hd hexplained hstep⟩

/-! ## Without failures -/

/-- A publisher or a reader with its inputs. -/
def Block.instance : Block → Instance
  | publisher p => .publish p.inputs
  | reader SERVER NODE => .read SERVER NODE

omit [DecidableEq ι] in
theorem plant_eq_site (blocks : ι → Block) :
    plant exactText (fun i => (blocks i).instance) = site blocks := by
  have hrequest : ∀ i r, (blocks i).instance.request r = (blocks i).request r := by
    intro i r
    cases blocks i with
    | publisher p => rfl
    | reader SERVER NODE => rfl
  simp only [plant, site, hrequest]

/-- Exact search loops, no failure, a server that `UA_Server_new` set up, and publishers that keep
to one data point with dot-free names each. -/
structure Undisturbed (sameText : SameText) (instances : ι → Instance) (net : Network)
    (as : List (Action ι Fault)) : Prop where
  exact : sameText = exactText
  dotFree : ∃ blocks : ι → Block, instances = fun i => (blocks i).instance
  standard : ∃ σ₀, net localServer = some σ₀ ∧ σ₀.Standard
  faultFree : ∀ act ∈ as, act.faultFree

/-- Between requests, a variable of some publisher is there if it was there before. -/
theorem present_of_quiescent {blocks : ι → Block} {σ₀ : Server} {p : DataPoint}
    (hlocal : net localServer = some σ₀) (hstandard : σ₀.Standard)
    (hfault₁ : ∀ act ∈ as₁, act.faultFree) (hfault₂ : ∀ act ∈ as₂, act.faultFree)
    (hrun₁ : (site blocks).run (System.init (fun _ => Station.init) net) as₁ = some c₁)
    (hthere : Present localServer p.variableId c₁.shared)
    (hrun₂ : (site blocks).run c₁ as₂ = some c₂) (hq : System.Quiescent c₂) :
    Present localServer p.variableId c₂.shared := by
  have hgrow : (setting σ₀).growable := ⟨hstandard.namespaceOne, hstandard.organizes⟩
  rcases simulates_run hlocal hfault₁ hrun₁ with ⟨s₁, -, hsim₁⟩
  rcases System.run_simulates (fun _ _ _ _ hact h hstep => simulates_step hact h hstep) hfault₂
    hsim₁ hrun₂ with ⟨s₂, hsteps, hsim₂⟩
  -- Existence is carried over to the board, through the run there, and back.
  have hbefore : s₁.board.HasItem (setting σ₀) p := by
    rcases hsim₁.shown with ⟨σ, hσ, hshows⟩
    rcases hthere with ⟨τ, hτ, hget⟩
    cases hσ.symm.trans hτ
    exact (hshows.hasItem_iff p).2 hget
  have hsettled := Billboard.settled_steps hgrow hsim₁.ready (Or.inl hbefore) hsteps
  rcases hsim₂.shown with ⟨σ, hσ, hshows⟩
  exact ⟨σ, hσ, (hshows.hasItem_iff p).1 (hsettled.hasItem (hsim₂.quiescent hq))⟩

omit [DecidableEq ι] in
/-- The node that is interrupted is the variable of a publisher. -/
theorem Interrupted.exists_point {blocks : ι → Block} {since : List (Entry Client ι)}
    (h : Interrupted (fun i => (blocks i).instance) id since c) :
    ∃ p : DataPoint, p.variableId = id := by
  rcases h with ⟨-, d, -, -, -, -, inputs, source, hinst, hconn, hid, -⟩
  cases hblock : blocks d.thread with
  | reader SERVER NODE =>
      simp only [hblock, Block.instance] at hinst
      cases hinst
  | publisher q =>
      simp only [hblock, Block.instance, Instance.publish.injEq] at hinst
      subst hinst
      -- A publisher that deleted something was connected, hence to its data point.
      rcases q.wired d.round with hnone | ⟨source', hsource', hfb, hvar⟩
      · cases hnone.symm.trans hconn
      · cases hsource'.symm.trans hconn
        exact ⟨q.point, by rw [DataPoint.variableId, ← hfb, ← hvar, hid]⟩

/-- Publishers and readers in any order, with any failures: a node that was there once is there,
or a publisher has deleted it and its add is still to come or was not accepted.  A reader is told
that the node is unknown only then, and without failures never between requests. -/
theorem present_or_interrupted
    (hrun₁ : (plant sameText instances).run (System.init (fun _ => Station.init) net) as₁ =
      some c₁)
    (hthere : Present localServer id c₁.shared)
    (hrun₂ : (plant sameText instances).run c₁ as₂ = some c₂) :
    ∃ since, c₂.log = c₁.log ++ since ∧
      (Present localServer id c₂.shared ∨ Interrupted instances id since c₂) ∧
      (∀ σ, c₂.shared localServer = some σ →
        (σ.readSingle id).status = StatusCode.badNodeIdUnknown →
        Interrupted instances id since c₂) ∧
      (Undisturbed sameText instances net (as₁ ++ as₂) → System.Quiescent c₂ →
        Present localServer id c₂.shared) := by
  have hb := behaved_run (behaved_init net) hrun₁
  rcases explained_run hb hthere hrun₂ with ⟨since, hlog, hcases⟩
  refine ⟨since, hlog, hcases, ?_, ?_⟩
  · intro σ hσ hread
    -- A node that is there is not reported as unknown.
    refine hcases.resolve_left ?_
    rintro ⟨τ, hτ, hget⟩
    cases hσ.symm.trans hτ
    exact hget (Server.readSingle_unknown.1 hread)
  · intro hu hq
    rcases hcases with hthere₂ | hinterrupted
    · exact hthere₂
    · rcases hu with ⟨rfl, ⟨blocks, rfl⟩, ⟨σ₀, hlocal, hstandard⟩, hfault⟩
      -- Without failures the instances are the blocks of `site`, and the node is one of theirs.
      rw [plant_eq_site] at hrun₁ hrun₂
      rcases hinterrupted.exists_point with ⟨p, rfl⟩
      exact present_of_quiescent hlocal hstandard (fun act hact => hfault act (by simp [hact]))
        (fun act hact => hfault act (by simp [hact])) hrun₁ hthere hrun₂ hq

end Runs

end Disappearance

/-! ## A variable that is published twice -/

/-- A publisher of the flip-flop's port and a reader of its variable. -/
def watched : Bool → Instance
  | false => .publish fun _ => flipFlopInputs (.sint 0)
  | true => .read (fun _ => localServer)
      fun _ => browseText flipFlopPoint.fb_id flipFlopPoint.var_id

/-- The device after a schedule, from a server that `UA_Server_new` set up. -/
def watch (as : List (Action Bool Fault)) : Option (Config Client Bool Station Network) :=
  (plant exactText watched).run (System.init (fun _ => Station.init) oneServer.2) as

/-- The first publication. -/
def published : List (Action Bool Fault) :=
  [.start false] ++ answers false 8

/-- The second one up to its delete, and then a read. -/
def readBetween : List (Action Bool Fault) :=
  [.start false] ++ answers false 5 ++ [.start true] ++ answers true 4

/-- The second one, whose connection breaks before its add. -/
def lostBetween : List (Action Bool Fault) :=
  [.start false] ++ answers false 5 ++
    [.call false (.fail ⟨StatusCode.badConnectionClosed, by decide⟩ false true)] ++ answers false 3

/-- A read was told that the node is unknown. -/
def toldUnknown (id : NodeId) (e : Entry Client Bool) : Bool :=
  match e.op, e.reply with
  | .read _ id', rResp =>
      id' = id && rResp.results.any fun result => result.status = StatusCode.badNodeIdUnknown
  | _, _ => false

theorem watched_run (as : List (Action Bool Fault))
    (P : Config Client Bool Station Network → Config Client Bool Station Network → Prop)
    [∀ c₁ c₂, Decidable (P c₁ c₂)]
    (h : ((watch published).bind fun c₁ =>
      ((plant exactText watched).run c₁ as).map fun c₂ => decide (P c₁ c₂)) = some true) :
    ∃ c₁ c₂, watch published = some c₁ ∧ (plant exactText watched).run c₁ as = some c₂ ∧
      P c₁ c₂ := by
  rcases Option.bind_eq_some_iff.1 h with ⟨c₁, hrun₁, hrest⟩
  rcases Option.map_eq_some_iff.1 hrest with ⟨c₂, hrun₂, hP⟩
  exact ⟨c₁, c₂, hrun₁, hrun₂, of_decide_eq_true hP⟩

/-- The two publications and the read in between. -/
theorem readBetween_explained : ∃ c₁ c₂, watch published = some c₁ ∧
    (plant exactText watched).run c₁ readBetween = some c₂ ∧
    ∃ since, c₂.log = c₁.log ++ since ∧
      (Present localServer flipFlopPoint.variableId c₂.shared ∨
        Interrupted watched flipFlopPoint.variableId since c₂) ∧
      (∀ σ, c₂.shared localServer = some σ →
        (σ.readSingle flipFlopPoint.variableId).status = StatusCode.badNodeIdUnknown →
        Interrupted watched flipFlopPoint.variableId since c₂) ∧
      (Undisturbed exactText watched oneServer.2 (published ++ readBetween) →
        System.Quiescent c₂ → Present localServer flipFlopPoint.variableId c₂.shared) := by
  rcases watched_run readBetween
    (fun c₁ _ => Present localServer flipFlopPoint.variableId c₁.shared) (by decide) with
    ⟨c₁, c₂, hrun₁, hrun₂, hthere⟩
  exact ⟨c₁, c₂, hrun₁, hrun₂, present_or_interrupted hrun₁ hthere hrun₂⟩

/-- A published variable is missing for a reader while it is published again, although nothing
fails, and stays missing when the connection breaks before the add. -/
theorem published_variable_missing :
    (∀ act ∈ published ++ readBetween, act.faultFree) ∧
    (∃ c₁ c₂, watch published = some c₁ ∧
      (plant exactText watched).run c₁ readBetween = some c₂ ∧
      Present localServer flipFlopPoint.variableId c₁.shared ∧
      ¬ Present localServer flipFlopPoint.variableId c₂.shared ∧
      ∃ e ∈ c₂.log, toldUnknown flipFlopPoint.variableId e = true) ∧
    ∃ c₁ c₂, watch published = some c₁ ∧
      (plant exactText watched).run c₁ lostBetween = some c₂ ∧
      Present localServer flipFlopPoint.variableId c₁.shared ∧
      ¬ Present localServer flipFlopPoint.variableId c₂.shared ∧
      ∀ i, (c₂.thread i).code.isNone = true := by
  exact ⟨by decide, watched_run readBetween _ (by decide), watched_run lostBetween _ (by decide)⟩

end ForteOpcUa
