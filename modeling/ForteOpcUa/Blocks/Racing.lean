import ForteOpcUa.Billboard.LastPost
import ForteOpcUa.Blocks.Simulation

/-!
# Racing — publishers that share a server

Any number of publishers and readers of a device move in any order and no request fails for
transport reasons.  The results for publishers at a board become results about address spaces
and about the requests the server has answered:

- `inPlace_of_quiescent` : with no request in flight every published variable is in place,
- `accounted_of_run`     : a confirmed publish request was accepted or overtaken, and the variable
  that is there is that of the last accepted AddNodes request.

The address spaces are maps; `Tabled` carries the results to the hash table of the server.
-/

namespace ForteOpcUa

open Interaction
open Interaction.Prog
open Billboard (Board Setting Slot Verdict Pc Deed Note State Cast)
open OpcUaPublish

/-! ## Data points in place -/

/-- The object node exists and is listed in the objects folder, the variable node exists, as its
publisher adds it, and is listed in the object node. -/
structure InPlace (σ : Server) (p : DataPoint) : Prop where
  folder : ∃ n, σ.get objectsFolder = some n ∧ n.Lists p.objectId
  object : ∃ n, σ.get p.objectId = some n ∧ n.body = .object ∧ n.Lists p.variableId
  item : σ.get p.variableId = some (Server.childNode p.variableItem)

/-- A data point that was posted on the board is in place. -/
theorem Shows.inPlace {σ₀ σ : Server} {b : Board Name DataPoint} (h : Shows σ₀ b σ)
    {p : DataPoint} (hroot : σ₀.get objectsFolder ≠ none) (habsent : σ₀.get p.objectId = none)
    (htopic : p.fb_id ∈ b.topics) (hpost : p ∈ b.posts) (hslot : b.slot p = .posted) :
    InPlace σ p where
  folder := by
    rcases Option.ne_none_iff_exists'.1 hroot with ⟨n, hn⟩
    refine ⟨n.withReferences (topicReferences b), by rw [h.folder, hn, Option.map_some], ?_⟩
    exact Node.lists_withReferences.2 (Or.inr (mem_topicReferences.2 htopic))
  object := by
    refine ⟨(Server.childNode p.objectItem).withReferences (postReferences b p.fb_id), ?_, rfl, ?_⟩
    · rw [h.object]
      simp [baseObject, habsent, htopic]
    · exact Node.lists_withReferences.2 (Or.inr (mem_postReferences.2 hpost))
  item := by
    rw [h.variable, hslot]
    rfl

section Racing

variable {ι : Type} [DecidableEq ι] {blocks : ι → Block} {net : Network} {σ₀ : Server}
variable {as : List (Action ι Fault)} {c : Config Client ι Station Network}

/-- A server that `UA_Server_new` set up, without the nodes of the publishers. -/
structure Unpublished (blocks : ι → Block) (σ₀ : Server) : Prop where
  standard : σ₀.Standard
  object : ∀ i p, (blocks i).point = some p → σ₀.get p.objectId = none
  «variable» : ∀ i p, (blocks i).point = some p → σ₀.get p.variableId = none

omit [DecidableEq ι] in
theorem Unpublished.fresh (h : Unpublished blocks σ₀) :
    Billboard.Fresh (setting σ₀) (cast blocks) where
  growable := ⟨h.standard.namespaceOne, h.standard.organizes⟩
  rooted := h.standard.folder
  topic i p hp := not_not.2 (h.object i p hp)
  item i p hp := not_not.2 (h.variable i p hp)

/-- Any number of publishers, some of which may share a block or a whole data point, and readers,
in any order: whenever no request is in flight, the data point of every finished publish request
is in place. -/
theorem inPlace_of_quiescent (hlocal : net localServer = some σ₀)
    (hnew : Unpublished blocks σ₀) (hfault : ∀ act ∈ as, act.faultFree)
    (hrun : (site blocks).run (System.init (fun _ => Station.init) net) as = some c)
    (hq : System.Quiescent c) :
    ∃ σ, c.shared localServer = some σ ∧
      ∀ i p r, (blocks i).point = some p → (blocks i).Publishes r → r < (c.thread i).round →
        InPlace σ p := by
  -- The run is one at the board, where the racing publishers converge.
  rcases simulates_run hlocal hfault hrun with ⟨s, hsteps, hsim⟩
  rcases hsim.shown with ⟨σ, hσ, hshows⟩
  refine ⟨σ, hσ, ?_⟩
  intro i p r hp hpub hr
  rw [hsim.round i p hp] at hr
  rcases Billboard.converged hnew.fresh hsteps (hsim.quiescent hq) hp hr hpub with
    ⟨htopic, hpost, hslot⟩
  exact hshows.inPlace hnew.standard.folder (hnew.object i p hp) htopic hpost hslot

/-! ## Requests in the history -/

omit [DecidableEq ι] in
/-- The status of a request to add the variable node of `p`. -/
def addReply (p : DataPoint) (e : Entry Client ι) : Option StatusCode :=
  match e.op, e.reply with
  | .addNode _ item, status => if item = p.variableItem then some status else none
  | _, _ => none

omit [DecidableEq ι] in
/-- The status of a request to delete the variable node of `p`. -/
def deleteReply (p : DataPoint) (e : Entry Client ι) : Option StatusCode :=
  match e.op, e.reply with
  | .deleteNode _ id _, status => if id = p.variableId then some status else none
  | _, _ => none

/-- The request is publisher `i`'s look at the objects folder in round `r`. -/
def IsLook (i : ι) (r : ℕ) (e : Entry Client ι) : Prop :=
  e.thread = i ∧ e.round = r ∧ ∃ c, e.op = .browse c objectsFolder

/-- The request is the output event of publisher `i` in round `r`. -/
def IsConfirmation (i : ι) (r : ℕ) (e : Entry Client ι) : Prop :=
  e.thread = i ∧ e.round = r ∧ e.op = .sendOutputEvent eventCNF

instance (i : ι) (r : ℕ) (e : Entry Client ι) : Decidable (IsConfirmation i r e) :=
  inferInstanceAs (Decidable (e.thread = i ∧ e.round = r ∧ e.op = .sendOutputEvent eventCNF))

/-- The requests a block can issue. -/
def Block.Issues (block : Block) (o : Call) : Prop :=
  match block.point with
  | some p => Issued p.fb_id p.var_id o
  | none => o.Harmless

theorem Block.request_issues (block : Block) (r : ℕ) :
    ((block.request r).program exactText).Always block.Issues := by
  cases block with
  | reader SERVER NODE => exact readValue_harmless ..
  | publisher p =>
      have hissued : (executeEvent exactText eventREQ (p.inputs r)).Always
          (Issued p.point.fb_id p.point.var_id) := by
        rcases p.wired r with hnone | hpub
        · rw [executeEvent_unconnected hnone]
          simp [Issued]
        · rw [hpub.executeEvent_eq]
          exact newStage_issued ..
      exact hissued

/-- Every request in the history is one its block can issue. -/
theorem history_issues
    (hrun : (site blocks).run (System.init (fun _ => Station.init) net) as = some c) :
    ∀ e ∈ c.log, (blocks e.thread).Issues e.op :=
  (System.issues_run (P := fun i => (blocks i).Issues)
    (fun i r => (blocks i).request_issues r) (System.issues_init ..) hrun).logged

section View

variable {p : DataPoint} {e : Entry Client ι}

omit [DecidableEq ι] in
/-- Only the publishers of a data point add its variable node. -/
theorem adds_view_iff (h : (blocks e.thread).Issues e.op) :
    (view e).Adds (cast blocks) p ↔ addReply p e = some StatusCode.good := by
  rcases e with ⟨i, r, o, reply, served⟩
  cases o with
  | addNode client item =>
      cases hpoint : (blocks i).point with
      | none =>
          simp only [Block.Issues, hpoint] at h
          exact h.elim
      | some q =>
          -- A publisher adds two kinds of nodes, and only a variable shows as an addition.
          have hitem : item = q.objectItem ∨ item = q.variableItem := by
            simp only [Block.Issues, hpoint] at h
            exact h
          rcases hitem with rfl | rfl
          · have hquiet : deedOf (.addNode client q.objectItem) reply = .quiet := rfl
            simp [Note.Adds, view, hquiet, addReply]
          · have hadded : deedOf (.addNode client q.variableItem) reply =
                .added (verdictOf reply) := rfl
            simp [Note.Adds, view, hadded, addReply, cast, hpoint, verdictOf_eq_accepted]
  | browse client id =>
      by_cases hid : id = objectsFolder <;> simp [Note.Adds, view, deedOf, addReply, hid]
  | _ => simp [Note.Adds, view, deedOf, addReply]

omit [DecidableEq ι] in
/-- Only the publishers of a data point delete its variable node. -/
theorem removes_view_iff (h : (blocks e.thread).Issues e.op) :
    (view e).Removes (cast blocks) p ↔ deleteReply p e = some StatusCode.good := by
  rcases e with ⟨i, r, o, reply, served⟩
  cases o with
  | deleteNode client id refs =>
      cases hpoint : (blocks i).point with
      | none =>
          simp only [Block.Issues, hpoint] at h
          exact h.elim
      | some q =>
          -- A publisher deletes its own variable and nothing else.
          have hid : id = q.variableId ∧ refs = false := by
            simp only [Block.Issues, hpoint] at h
            exact h
          rcases hid with ⟨rfl, rfl⟩
          simp [Note.Removes, view, deedOf, deleteReply, cast, hpoint]
  | browse client id =>
      by_cases hid : id = objectsFolder <;> simp [Note.Removes, view, deedOf, deleteReply, hid]
  | addNode client item =>
      cases hvar : item.isVariable <;> simp [Note.Removes, view, deedOf, deleteReply, hvar]
  | _ => simp [Note.Removes, view, deedOf, deleteReply]

omit [DecidableEq ι] in
/-- An attempt of a publisher of `p` in the history. -/
theorem addReply_of_view (h : (blocks e.thread).Issues e.op)
    (hp : (blocks e.thread).point = some p) {v : Verdict} (hv : (view e).deed = .added v) :
    ∃ status, addReply p e = some status ∧ verdictOf status = v := by
  rcases e with ⟨i, r, o, reply, served⟩
  cases o with
  | addNode client item =>
      have hitem : item = p.objectItem ∨ item = p.variableItem := by
        simp only [Block.Issues, hp] at h
        exact h
      rcases hitem with rfl | rfl
      · cases hv
      · refine ⟨reply, by simp [addReply], ?_⟩
        simpa [view, deedOf, DataPoint.variableItem, variableItem,
          Server.AddNodesItem.isVariable] using hv
  | browse client id =>
      by_cases hid : id = objectsFolder <;> simp [view, deedOf, hid] at hv
  | _ => cases hv

omit [DecidableEq ι] in
theorem isLook_of_view {i : ι} {r : ℕ} (h : view e = ⟨i, r, .looked⟩) : IsLook i r e := by
  rcases e with ⟨j, k, o, reply, served⟩
  simp only [view, Note.mk.injEq] at h
  rcases h with ⟨rfl, rfl, hdeed⟩
  refine ⟨rfl, rfl, ?_⟩
  cases o with
  | browse client id =>
      by_cases hid : id = objectsFolder
      · exact ⟨client, by rw [hid]⟩
      · simp [deedOf, hid] at hdeed
  | addNode client item =>
      cases hvar : item.isVariable <;> simp [deedOf, hvar] at hdeed
  | _ => cases hdeed

omit [DecidableEq ι] in
theorem IsConfirmation.view_eq {i : ι} {r : ℕ} (h : IsConfirmation i r e) :
    view e = ⟨i, r, .confirmed⟩ := by
  rcases e with ⟨j, k, o, reply, served⟩
  rcases h with ⟨rfl, rfl, rfl⟩
  rfl

end View

/-! ## Which publish request the variable comes from -/

/-- In round `r` publisher `i` asked to add the variable node of `p`, and either that was accepted
or the node existed, another publisher having added it since `i` looked at the objects folder. -/
def AcceptedOrOvertaken (p : DataPoint) (i : ι) (r : ℕ) (log : List (Entry Client ι)) : Prop :=
  ∃ pre e post, log = pre ++ e :: post ∧ e.thread = i ∧ e.round = r ∧
    (addReply p e = some StatusCode.good ∨
      (addReply p e = some StatusCode.badNodeIdExists ∧
        ∃ before look since, pre = before ++ look :: since ∧ IsLook i r look ∧
          ∃ e' ∈ since, e'.thread ≠ i ∧ addReply p e' = some StatusCode.good))

omit [DecidableEq ι] in
/-- An attempt at the board, read in the history of the device. -/
theorem acceptedOrOvertaken_of_history {s : State ι Name DataPoint} {p : DataPoint} {i : ι} {r : ℕ}
    (hissues : ∀ e ∈ c.log, (blocks e.thread).Issues e.op)
    (hsim : Simulates blocks net σ₀ c s) (hp : (blocks i).point = some p)
    (hpub : (blocks i).Publishes r) (hconf : ∃ e ∈ c.log, IsConfirmation i r e)
    (hhist : Billboard.History (setting σ₀) (cast blocks) s) :
    AcceptedOrOvertaken p i r c.log := by
  have hmem : ⟨i, r, .confirmed⟩ ∈ s.log := by
    rcases hconf with ⟨e, he, hconf⟩
    rw [← hsim.log, ← hconf.view_eq]
    exact List.mem_map_of_mem he
  rcases hhist.attempt hp hpub hmem with ⟨pre, v, post, hlog, hcases⟩
  rw [← hsim.log] at hlog
  -- The split of the notes is the image of a split of the requests.
  rcases List.map_eq_append_iff.1 hlog with ⟨pre', rest, hsplit, rfl, hrest⟩
  rcases List.map_eq_cons_iff.1 hrest with ⟨e, post', rfl, hview, rfl⟩
  have hthread : e.thread = i := congrArg Note.who hview
  have hround : e.round = r := congrArg Note.round hview
  have hdeed : (view e).deed = .added v := congrArg Note.deed hview
  rcases addReply_of_view (hissues e (by simp [hsplit])) (by rw [hthread, hp]) hdeed with
    ⟨status, hstatus, hverdict⟩
  refine ⟨pre', e, post', hsplit, hthread, hround, ?_⟩
  -- Accepted; or refused as existing, with the look and the other addition found in front of it.
  rcases hcases with rfl | ⟨rfl, before, since, hpre, n, hn, hother, hadds⟩
  · rw [verdictOf_eq_accepted.1 hverdict] at hstatus
    exact Or.inl hstatus
  · rw [verdictOf_eq_existing.1 hverdict] at hstatus
    rcases List.map_eq_append_iff.1 hpre with ⟨before', rest', hsplit', rfl, hrest'⟩
    rcases List.map_eq_cons_iff.1 hrest' with ⟨look, since', rfl, hlook, rfl⟩
    rcases List.mem_map.1 hn with ⟨e', he', rfl⟩
    refine Or.inr ⟨hstatus, before', look, since', hsplit', isLook_of_view hlook, e', he', hother, ?_⟩
    exact (adds_view_iff (hissues e' (by simp [hsplit, hsplit', he']))).1 hadds

/-- Publishers and readers in any order.  In every state reached each confirmed publish request
was accepted or overtaken.  A variable that exists is the one of the last accepted request to add
it, and has not been deleted since; with no request in flight every published variable exists. -/
theorem accounted_of_run (hlocal : net localServer = some σ₀)
    (hnew : Unpublished blocks σ₀) (hfault : ∀ act ∈ as, act.faultFree)
    (hrun : (site blocks).run (System.init (fun _ => Station.init) net) as = some c) :
    (∀ i p r, (blocks i).point = some p → (blocks i).Publishes r →
      (∃ e ∈ c.log, IsConfirmation i r e) → AcceptedOrOvertaken p i r c.log) ∧
    ∃ σ, c.shared localServer = some σ ∧ ∀ i p, (blocks i).point = some p →
      (σ.get p.variableId ≠ none →
        σ.get p.variableId = some (Server.childNode p.variableItem) ∧
        Latest (fun e => addReply p e = some StatusCode.good)
          (fun e => addReply p e = some StatusCode.good ∨
            deleteReply p e = some StatusCode.good) c.log) ∧
      (System.Quiescent c → (∃ r < (c.thread i).round, (blocks i).Publishes r) →
        σ.get p.variableId ≠ none) := by
  have hissues := history_issues hrun
  rcases simulates_run hlocal hfault hrun with ⟨s, hsteps, hsim⟩
  have hhist := Billboard.history_steps hnew.fresh hsteps
  refine ⟨fun i p r hp hpub hconf =>
    acceptedOrOvertaken_of_history hissues hsim hp hpub hconf hhist, ?_⟩
  rcases hsim.shown with ⟨σ, hσ, hshows⟩
  refine ⟨σ, hσ, fun i p hp => ⟨?_, ?_⟩⟩
  · intro hthere
    have hhas := (hshows.hasItem_iff p).2 hthere
    refine ⟨?_, ?_⟩
    · rw [hshows.variable]
      -- None of the variables was there at first, so the one that exists was posted.
      unfold Board.HasItem at hhas
      split at hhas
      · exact absurd (hnew.variable i p hp) hhas
      · exact hhas.elim
      · rename_i hslot
        rw [hslot]
        rfl
    · have hlatest := hhist.last i p hp hhas
      rw [← hsim.log, latest_map] at hlatest
      refine hlatest.congr (fun e he => (adds_view_iff (hissues e he)).1) fun e he => ?_
      exact Or.imp (adds_view_iff (hissues e he)).2 (removes_view_iff (hissues e he)).2
  · rintro hq ⟨r, hr, hpub⟩
    rw [hsim.round i p hp] at hr
    rcases Billboard.converged hnew.fresh hsteps (hsim.quiescent hq) hp hr hpub with
      ⟨-, -, hslot⟩
    rw [hshows.variable, hslot]
    simp [shownVariable]

end Racing

end ForteOpcUa
