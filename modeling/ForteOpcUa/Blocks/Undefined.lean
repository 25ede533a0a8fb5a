import ForteOpcUa.Blocks.Buffers
import ForteOpcUa.Interaction.Hazard

/-!
# Undefined — requests that the process may not survive

Some operations of the blocks are undefined in C.  The process may end at any of them; if it does not,
the handler goes on as it is written.

- `Undefined`         : a `sprintf` through a bad pointer or beyond its destination, a `strcpy` to where
  an unset pointer points, the release of a local variable, a call on a deleted client,
- `Delivery`          : a `REQ` event for one of the four blocks, `routine` what it starts,
- `Delivered`         : such an event with what is seen of its handling,
- `Delivered.handled` : what is seen, if the process survives, is handled in the sense of `Traces`.
-/

namespace ForteOpcUa

open Interaction
open Interaction.Prog

open OpcUaPublish (Formatted clientView written copied replied)

/-- C does not say what the step does, so the process may end there. -/
def Undefined (P : Platform) (past : List (Event Formatted)) : Event Formatted → Prop
  | ⟨.sprintf w, _⟩ => w.text P = none ∨ ¬ w.Fits P
  | ⟨.strcpy _, _⟩ => True
  | ⟨.request o, _⟩ => o.Undefined (past.filterMap clientView.event)

/-! ## Handlers without writes -/

/-- A handler over the client library alone, as one that could write. -/
def raised : Prog Client Unit → Prog Formatted (Option Unit)
  | .ret a => .ret (some a)
  | .call o next => .call (.request o) fun r => raised (next (OpcUaPublish.shownReply o r))

theorem raised_implements (p : Prog Client Unit) :
    Implements clientView (fun _ => True) OpcUaPublish.Formatting.Returns (raised p) p := by
  induction p with
  | ret a =>
      exact .ret rfl
  | call o next ih =>
      exact .shown rfl fun r _ => ih (OpcUaPublish.shownReply o r)

/-- What the client library sees of it is a run of the handler. -/
theorem run_of_raised {p : Prog Client Unit} {tr : List (Event Formatted)} {a : Option Unit}
    (h : Run (raised p) tr a) : Run p (tr.filterMap clientView.event) () := by
  rcases (raised_implements p).run h fun _ _ => trivial with ⟨⟨⟩, -, hrun⟩
  exact hrun

/-- It issues the requests of the handler and writes nothing. -/
theorem raised_always {P : Call → Prop} {p : Prog Client Unit} (h : p.Always P) :
    (raised p).Always fun o => ∃ o', o = OpcUaPublish.Step.request o' ∧ P o' := by
  induction p with
  | ret a =>
      exact always_ret _ _
  | call o next ih =>
      exact ⟨⟨o, rfl, h.1⟩, fun r => ih _ (h.2 (OpcUaPublish.shownReply o r))⟩

/-- The event of a request, seen by the client library. -/
theorem event_request (o : Call) (r : OpcUaPublish.RawReply o) :
    clientView.event ⟨.request o, r⟩ = some (answered o (OpcUaPublish.shownReply o r)) :=
  rfl

/-- Requests alone that look like a run of the handler are one. -/
theorem raised_run {p : Prog Client Unit} {tr : List (Event Formatted)}
    (h : Run p (tr.filterMap clientView.event) ())
    (hall : ∀ e ∈ tr, ∃ o, e.op = OpcUaPublish.Step.request o) : Run (raised p) tr (some ()) := by
  induction p generalizing tr with
  | ret a =>
      cases tr with
      | nil =>
          exact Run.ret _
      | cons e tr =>
          rcases e with ⟨o, r⟩
          rcases hall ⟨o, r⟩ (by simp) with ⟨o, rfl⟩
          rw [List.filterMap_cons_some (event_request o r), run_ret_iff] at h
          cases h.1
  | call o next ih =>
      rcases run_call_iff.1 h with ⟨r, rest, htr, hrest⟩
      cases tr with
      | nil =>
          cases htr
      | cons e tr =>
          rcases e with ⟨o', r'⟩
          rcases hall ⟨o', r'⟩ (by simp) with ⟨o', rfl⟩
          rw [List.filterMap_cons_some (event_request o' r'), List.cons.injEq] at htr
          rcases htr with ⟨⟨⟩, rfl⟩
          exact Run.call _ _ _ _ _ (ih _ hrest fun e he => hall e (by simp [he]))

/-- It ends with the confirmation if that is the last thing seen of it. -/
theorem raised_getLast {p : Prog Client Unit} {tr : List (Event Formatted)} {a : Option Unit}
    (h : Run (raised p) tr a) (hlast : (tr.filterMap clientView.event).getLast? =
      some (answered (.sendOutputEvent eventCNF) ())) :
    tr.getLast? = some (replied (.sendOutputEvent eventCNF) ()) := by
  have hall := raised_always (always_of_forall (P := fun _ => True) (fun _ => trivial) p)
  rcases List.eq_nil_or_concat tr with rfl | ⟨past, ⟨o, r⟩, rfl⟩
  · cases hlast
  · rcases h.always hall ⟨o, r⟩ (by simp) with ⟨o', rfl, -⟩
    rw [List.concat_eq_append, List.filterMap_append, List.filterMap_cons_some (event_request o' r),
      List.filterMap_nil, List.getLast?_concat, Option.some.injEq, Event.mk.injEq] at hlast
    rcases hlast with ⟨rfl, -⟩
    rw [List.concat_eq_append, List.getLast?_concat]

namespace OpcUaPublish

namespace Formatting

/-! ## How a publish request ends -/

/-- The run has stopped at a write that could not read its argument. -/
def Faulted (P : Platform) (tr : List (Event Formatted)) : Prop :=
  ∃ past w, tr = past ++ [written w] ∧ w.text P = none

/-- The loops of the trace report what `search` finds, and its last step is the confirmation. -/
structure Completes (P : Platform) (sameText : SameText) (fb_id var_id : Name)
    (tr : List (Event Formatted)) : Prop where
  reports : ∀ e ∈ tr, Reports P sameText fb_id var_id e
  last : tr.getLast? = some (replied (.sendOutputEvent eventCNF) ())

section Completes

variable {P : Platform} {sameText : SameText} {client : Handle} {fb_id var_id : Name}
variable {e : Event Formatted} {tr tr' : List (Event Formatted)} {a : Option Unit}

theorem Faulted.cons (h : Faulted P tr) : Faulted P (e :: tr) := by
  rcases h with ⟨past, w, rfl, hw⟩
  exact ⟨e :: past, w, rfl, hw⟩

theorem Completes.cons (he : Reports P sameText fb_id var_id e)
    (h : Completes P sameText fb_id var_id tr) : Completes P sameText fb_id var_id (e :: tr) := by
  refine ⟨?_, ?_⟩
  · intro e' he'
    rcases List.mem_cons.1 he' with rfl | he'
    · exact he
    · exact h.reports e' he'
  · rw [List.getLast?_cons, h.last]
    rfl

theorem Faulted.visited {targets : List RawNodeId} (h : Faulted P tr) :
    Faulted P
      ((OpcUaPublish.visited P targets).map (fun nodeId => written (.nodeIdString nodeId)) ++ tr) := by
  rcases h with ⟨past, w, rfl, hw⟩
  exact ⟨_, w, (List.append_assoc ..).symm, hw⟩

/-- The writes of a loop search nothing. -/
theorem Completes.visited {targets : List RawNodeId} (h : Completes P sameText fb_id var_id tr) :
    Completes P sameText fb_id var_id
      ((OpcUaPublish.visited P targets).map (fun nodeId => written (.nodeIdString nodeId)) ++ tr) := by
  induction OpcUaPublish.visited P targets with
  | nil =>
      exact h
  | cons nodeId rest ih =>
      exact ih.cons (by trivial)

theorem finish_completes (h : Run (finish client) tr a) :
    Completes P sameText fb_id var_id tr := by
  simp only [finish, run_call_iff, run_ret_iff] at h
  rcases h with ⟨_, _, rfl, _, _, rfl, _, _, rfl, rfl, -⟩
  exact ⟨by simp [Reports], rfl⟩

theorem addItemStage_completes (h : Run (addItemStage client fb_id var_id) tr a) :
    Completes P sameText fb_id var_id tr := by
  rcases run_written_iff.1 h with ⟨_, rfl, h₁⟩
  rcases run_written_iff.1 h₁ with ⟨_, rfl, h₂⟩
  rcases run_call_iff.1 h₂ with ⟨_, _, rfl, h₃⟩
  exact (((finish_completes h₃).cons (by trivial)).cons (by trivial)).cons (by trivial)

theorem deleteStage_completes (h : Run (deleteStage client fb_id var_id) tr a) :
    Completes P sameText fb_id var_id tr := by
  rcases run_call_iff.1 h with ⟨_, _, rfl, h₁⟩
  exact (addItemStage_completes h₁).cons (by trivial)

theorem addObjectStage_completes (h : Run (addObjectStage client fb_id var_id) tr a) :
    Completes P sameText fb_id var_id tr := by
  rcases run_written_iff.1 h with ⟨_, rfl, h₁⟩
  rcases run_call_iff.1 h₁ with ⟨_, _, rfl, h₂⟩
  exact ((addItemStage_completes h₂).cons (by trivial)).cons (by trivial)

/-- A loop that cannot read a target stops at it. -/
theorem visited_faulted {targets : List RawNodeId} (h : ¬ Readable P targets) :
    Faulted P ((OpcUaPublish.visited P targets).map fun nodeId => written (.nodeIdString nodeId)) := by
  induction targets with
  | nil =>
      exact absurd (by simp [Readable]) h
  | cons nodeId targets ih =>
      by_cases hread : P.printed nodeId = none
      · exact ⟨[], .nodeIdString nodeId, by simp [OpcUaPublish.visited, hread], hread⟩
      · have hrest : ¬ Readable P targets := fun hrest => h (readable_cons.2 ⟨hread, hrest⟩)
        simpa [OpcUaPublish.visited, hread] using (ih hrest).cons

/-- A search stops at a target that it cannot read, or goes on with its flag. -/
theorem search_run {wanted : ByteString} {targets : List RawNodeId}
    {next : Bool → Prog Formatted (Option Unit)}
    (h : Run (Option.elimM (searchLoop P wanted targets false).run (.ret none) next) tr a) :
    Faulted P tr ∨ ∃ rest, Readable P targets ∧
      tr = (OpcUaPublish.visited P targets).map (fun nodeId => written (.nodeIdString nodeId)) ++
        rest ∧ Run (next (decide (Shows P wanted targets))) rest a := by
  rcases run_bind_iff.1 h with ⟨first, rest, flag, rfl, hloop, hrest⟩
  rcases searchLoop_run_iff.1 hloop with ⟨rfl, rfl⟩
  by_cases hread : Readable P targets
  · exact Or.inr ⟨rest, hread, rfl, by simpa [loopResult, hread] using hrest⟩
  · have hnil := run_ret_iff.1 (by simpa [loopResult, hread] using hrest)
    rw [hnil.1, List.append_nil]
    exact Or.inl (visited_faulted hread)

/-- A report by the wanted text alone, as a loop over such a reply makes it. -/
theorem search_byText {bResp : RawBrowseResponse} {wanted : ByteString} (report : ByteString → Bool)
    (h : report wanted = decide (Shows P wanted bResp.targets)) :
    search (fun _ text => report text) bResp.decoded wanted =
      decide (Shows P wanted bResp.targets) := by
  -- A text that is shown is shown by a target.
  have hany : search (fun _ text => report text) bResp.decoded wanted = true ↔
      report wanted = true ∧ ∃ nodeId, nodeId ∈ bResp.targets := by
    simp only [search, RawBrowseResponse.decoded, RawBrowseResult.decoded,
      RawBrowseResponse.targets, List.any_eq_true, List.mem_map, List.mem_flatMap]
    constructor
    · rintro ⟨_, ⟨result, hresult, rfl⟩, _, hmem, hreport⟩
      rcases List.mem_map.1 hmem with ⟨ref, href, rfl⟩
      exact ⟨hreport, ref.nodeId, result, hresult, ref, href, rfl⟩
    · rintro ⟨hreport, _, result, hresult, ref, href, rfl⟩
      exact ⟨_, ⟨result, hresult, rfl⟩, ref.decoded, List.mem_map_of_mem href, hreport⟩
  rw [Bool.eq_iff_iff, hany, h]
  constructor
  · exact And.left
  · intro hshown
    refine ⟨hshown, ?_⟩
    rcases of_decide_eq_true hshown with ⟨nodeId, hmem, -⟩
    exact ⟨nodeId, hmem⟩

theorem browseItemStage_completes (h : Run (browseItemStage P client fb_id var_id) tr a) :
    Faulted P tr ∨ ∃ found, ∀ report : ByteString → Bool,
      report (varBrowseId fb_id var_id) = found →
        Completes P (fun _ text => report text) fb_id var_id tr := by
  rcases run_call_iff.1 h with ⟨bResp, _, rfl, h₁⟩
  rcases search_run h₁ with hfault | ⟨rest, hread, rfl, h₂⟩
  · exact Or.inl hfault.cons
  · refine Or.inr ⟨decide (Shows P (varBrowseId fb_id var_id) bResp.targets), ?_⟩
    intro report hreport
    -- Found or not, nothing is searched any more.
    have hrest : Completes P (fun _ text => report text) fb_id var_id rest := by
      split at h₂
      · exact deleteStage_completes h₂
      · exact addItemStage_completes h₂
    have hwanted : (wantedAt fb_id var_id (objectId fb_id)).text = varBrowseId fb_id var_id := by
      rw [wantedAt, if_neg (objectId_ne_objectsFolder fb_id)]
      rfl
    refine hrest.visited.cons ?_
    rw [Reports, hwanted, search_byText report hreport, loopResult, if_pos hread, Bool.false_or]

theorem browseStage_completes (h : Run (browseStage P client fb_id var_id) tr a) :
    Faulted P tr ∨ ∃ shown found, ∀ report : ByteString → Bool,
      report fb_id.text = shown → report (varBrowseId fb_id var_id) = found →
        Completes P (fun _ text => report text) fb_id var_id tr := by
  rcases run_call_iff.1 h with ⟨bResp, _, rfl, h₁⟩
  rcases search_run h₁ with hfault | ⟨rest, hread, rfl, h₂⟩
  · exact Or.inl hfault.cons
  · have hrest : Faulted P rest ∨ ∃ found, ∀ report : ByteString → Bool,
        report (varBrowseId fb_id var_id) = found →
          Completes P (fun _ text => report text) fb_id var_id rest := by
      split at h₂
      · exact Or.inr ⟨true, fun _ _ => addObjectStage_completes h₂⟩
      · exact browseItemStage_completes h₂
    rcases hrest with hfault | ⟨found, hrest⟩
    · exact Or.inl (hfault.visited).cons
    · refine Or.inr ⟨decide (Shows P fb_id.text bResp.targets), found, ?_⟩
      intro report hshown hfound
      have hwanted : (wantedAt fb_id var_id objectsFolder).text = fb_id.text := by
        rw [wantedAt, if_pos rfl]
      refine (hrest report hfound).visited.cons ?_
      rw [Reports, hwanted, search_byText report hshown, loopResult, if_pos hread, Bool.false_or]

theorem connectStage_completes (h : Run (connectStage P client fb_id var_id) tr a) :
    Faulted P tr ∨ ∃ sameText, Completes P sameText fb_id var_id tr := by
  rcases run_call_iff.1 h with ⟨retval, _, rfl, h₁⟩
  split at h₁
  · rcases browseStage_completes h₁ with hfault | ⟨shown, found, hrest⟩
    · exact Or.inl hfault.cons
    · -- The two wanted texts differ, so one report answers for both loops.
      have hne : varBrowseId fb_id var_id ≠ fb_id.text := by
        simp [varBrowseId]
      refine Or.inr ⟨fun _ text => if text = fb_id.text then shown else found, ?_⟩
      exact (hrest (fun text => if text = fb_id.text then shown else found) (if_pos rfl)
        (if_neg hne)).cons (by trivial)
  · simp only [run_call_iff, run_ret_iff] at h₁
    rcases h₁ with ⟨_, _, rfl, _, _, rfl, rfl, -⟩
    exact Or.inr ⟨exactText, by simp [Reports], rfl⟩

theorem newStage_completes {source : SourcePoint} (h : Run (newStage P source) tr a) :
    Faulted P tr ∨
      ∃ sameText, Completes P sameText source.sourceFBName source.sourceDataPointName tr := by
  rcases run_written_iff.1 h with ⟨_, rfl, h₁⟩
  rcases run_copied_iff.1 h₁ with ⟨_, rfl, h₂⟩
  rcases run_copied_iff.1 h₂ with ⟨_, rfl, h₃⟩
  rcases run_written_iff.1 h₃ with ⟨_, rfl, h₄⟩
  rcases run_call_iff.1 h₄ with ⟨_, _, rfl, h₅⟩
  rcases connectStage_completes h₅ with hfault | ⟨sameText, hrest⟩
  · exact Or.inl hfault.cons.cons.cons.cons.cons
  · exact Or.inr ⟨sameText, ((((hrest.cons (by trivial)).cons (by trivial)).cons
      (by trivial)).cons (by trivial)).cons (by trivial)⟩

end Completes

/-- A source port as the connection of the block shows it. -/
def SourcePoint.point (source : SourcePoint) : ConnectionPoint where
  mFB :=
    { instanceName := source.sourceFBName
      outputs := [{ name := source.sourceDataPointName, dataType := .bool }] }
  mPortId := 0

/-- Inputs with this connection; the value is never read. -/
def inputs (connection : Option SourcePoint) : Inputs where
  connection := connection.map SourcePoint.point
  IN := .bool false
  typed := by
    intro p hp
    rcases Option.map_eq_some_iff.1 hp with ⟨source, -, rfl⟩
    rfl

/-- A request stops at a write that cannot read its argument, or it is, its writes hidden, a request
with some searches. -/
theorem executeEvent_cases {P : Platform} {connection : Option SourcePoint}
    {tr : List (Event Formatted)} {a : Option Unit}
    (h : Run (executeEvent P eventREQ connection).run tr a) :
    Faulted P tr ∨ (tr.getLast? = some (replied (.sendOutputEvent eventCNF) ()) ∧
      ∃ sameText, Run (OpcUaPublish.executeEvent sameText eventREQ (inputs connection))
        (tr.filterMap clientView.event) ()) := by
  cases connection with
  | none =>
      have hrun : Run (.call (S := Formatted) (.request (.sendOutputEvent eventCNF)) fun r =>
          .ret (some r)) tr a := h
      rcases run_call_iff.1 hrun with ⟨_, _, rfl, hret⟩
      rcases run_ret_iff.1 hret with ⟨rfl, -⟩
      refine Or.inr ⟨rfl, exactText, ?_⟩
      rw [OpcUaPublish.executeEvent_unconnected rfl]
      exact Run.call _ _ _ _ _ (Run.ret _)
  | some source =>
      rcases newStage_completes (executeEvent_connected P source ▸ h) with hfault | ⟨sameText, hc⟩
      · exact Or.inl hfault
      · have hconn : (inputs (some source)).connection = some source.point := rfl
        exact Or.inr ⟨hc.last, sameText, (executeEvent_reported hconn rfl rfl h hc.reports).2⟩

end Formatting

end OpcUaPublish

/-! ## Deliveries -/

/-- A `REQ` event delivered to one of the blocks, with the inputs it finds. -/
inductive Delivery
  | publish (connection : Option OpcUaPublish.Formatting.SourcePoint)
  | read (SERVER NODE : ByteString)
  | subscribe (SERVER NODE : ByteString)
  | write (SERVER NODE : ByteString) (IN : Int16)

namespace Delivery

/-- The request as the client library sees it. -/
def request : Delivery → Request
  | publish connection => .publish (OpcUaPublish.Formatting.inputs connection)
  | read SERVER NODE => .read SERVER NODE
  | subscribe SERVER NODE => .subscribe SERVER NODE
  | write SERVER NODE IN => .write SERVER NODE IN

/-- The handler that the event starts; only `OPC_UA_PUBLISH` formats and copies. -/
def routine (P : Platform) : Delivery → Prog Formatted (Option Unit)
  | publish connection => (OpcUaPublish.Formatting.executeEvent P eventREQ connection).run
  | read SERVER NODE => raised (OpcUaRead.executeEvent eventREQ SERVER NODE)
  | subscribe SERVER NODE => raised (OpUaSubscribe.executeEvent eventREQ SERVER NODE)
  | write SERVER NODE IN => raised (OpcUaWrite.executeEvent eventREQ SERVER NODE IN)

end Delivery

/-- A `REQ` event that was delivered: what the handler would do as written, for the replies it got,
and what is seen of it, which may break off where C leaves the effect undefined. -/
structure Delivered (P : Platform) where
  delivery : Delivery
  whole : List (Event Formatted)
  result : Option Unit
  ran : Run (delivery.routine P) whole result
  seen : List (Event Formatted)
  shown : Seen (Undefined P) whole seen

namespace Delivered

variable {P : Platform}

/-- The calls and outputs that are seen. -/
def calls (x : Delivered P) : List ClientEvent :=
  x.seen.filterMap clientView.event

/-- The process ends at an operation that C leaves undefined. -/
def Dies (x : Delivered P) : Prop :=
  Breaks (Undefined P) x.seen

/-- A request that the process survives is a request in the sense of the client library, and its last
step is seen there. -/
theorem handled (x : Delivered P) (h : ¬ x.Dies) :
    ∃ sameText, ∃ y : Handled sameText, y.request = x.delivery.request ∧ y.trace = x.calls := by
  rcases x with ⟨delivery, whole, result, ran, seen, shown⟩
  have hseen : seen = whole := shown.eq_of_not_breaks h
  subst hseen
  cases delivery with
  | publish connection =>
      rcases OpcUaPublish.Formatting.executeEvent_cases ran with ⟨past, w, rfl, hw⟩ | ⟨-, sameText, hrun⟩
      · exact absurd ⟨past, written w, rfl, Or.inl hw⟩ h
      · exact ⟨sameText, ⟨.publish _, _, hrun⟩, rfl, rfl⟩
  | read SERVER NODE =>
      exact ⟨OpcUaPublish.exactText, ⟨.read SERVER NODE, _, run_of_raised ran⟩, rfl, rfl⟩
  | subscribe SERVER NODE =>
      exact ⟨OpcUaPublish.exactText, ⟨.subscribe SERVER NODE, _, run_of_raised ran⟩, rfl, rfl⟩
  | write SERVER NODE IN =>
      exact ⟨OpcUaPublish.exactText, ⟨.write SERVER NODE IN, _, run_of_raised ran⟩, rfl, rfl⟩

/-- If the last call that is seen is the confirmation, no step follows it. -/
theorem getLast_seen (x : Delivered P) (h : ¬ x.Dies)
    (hlast : x.calls.getLast? = some (answered (.sendOutputEvent eventCNF) ())) :
    x.seen.getLast? = some (replied (.sendOutputEvent eventCNF) ()) := by
  rcases x with ⟨delivery, whole, result, ran, seen, shown⟩
  have hseen : seen = whole := shown.eq_of_not_breaks h
  subst hseen
  cases delivery with
  | publish connection =>
      rcases OpcUaPublish.Formatting.executeEvent_cases ran with ⟨past, w, rfl, hw⟩ | ⟨hend, -⟩
      · exact absurd ⟨past, written w, rfl, Or.inl hw⟩ h
      · exact hend
  | read SERVER NODE => exact raised_getLast ran hlast
  | subscribe SERVER NODE => exact raised_getLast ran hlast
  | write SERVER NODE IN => exact raised_getLast ran hlast

end Delivered

end ForteOpcUa
