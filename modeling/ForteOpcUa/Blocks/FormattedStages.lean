import ForteOpcUa.Blocks.SearchLoops
import ForteOpcUa.Blocks.Traces

/-!
# FormattedStages — the handler with its writes, cut at its requests

The stages of `Formatting.executeEvent` follow those of `OpcUaPublish`, each with the writes that
come before its request.

- `executeEvent_reported` : as long as the loops report what `search` finds, the handler with its
  writes does what the handler without them does,
- `executeEvent_exact`    : on clear replies that is the handler with exact searches.
-/

namespace ForteOpcUa

open Interaction
open Interaction.Prog

namespace OpcUaPublish

namespace Formatting

/-! ## Stages -/

section Stages

variable (P : Platform) (client : Handle) (fb_id var_id : Name)

/-- Disconnect, release the client and confirm. -/
def finish : Prog Formatted (Option Unit) :=
  .call (.request (.disconnect client)) fun _ =>
    .call (.request (.clientDelete client)) fun _ =>
      .call (.request (.sendOutputEvent eventCNF)) fun r => .ret (some r)

/-- About to format the texts of the variable node and to add it. -/
def addItemStage : Prog Formatted (Option Unit) :=
  .call (.sprintf (.variableDisplay var_id)) fun _ =>
    .call (.sprintf (.browse fb_id var_id)) fun _ =>
      .call (.request (.addNode client (variableItem fb_id var_id))) fun _ => finish client

/-- About to delete the variable node that was found. -/
def deleteStage : Prog Formatted (Option Unit) :=
  .call (.request (.deleteNode client (NodeId.string 1 (varBrowseId fb_id var_id)) false))
    fun _ => addItemStage client fb_id var_id

/-- About to browse the object of the function block. -/
def browseItemStage : Prog Formatted (Option Unit) :=
  .call (.request (.browse client (objectId fb_id))) fun bResp =>
    Option.elimM (variableSearch P bResp fb_id var_id).run (.ret none) fun var_found =>
      if var_found then deleteStage client fb_id var_id else addItemStage client fb_id var_id

/-- About to format the display name of the object and to add it. -/
def addObjectStage : Prog Formatted (Option Unit) :=
  .call (.sprintf (.objectDisplay fb_id)) fun _ =>
    .call (.request (.addNode client (objectItem fb_id))) fun _ =>
      addItemStage client fb_id var_id

/-- About to browse the objects folder. -/
def browseStage : Prog Formatted (Option Unit) :=
  .call (.request (.browse client objectsFolder)) fun bResp =>
    Option.elimM (objectSearch P bResp fb_id).run (.ret none) fun node_found =>
      if node_found = false then
        addObjectStage client fb_id var_id
      else
        browseItemStage P client fb_id var_id

/-- About to connect. -/
def connectStage : Prog Formatted (Option Unit) :=
  .call (.request (.connect client localServer)) fun retval =>
    if retval = StatusCode.good then
      browseStage P client fb_id var_id
    else
      .call (.request (.clientDelete client)) fun _ =>
        .call (.request (.sendOutputEvent eventCNF)) fun r => .ret (some r)

/-- About to format the message and the id of the variable. -/
def newStage (source : SourcePoint) : Prog Formatted (Option Unit) :=
  .call (.sprintf (.message source.sourceFBName source.sourceDataPointName
      source.sourceDataPointTypeName)) fun _ =>
    .call (.strcpy source.sourceFBName) fun _ =>
      .call (.strcpy source.sourceDataPointName) fun _ =>
        .call (.sprintf (.varBrowseId source.sourceFBName source.sourceDataPointName)) fun _ =>
          .call (.request .clientNew) fun client =>
            connectStage P client source.sourceFBName source.sourceDataPointName

end Stages

/-- With a connection the handler is its first stage. -/
theorem executeEvent_connected (P : Platform) (source : SourcePoint) :
    (executeEvent P eventREQ (some source)).run = newStage P source := by
  -- The `do` block reassociates to the stages, and no text formatted outside the loops can fault.
  simp [executeEvent, createFBNode, createVariableNode, request, perform, run_sprintf, run_strcpy,
    newStage, connectStage, browseStage, browseItemStage, addObjectStage, deleteStage, addItemStage,
    finish, Sprintf.text, apply_ite OptionT.run]

/-! ## What is left when the writes are hidden -/

/-- The text that the loop over the references of `id` looks for. -/
def wantedAt (fb_id var_id : Name) (id : NodeId) : Name :=
  if id = objectsFolder then fb_id else varBrowseName fb_id var_id

/-- On this reply the loop reports what `search` finds with `sameText`. -/
def Reports (P : Platform) (sameText : SameText) (fb_id var_id : Name) : Event Formatted → Prop
  | ⟨.request (.browse _ id), bResp⟩ =>
      loopResult P (wantedAt fb_id var_id id).text bResp.targets false =
        some (search sameText bResp.decoded (wantedAt fb_id var_id id).text)
  | _ => True

/-- A program that comes to its end returns what the other one returns. -/
abbrev Returns : Option Unit → Unit → Prop :=
  fun a b => a = some b

section Implementation

variable {P : Platform} {sameText : SameText} {client : Handle} {fb_id var_id : Name}

/-- The writes of a loop are hidden, and what comes after it goes on with its flag. -/
theorem searchLoop_implements {ok : Event Formatted → Prop} {wanted : ByteString}
    {targets : List RawNodeId} {found flag : Bool} {last : Prog Formatted (Option Unit)}
    {next : Bool → Prog Formatted (Option Unit)} {q : Prog Client Unit}
    (hflag : loopResult P wanted targets found = some flag)
    (hnext : Implements clientView ok Returns (next flag) q) :
    Implements clientView ok Returns
      (Option.elimM (searchLoop P wanted targets found).run last next) q := by
  induction targets generalizing found with
  | nil =>
      have hfound : found = flag := by simpa [loopResult, Readable, Shows] using hflag
      subst hfound
      exact hnext
  | cons nodeId targets ih =>
      rw [searchLoop, OptionT.run_bind, run_sprintf, elimM_call, elimM_call]
      refine Implements.hidden rfl fun _ _ => ?_
      -- A loop with a result has read its first target.
      cases htext : P.printed nodeId with
      | none =>
          rw [loopResult_cons_none htext] at hflag
          cases hflag
      | some text =>
          rw [loopResult_cons_some htext] at hflag
          simpa [Sprintf.text, htext] using ih hflag

theorem finish_implements {ok : Event Formatted → Prop} :
    Implements clientView ok Returns (finish client) (ForteOpcUa.finish client eventCNF) :=
  .shown rfl fun _ _ => .shown rfl fun _ _ => .shown rfl fun _ _ => .ret rfl

theorem addItemStage_implements {ok : Event Formatted → Prop} :
    Implements clientView ok Returns (addItemStage client fb_id var_id)
      (OpcUaPublish.addItemStage client fb_id var_id) :=
  .hidden rfl fun _ _ => .hidden rfl fun _ _ => .shown rfl fun _ _ => finish_implements

theorem deleteStage_implements {ok : Event Formatted → Prop} :
    Implements clientView ok Returns (deleteStage client fb_id var_id)
      (OpcUaPublish.deleteStage client fb_id var_id) :=
  .shown rfl fun _ _ => addItemStage_implements

theorem browseItemStage_implements :
    Implements clientView (Reports P sameText fb_id var_id) Returns
      (browseItemStage P client fb_id var_id)
      (OpcUaPublish.browseItemStage sameText client fb_id var_id) := by
  refine .shown rfl fun bResp hreports => ?_
  -- The object's id is a string, so the loop looks for the variable.
  have hwanted : wantedAt fb_id var_id (objectId fb_id) = varBrowseName fb_id var_id :=
    if_neg (objectId_ne_objectsFolder fb_id)
  rw [Reports, hwanted] at hreports
  exact searchLoop_implements hreports
    (.ite (fun _ => deleteStage_implements) fun _ => addItemStage_implements)

theorem addObjectStage_implements {ok : Event Formatted → Prop} :
    Implements clientView ok Returns (addObjectStage client fb_id var_id)
      (OpcUaPublish.addObjectStage client fb_id var_id) :=
  .hidden rfl fun _ _ => .shown rfl fun _ _ => addItemStage_implements

theorem browseStage_implements :
    Implements clientView (Reports P sameText fb_id var_id) Returns
      (browseStage P client fb_id var_id)
      (OpcUaPublish.browseStage sameText client fb_id var_id) := by
  refine .shown rfl fun bResp hreports => ?_
  have hwanted : wantedAt fb_id var_id objectsFolder = fb_id := if_pos rfl
  rw [Reports, hwanted] at hreports
  exact searchLoop_implements hreports
    (.ite (fun _ => addObjectStage_implements) fun _ => browseItemStage_implements)

/-- The handler with its writes does what the handler without them does, as long as its loops
report what `search` finds. -/
theorem newStage_implements (P : Platform) (sameText : SameText) (source : SourcePoint) :
    Implements clientView
      (Reports P sameText source.sourceFBName source.sourceDataPointName) Returns
      (newStage P source)
      (OpcUaPublish.newStage sameText source.sourceFBName source.sourceDataPointName) := by
  refine .hidden rfl fun _ _ => .hidden rfl fun _ _ => .hidden rfl fun _ _ =>
    .hidden rfl fun _ _ => .shown rfl fun client _ => .shown rfl fun retval _ =>
      .ite (fun _ => browseStage_implements) fun _ => ?_
  exact .shown rfl fun _ _ => .shown rfl fun _ _ => .ret rfl

end Implementation

/-! ## Exact replies -/

/-- On a decoded reply the exact report finds the wanted node where it is targeted. -/
theorem search_exactText (bResp : RawBrowseResponse) (wanted : Name) :
    search exactText bResp.decoded wanted.text =
      decide (RawNodeId.string 1 wanted.text ∈ bResp.targets) := by
  rw [Bool.eq_iff_iff]
  simp [search, exactText, RawBrowseResponse.decoded, RawBrowseResult.decoded,
    RawReferenceDescription.decoded, RawBrowseResponse.targets,
    RawNodeId.decoded_eq_string wanted.nonempty]

/-- The reply can be read, and the wanted text is shown by an impostor only beside the wanted
node. -/
def Clear (P : Platform) (fb_id var_id : Name) : Event Formatted → Prop
  | ⟨.request (.browse _ id), bResp⟩ =>
      Readable P bResp.targets ∧ Unmistakable P (wantedAt fb_id var_id id).text bResp.targets
  | _ => True

/-- On such a reply the loop reports what the exact search finds. -/
theorem Clear.reports {P : Platform} {fb_id var_id : Name} {e : Event Formatted}
    (h : Clear P fb_id var_id e) : Reports P exactText fb_id var_id e := by
  -- Only the replies to a browse are restricted.
  rcases e with ⟨o | w | source, r⟩
  · cases o with
    | browse client id =>
        rw [Reports, search_exactText]
        exact loopResult_exact_iff.2 h
    | _ => trivial
  · trivial
  · trivial

section Requests

variable {P : Platform} {sameText : SameText} {source : SourcePoint} {inputs : Inputs}
variable {point : ConnectionPoint} {tr : List (Event Formatted)} {a : Option Unit}

/-- A request whose loops report what `search` finds is, its writes hidden, a request with these
searches; what is proved of those holds of it. -/
theorem executeEvent_reported (hconn : inputs.connection = some point)
    (hfb : point.sourceFBName = source.sourceFBName)
    (hvar : point.sourceDataPointName = source.sourceDataPointName)
    (h : Run (executeEvent P eventREQ (some source)).run tr a)
    (hreports : ∀ e ∈ tr,
      Reports P sameText source.sourceFBName source.sourceDataPointName e) :
    a = some () ∧
      Run (OpcUaPublish.executeEvent sameText eventREQ inputs)
        (tr.filterMap clientView.event) () := by
  rw [executeEvent_connected] at h
  rcases (newStage_implements P sameText source).run h hreports with ⟨b, ha, hrun⟩
  rw [OpcUaPublish.executeEvent_connected hconn, hfb, hvar]
  exact ⟨ha, hrun⟩

/-- A request whose browse replies are clear has exact searches. -/
theorem executeEvent_exact (hconn : inputs.connection = some point)
    (hfb : point.sourceFBName = source.sourceFBName)
    (hvar : point.sourceDataPointName = source.sourceDataPointName)
    (h : Run (executeEvent P eventREQ (some source)).run tr a)
    (hclear : ∀ e ∈ tr, Clear P source.sourceFBName source.sourceDataPointName e) :
    a = some () ∧
      Run (OpcUaPublish.executeEvent exactText eventREQ inputs)
        (tr.filterMap clientView.event) () :=
  executeEvent_reported hconn hfb hvar h fun e he => (hclear e he).reports

end Requests

end Formatting

end OpcUaPublish

end ForteOpcUa
