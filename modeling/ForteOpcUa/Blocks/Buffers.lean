import ForteOpcUa.Blocks.FormattedStages

/-!
# Buffers — when every formatted text fits its destination

`OPC_UA_PUBLISH` formats names of any length, and the identifiers of a browse reply, into arrays of
128, 64 and 32 bytes.

- `Sprintf.Fits`, `AllFit` : a text with its terminating zero fits; all writes of a trace do,
- `NamesFit`, `RepliesFit` : bounds on the names of the source port, and on each browse reply,
- `writes_fit_iff`         : all writes of a request fit exactly under these bounds.

The text `fb_id.var_id` is formatted twice, into 64 bytes to search for it and into 32 to create
it.
-/

namespace ForteOpcUa

open Interaction
open Interaction.Prog

namespace OpcUaPublish

/-! ## Single writes -/

/-- If a text is written, it fits the destination with its terminating zero. -/
def Sprintf.Fits (P : Platform) (w : Sprintf) : Prop :=
  ∀ text, w.text P = some text → text.length + 1 ≤ w.capacity

/-- The object's display name fits. -/
def ObjectFits (fb_id : Name) : Prop :=
  fb_id.text.length + 4 ≤ 32

/-- The variable's display name and its browse name fit. -/
def ItemFits (fb_id var_id : Name) : Prop :=
  var_id.text.length + 10 ≤ 32 ∧ fb_id.text.length + var_id.text.length + 2 ≤ 32

/-- The log message and the id of the variable fit. -/
def NamesFit (source : Formatting.SourcePoint) : Prop :=
  source.sourceFBName.text.length + source.sourceDataPointName.text.length +
      source.sourceDataPointTypeName.text.length + 4 ≤ 128 ∧
    source.sourceFBName.text.length + source.sourceDataPointName.text.length + 2 ≤ 64

/-- A string prints at most 63 bytes: it has no more, or one of its first 64 is zero. -/
def ShortString (P : Platform) : RawString → Prop
  | some value => value.length < 64 ∨ 0 ∈ value.take 64
  | none => ∀ text, P.printedNull (-1) = some text → text.length < 64

/-- The identifier prints at most 63 bytes, whatever its tag. -/
def Short (P : Platform) (nodeId : RawNodeId) : Prop :=
  match nodeId.identifier with
  | .numeric value => ∀ text, P.printedNull value.toInt32 = some text → text.length < 64
  | .string value => ShortString P value
  | .guid value => ∀ text, (P.guid value).map (Memory.upTo 0) = some text → text.length < 64
  | .byteString value => ShortString P value

instance (fb_id : Name) : Decidable (ObjectFits fb_id) :=
  inferInstanceAs (Decidable (_ ≤ _))

instance (fb_id var_id : Name) : Decidable (ItemFits fb_id var_id) :=
  inferInstanceAs (Decidable (_ ∧ _))

instance (source : Formatting.SourcePoint) : Decidable (NamesFit source) :=
  inferInstanceAs (Decidable (_ ∧ _))

namespace Sprintf

variable {P : Platform} {fb_id var_id type : Name}

theorem fits_iff {w : Sprintf} {text : ByteString} (h : w.text P = some text) :
    w.Fits P ↔ text.length + 1 ≤ w.capacity := by
  constructor
  · intro hfits
    exact hfits text h
  · rintro hlen text' h'
    rw [h] at h'
    cases h'
    exact hlen

theorem message_fits_iff :
    (message fb_id var_id type).Fits P ↔
      fb_id.text.length + var_id.text.length + type.text.length + 4 ≤ 128 := by
  have hlen : (fb_id.text ++ ascii " " ++ var_id.text ++ ascii " " ++ type.text ++
      ascii "\n").length =
        fb_id.text.length + 1 + var_id.text.length + 1 + type.text.length + 1 := by
    simp only [List.length_append]
    rfl
  rw [fits_iff rfl, hlen, capacity]
  omega

theorem varBrowseId_fits_iff :
    (varBrowseId fb_id var_id).Fits P ↔
      fb_id.text.length + var_id.text.length + 2 ≤ 64 := by
  rw [fits_iff rfl, OpcUaPublish.varBrowseId, List.length_append, List.length_cons, capacity]
  omega

theorem shortString_iff {value : RawString} :
    ShortString P value ↔ ∀ text, P.printedString value = some text → text.length < 64 := by
  cases value with
  | none =>
      rfl
  | some value =>
      rw [ShortString, ← Memory.length_upTo_lt_iff]
      simp [Platform.printedString]

theorem nodeIdString_fits_iff {nodeId : RawNodeId} :
    (nodeIdString nodeId).Fits P ↔ Short P nodeId := by
  rcases nodeId with ⟨ns, identifier⟩
  cases identifier with
  | numeric value => rfl
  | string value => exact shortString_iff.symm
  | guid value => rfl
  | byteString value => exact shortString_iff.symm

theorem objectDisplay_fits_iff : (objectDisplay fb_id).Fits P ↔ ObjectFits fb_id := by
  have hlen : (ascii "FB-").length = 3 := rfl
  rw [fits_iff rfl, List.length_append, hlen, capacity, ObjectFits]
  omega

theorem variableDisplay_fits_iff :
    (variableDisplay var_id).Fits P ↔ var_id.text.length + 10 ≤ 32 := by
  have hlen : (ascii "Variable-").length = 9 := rfl
  rw [fits_iff rfl, List.length_append, hlen, capacity]
  omega

theorem browse_fits_iff :
    (browse fb_id var_id).Fits P ↔ fb_id.text.length + var_id.text.length + 2 ≤ 32 := by
  rw [fits_iff rfl, browseText, List.length_append, List.length_cons, capacity]
  omega

end Sprintf

/-! ## Writes of a trace -/

/-- Every write of the trace fits. -/
def AllFit (P : Platform) (tr : List (Event Formatted)) : Prop :=
  ∀ w, written w ∈ tr → w.Fits P

/-- The texts that a loop formats fit. -/
def TargetsFit (P : Platform) (targets : List RawNodeId) : Prop :=
  ∀ nodeId ∈ visited P targets, Short P nodeId

/-- The bounds at a browse reply: what is formatted from it fits, and so do the display and browse
names of the nodes that are created because of it.  Those are the object, when the reply of the
objects folder does not show it, and the variable, once no other reply is awaited. -/
def ReplyFits (P : Platform) (fb_id var_id : Name) : Event Formatted → Prop
  | ⟨.request (.browse _ id), bResp⟩ =>
      TargetsFit P bResp.targets ∧
        (Readable P bResp.targets →
          if id = objectsFolder then
            ¬ Shows P fb_id.text bResp.targets → ObjectFits fb_id ∧ ItemFits fb_id var_id
          else
            ItemFits fb_id var_id)
  | _ => True

/-- The bounds hold at every browse reply of the trace. -/
def RepliesFit (P : Platform) (fb_id var_id : Name) (tr : List (Event Formatted)) : Prop :=
  ∀ e ∈ tr, ReplyFits P fb_id var_id e

section Traces

variable {P : Platform} {fb_id var_id : Name} {w : Sprintf} {o : Call} {r : RawReply o}
variable {tr tr' : List (Event Formatted)} {targets : List RawNodeId}

@[simp]
theorem allFit_nil : AllFit P [] := by
  simp [AllFit]

@[simp]
theorem allFit_written : AllFit P (written w :: tr) ↔ w.Fits P ∧ AllFit P tr := by
  simp [AllFit, or_imp, forall_and]

@[simp]
theorem allFit_replied : AllFit P (replied o r :: tr) ↔ AllFit P tr := by
  simp [AllFit]

@[simp]
theorem allFit_copied {source : Name} : AllFit P (copied source :: tr) ↔ AllFit P tr := by
  simp [AllFit]

@[simp]
theorem allFit_append : AllFit P (tr ++ tr') ↔ AllFit P tr ∧ AllFit P tr' := by
  simp [AllFit, or_imp, forall_and]

theorem allFit_visited :
    AllFit P ((visited P targets).map fun nodeId => written (.nodeIdString nodeId)) ↔
      TargetsFit P targets := by
  simp [AllFit, TargetsFit, Sprintf.nodeIdString_fits_iff]

@[simp]
theorem repliesFit_nil : RepliesFit P fb_id var_id [] := by
  simp [RepliesFit]

@[simp]
theorem repliesFit_cons {e : Event Formatted} :
    RepliesFit P fb_id var_id (e :: tr) ↔
      ReplyFits P fb_id var_id e ∧ RepliesFit P fb_id var_id tr :=
  List.forall_mem_cons

@[simp]
theorem repliesFit_append :
    RepliesFit P fb_id var_id (tr ++ tr') ↔
      RepliesFit P fb_id var_id tr ∧ RepliesFit P fb_id var_id tr' :=
  List.forall_mem_append

theorem repliesFit_visited :
    RepliesFit P fb_id var_id
      ((visited P targets).map fun nodeId => written (.nodeIdString nodeId)) := by
  simp [RepliesFit, ReplyFits]

end Traces

/-! ## Writes of a request -/

namespace Formatting

section Stages

variable {P : Platform} {client : Handle} {fb_id var_id : Name} {a : Option Unit}
variable {tr : List (Event Formatted)}

/-- A loop and what comes after it: the texts of the visited targets must fit, and then the rest
counts, which is nothing if the loop could not read a target. -/
theorem searchLoop_fits {wanted : ByteString} {targets : List RawNodeId}
    {next : Bool → Prog Formatted (Option Unit)}
    (h : Run (Option.elimM (searchLoop P wanted targets false).run (.ret none) next) tr a) :
    ∃ rest, (AllFit P tr ↔ TargetsFit P targets ∧ AllFit P rest) ∧
      (RepliesFit P fb_id var_id tr ↔ RepliesFit P fb_id var_id rest) ∧
      (if Readable P targets then Run (next (decide (Shows P wanted targets))) rest a
        else rest = []) := by
  -- The trace is cut where the loop ends.
  rcases run_bind_iff.1 h with ⟨first, rest, flag, rfl, hloop, hrest⟩
  rcases searchLoop_run_iff.1 hloop with ⟨rfl, rfl⟩
  refine ⟨rest, by rw [allFit_append, allFit_visited], ?_, ?_⟩
  · rw [repliesFit_append]
    exact and_iff_right repliesFit_visited
  · by_cases hread : Readable P targets
    · simpa [loopResult, hread] using hrest
    · have hnil := run_ret_iff.1 (by simpa [loopResult, hread] using hrest)
      simp [hread, hnil.1]

theorem finish_fits (h : Run (finish client) tr a) :
    AllFit P tr ∧ RepliesFit P fb_id var_id tr := by
  simp only [finish, run_call_iff, run_ret_iff] at h
  rcases h with ⟨_, _, rfl, _, _, rfl, _, _, rfl, rfl, -⟩
  simp [ReplyFits]

/-- Creating the variable needs room for its two texts. -/
theorem addItemStage_fits (h : Run (addItemStage client fb_id var_id) tr a) :
    (AllFit P tr ↔ ItemFits fb_id var_id) ∧ RepliesFit P fb_id var_id tr := by
  rcases run_written_iff.1 h with ⟨_, rfl, h₁⟩
  rcases run_written_iff.1 h₁ with ⟨_, rfl, h₂⟩
  rcases run_call_iff.1 h₂ with ⟨retval, rest, rfl, h₃⟩
  rcases finish_fits h₃ with ⟨hall, hreplies⟩
  refine ⟨?_, by simpa [ReplyFits] using hreplies⟩
  rw [allFit_written, allFit_written, allFit_replied, Sprintf.variableDisplay_fits_iff,
    Sprintf.browse_fits_iff, ItemFits]
  simp [hall]

theorem deleteStage_fits (h : Run (deleteStage client fb_id var_id) tr a) :
    (AllFit P tr ↔ ItemFits fb_id var_id) ∧ RepliesFit P fb_id var_id tr := by
  rcases run_call_iff.1 h with ⟨retval, rest, rfl, h₁⟩
  rcases addItemStage_fits h₁ with ⟨hall, hreplies⟩
  exact ⟨by rw [allFit_replied, hall], by simpa [ReplyFits] using hreplies⟩

/-- Creating the object needs room for its display name too. -/
theorem addObjectStage_fits (h : Run (addObjectStage client fb_id var_id) tr a) :
    (AllFit P tr ↔ ObjectFits fb_id ∧ ItemFits fb_id var_id) ∧
      RepliesFit P fb_id var_id tr := by
  rcases run_written_iff.1 h with ⟨_, rfl, h₁⟩
  rcases run_call_iff.1 h₁ with ⟨retval, rest, rfl, h₂⟩
  rcases addItemStage_fits h₂ with ⟨hall, hreplies⟩
  refine ⟨?_, by simpa [ReplyFits] using hreplies⟩
  rw [allFit_written, allFit_replied, Sprintf.objectDisplay_fits_iff, hall]

theorem browseItemStage_fits (h : Run (browseItemStage P client fb_id var_id) tr a) :
    AllFit P tr ↔ RepliesFit P fb_id var_id tr := by
  rcases run_call_iff.1 h with ⟨bResp, rest, rfl, h₁⟩
  rcases searchLoop_fits h₁ with ⟨after, hall, hreplies, hafter⟩
  rw [allFit_replied, repliesFit_cons, hall, hreplies, ReplyFits,
    if_neg (objectId_ne_objectsFolder fb_id), and_assoc]
  refine and_congr_right fun _ => ?_
  by_cases hread : Readable P bResp.targets
  · rw [if_pos hread] at hafter
    -- Found or not, the variable is created next.
    have hcreate : (AllFit P after ↔ ItemFits fb_id var_id) ∧
        RepliesFit P fb_id var_id after := by
      split at hafter
      · exact deleteStage_fits hafter
      · exact addItemStage_fits hafter
    simp [hread, hcreate]
  · rw [if_neg hread] at hafter
    simp [hread, hafter]

theorem browseStage_fits (h : Run (browseStage P client fb_id var_id) tr a) :
    AllFit P tr ↔ RepliesFit P fb_id var_id tr := by
  rcases run_call_iff.1 h with ⟨bResp, rest, rfl, h₁⟩
  rcases searchLoop_fits h₁ with ⟨after, hall, hreplies, hafter⟩
  rw [allFit_replied, repliesFit_cons, hall, hreplies, ReplyFits, if_pos rfl, and_assoc]
  refine and_congr_right fun _ => ?_
  by_cases hread : Readable P bResp.targets
  · rw [if_pos hread] at hafter
    by_cases hshown : Shows P fb_id.text bResp.targets
    · -- The object's own reply decides about the variable.
      rw [if_neg (by simp [hshown])] at hafter
      simp [hshown, browseItemStage_fits hafter]
    · rw [if_pos (by simp [hshown])] at hafter
      simp [hread, hshown, addObjectStage_fits hafter]
  · rw [if_neg hread] at hafter
    simp [hread, hafter]

theorem connectStage_fits (h : Run (connectStage P client fb_id var_id) tr a) :
    AllFit P tr ↔ RepliesFit P fb_id var_id tr := by
  rcases run_call_iff.1 h with ⟨retval, rest, rfl, h₁⟩
  -- After a failed connect nothing is formatted any more.
  have hrest : AllFit P rest ↔ RepliesFit P fb_id var_id rest := by
    split at h₁
    · exact browseStage_fits h₁
    · simp only [run_call_iff, run_ret_iff] at h₁
      rcases h₁ with ⟨_, _, rfl, _, _, rfl, rfl, -⟩
      simp [ReplyFits]
  rw [allFit_replied, repliesFit_cons, hrest]
  simp [ReplyFits]

theorem newStage_fits {source : SourcePoint} (h : Run (newStage P source) tr a) :
    AllFit P tr ↔
      NamesFit source ∧
        RepliesFit P source.sourceFBName source.sourceDataPointName tr := by
  rcases run_written_iff.1 h with ⟨_, rfl, h₁⟩
  rcases run_copied_iff.1 h₁ with ⟨_, rfl, h₂⟩
  rcases run_copied_iff.1 h₂ with ⟨_, rfl, h₃⟩
  rcases run_written_iff.1 h₃ with ⟨_, rfl, h₄⟩
  rcases run_call_iff.1 h₄ with ⟨client, rest, rfl, h₅⟩
  rw [allFit_written, allFit_copied, allFit_copied, allFit_written, allFit_replied,
    Sprintf.message_fits_iff, Sprintf.varBrowseId_fits_iff, connectStage_fits h₅, NamesFit]
  simp [ReplyFits, and_assoc]

end Stages

end Formatting

/-- In a request every write fits, and `fb_id.var_id` fits 32 bytes if it fits 64, exactly under the
bounds on the names and on every browse reply and with at most 30 bytes for the two names.  Without
the last bound the writes alone fit. -/
theorem writes_fit_iff {P : Platform} {source : Formatting.SourcePoint}
    {tr : List (Event Formatted)} {a : Option Unit}
    (h : Run (Formatting.executeEvent P eventREQ (some source)).run tr a) :
    ((AllFit P tr ∧
          ((Sprintf.varBrowseId source.sourceFBName source.sourceDataPointName).Fits P →
            (Sprintf.browse source.sourceFBName source.sourceDataPointName).Fits P)) ↔
        (NamesFit source ∧
            RepliesFit P source.sourceFBName source.sourceDataPointName tr) ∧
          source.sourceFBName.text.length + source.sourceDataPointName.text.length + 2 ≤ 32) ∧
      (AllFit P tr ↔
        NamesFit source ∧
          RepliesFit P source.sourceFBName source.sourceDataPointName tr) := by
  rw [Formatting.executeEvent_connected] at h
  have hwrites := Formatting.newStage_fits h
  refine ⟨?_, hwrites⟩
  rw [hwrites, Sprintf.varBrowseId_fits_iff, Sprintf.browse_fits_iff]
  constructor
  · rintro ⟨hbounds, hshort⟩
    exact ⟨hbounds, hshort hbounds.1.2⟩
  · rintro ⟨hbounds, hshort⟩
    exact ⟨hbounds, fun _ => hshort⟩

/-- A request to a server whose objects folder is empty, all calls succeeding. -/
def creationTrace (source : Formatting.SourcePoint) : List (Event Formatted) :=
  [written (.message source.sourceFBName source.sourceDataPointName
      source.sourceDataPointTypeName),
    copied source.sourceFBName,
    copied source.sourceDataPointName,
    written (.varBrowseId source.sourceFBName source.sourceDataPointName),
    replied .clientNew (0 : Handle),
    replied (.connect 0 localServer) StatusCode.good,
    replied (.browse 0 objectsFolder)
      ({ serviceResult := StatusCode.good, results := [] } : RawBrowseResponse),
    written (.objectDisplay source.sourceFBName),
    replied (.addNode 0 (objectItem source.sourceFBName)) StatusCode.good,
    written (.variableDisplay source.sourceDataPointName),
    written (.browse source.sourceFBName source.sourceDataPointName),
    replied (.addNode 0 (variableItem source.sourceFBName source.sourceDataPointName))
      StatusCode.good,
    replied (.disconnect 0) StatusCode.good,
    replied (.clientDelete 0) (),
    replied (.sendOutputEvent eventCNF) ()]

theorem creationTrace_run (P : Platform) (source : Formatting.SourcePoint) :
    Run (Formatting.executeEvent P eventREQ (some source)).run (creationTrace source)
      (some ()) := by
  rw [Formatting.executeEvent_connected]
  refine Run.call _ _ _ _ _ (Run.call _ _ _ _ _ (Run.call _ _ _ _ _ (Run.call _ _ _ _ _ ?_)))
  refine Run.call _ _ _ _ _ (Run.call _ _ _ _ _ (Run.call _ _ _ _ _ (Run.call _ _ _ _ _ ?_)))
  refine Run.call _ _ _ _ _ (Run.call _ _ _ _ _ (Run.call _ _ _ _ _ (Run.call _ _ _ _ _ ?_)))
  exact Run.call _ _ _ _ _ (Run.call _ _ _ _ _ (Run.call _ _ _ _ _ (Run.ret _)))

/-- The output of a motor. -/
def motorSource : Formatting.SourcePoint where
  sourceFBName := motorName
  sourceDataPointName := outputName
  sourceDataPointTypeName :=
    { text := ascii "BOOL", nonempty := by decide, zeroFree := by decide }

/-- The names of a motor fit everywhere. -/
theorem motor_writes_fit :
    AllFit glibc (creationTrace motorSource) ∧
      ((Sprintf.varBrowseId motorName outputName).Fits glibc →
        (Sprintf.browse motorName outputName).Fits glibc) := by
  have hobject : ObjectFits motorSource.sourceFBName := by decide
  have hitem : ItemFits motorSource.sourceFBName motorSource.sourceDataPointName := by
    decide
  refine (writes_fit_iff (creationTrace_run glibc motorSource)).1.2
    ⟨⟨by decide, ?_⟩, by decide⟩
  simp [creationTrace, ReplyFits, TargetsFit, RawBrowseResponse.targets, visited, hobject, hitem]

/-- An output of a block with a longer name: together they have 35 bytes. -/
def conveyorSource : Formatting.SourcePoint where
  sourceFBName :=
    { text := ascii "ConveyorControlUnit1", nonempty := by decide, zeroFree := by decide }
  sourceDataPointName :=
    { text := ascii "MotorSpeedDone", nonempty := by decide, zeroFree := by decide }
  sourceDataPointTypeName :=
    { text := ascii "BOOL", nonempty := by decide, zeroFree := by decide }

/-- Its id fits the buffer of `executeEvent` and overflows that of `createVariableNode`. -/
theorem conveyor_overflows :
    Run (Formatting.executeEvent glibc eventREQ (some conveyorSource)).run
        (creationTrace conveyorSource) (some ()) ∧
      (Sprintf.varBrowseId conveyorSource.sourceFBName
        conveyorSource.sourceDataPointName).Fits glibc ∧
      ¬ (Sprintf.browse conveyorSource.sourceFBName
        conveyorSource.sourceDataPointName).Fits glibc ∧
      ¬ AllFit glibc (creationTrace conveyorSource) := by
  -- 35 bytes and the terminating zero need 36 places.
  have hbrowse : ¬ (Sprintf.browse conveyorSource.sourceFBName
      conveyorSource.sourceDataPointName).Fits glibc := by
    rw [Sprintf.browse_fits_iff]
    decide
  refine ⟨creationTrace_run glibc conveyorSource, ?_, hbrowse, ?_⟩
  · rw [Sprintf.varBrowseId_fits_iff]
    decide
  · intro hall
    exact hbrowse (hall _ (by simp [creationTrace]))

end OpcUaPublish

end ForteOpcUa
