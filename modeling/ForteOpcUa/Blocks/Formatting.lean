import ForteOpcUa.Blocks.ExecuteEvent
import ForteOpcUa.Client.Decoded
import ForteOpcUa.Interaction.Refinement

/-!
# Formatting — `OPC_UA_PUBLISH` with its calls of `sprintf` and `strcpy`

`ExecuteEvent` takes the texts of the block and the report of its search loops as they should be.
Here the same handler is written over a finer interface: every `sprintf` and `strcpy` is a request of
its own, and the search loops go over decoded replies and see nothing but what `%.*s` prints.

- `Sprintf`        : the formatted writes, each with its destination and its text,
- `Formatted`      : the client library with these writes and with decoded browse replies,
- `executeEvent`   : the handler, which ends with `none` where a write reads through a bad pointer,
- `clientView`     : what of it can be seen at `Client`.

A text that does not fit is written all the same, as the source does; which texts fit is the matter
of `Buffers`, and where the process may end instead that of `Undefined`.
-/

namespace ForteOpcUa

open Interaction
open Interaction.Prog

namespace OpcUaPublish

/-! ## Formatted writes -/

/-- The calls of `sprintf` in the block, under the names of their destinations. -/
inductive Sprintf
  | message (sourceFBName sourceDataPointName sourceDataPointTypeName : Name)
  | varBrowseId (fb_id var_id : Name)
  | nodeIdString (nodeId : RawNodeId)
  | objectDisplay (fb_id : Name)
  | variableDisplay (var_id : Name)
  | browse (fb_id var_id : Name)
  deriving DecidableEq

namespace Sprintf

/-- The declared size of the destination. -/
def capacity : Sprintf → ℕ
  | message _ _ _ => 128
  | varBrowseId _ _ => 64
  | nodeIdString _ => 64
  | objectDisplay _ => 32
  | variableDisplay _ => 32
  | browse _ _ => 32

/-- The text written, without its terminating zero; `none` if a read faults. -/
def text (P : Platform) : Sprintf → Option ByteString
  | message sourceFBName sourceDataPointName sourceDataPointTypeName =>
      some (sourceFBName.text ++ ascii " " ++ sourceDataPointName.text ++ ascii " " ++
        sourceDataPointTypeName.text ++ ascii "\n")
  | varBrowseId fb_id var_id => some (OpcUaPublish.varBrowseId fb_id var_id)
  | nodeIdString nodeId => P.printed nodeId
  | objectDisplay fb_id => some (ascii "FB-" ++ fb_id.text)
  | variableDisplay var_id => some (ascii "Variable-" ++ var_id.text)
  | browse fb_id var_id => some (browseText fb_id var_id)

end Sprintf

/-! ## The interface -/

/-- The client library, with decoded replies to a browse. -/
abbrev RawReply : Call → Type
  | .browse _ _ => RawBrowseResponse
  | o => o.Reply

/-- A step of the handler: a request of the client library, a formatted write, or a copy. -/
inductive Step
  | request (o : Call)
  | sprintf (w : Sprintf)
  | strcpy (source : Name)
  deriving DecidableEq

/-- The reply to each step. -/
abbrev Step.Reply : Step → Type
  | request o => RawReply o
  | sprintf _ => Unit
  | strcpy _ => Unit

/-- The signature of the handler with its formatted writes. -/
abbrev Formatted : Signature :=
  { Op := Step, Reply := Step.Reply }

/-- A decoded reply as the client library shows it. -/
def shownReply : (o : Call) → RawReply o → o.Reply
  | .browse _ _, bResp => bResp.decoded
  | .clientNew, client => client
  | .connect _ _, retval => retval
  | .addNode _ _, retval => retval
  | .deleteNode _ _ _, retval => retval
  | .read _ _, rResp => rResp
  | .write _ _ _, wResp => wResp
  | .writeRequestDeleteMembers, r => r
  | .disconnect _, retval => retval
  | .clientDelete _, r => r
  | .assignOUT _, r => r
  | .sendOutputEvent _, r => r

/-- Writes and copies cannot be seen from outside the block. -/
def clientView : View Formatted Client
  | .request o => some ⟨o, shownReply o⟩
  | .sprintf _ => none
  | .strcpy _ => none

/-- A program that can end at a bad pointer. -/
abbrev Routine : Type → Type :=
  OptionT (Prog Formatted)

/-- Issue one request. -/
def request (o : Call) : Routine (RawReply o) :=
  OptionT.lift (perform (S := Formatted) (.request o))

/-- Format one text; the block never looks whether it fits. -/
def sprintf (P : Platform) (w : Sprintf) : Routine ByteString :=
  OptionT.mk (Prog.call (S := Formatted) (.sprintf w) fun _ => .ret (w.text P))

/-- Copy a name to where the destination points. -/
def strcpy (source : Name) : Routine Name :=
  OptionT.lift (Prog.call (S := Formatted) (.strcpy source) fun _ => .ret source)

/-- The event of a formatted write. -/
abbrev written (w : Sprintf) : Event Formatted :=
  ⟨.sprintf w, ()⟩

/-- The event of a copy. -/
abbrev copied (source : Name) : Event Formatted :=
  ⟨.strcpy source, ()⟩

/-- The event of a request with its decoded reply. -/
abbrev replied (o : Call) (r : RawReply o) : Event Formatted :=
  ⟨.request o, r⟩

theorem run_strcpy (source : Name) :
    (strcpy source).run = Prog.call (S := Formatted) (.strcpy source) fun _ => .ret (some source) :=
  rfl

theorem run_sprintf (P : Platform) (w : Sprintf) :
    (sprintf P w).run = Prog.call (S := Formatted) (.sprintf w) fun _ => .ret (w.text P) :=
  rfl

/-- A formatted write has one reply only. -/
theorem run_written_iff {α : Type} {w : Sprintf} {next : Unit → Prog Formatted α}
    {tr : List (Event Formatted)} {a : α} :
    Run (.call (S := Formatted) (.sprintf w) next) tr a ↔
      ∃ rest, tr = written w :: rest ∧ Run (next ()) rest a := by
  rw [run_call_iff]
  constructor
  · rintro ⟨⟨⟩, rest, rfl, h⟩
    exact ⟨rest, rfl, h⟩
  · rintro ⟨rest, rfl, h⟩
    exact ⟨(), rest, rfl, h⟩

/-- A copy has one reply only. -/
theorem run_copied_iff {α : Type} {source : Name} {next : Unit → Prog Formatted α}
    {tr : List (Event Formatted)} {a : α} :
    Run (.call (S := Formatted) (.strcpy source) next) tr a ↔
      ∃ rest, tr = copied source :: rest ∧ Run (next ()) rest a := by
  rw [run_call_iff]
  constructor
  · rintro ⟨⟨⟩, rest, rfl, h⟩
    exact ⟨rest, rfl, h⟩
  · rintro ⟨rest, rfl, h⟩
    exact ⟨(), rest, rfl, h⟩

/-! ## The handler -/

/-- The nested loops over the targets of a reply: `strcmp` with `wanted`, and the flag is set for
good when the texts agree. -/
def searchLoop (P : Platform) (wanted : ByteString) : List RawNodeId → Bool → Routine Bool
  | [], found => pure found
  | nodeId :: rest, found => do
      -- Neither `namespaceIndex` nor `identifierType` is looked at.
      let node_id_string ← sprintf P (.nodeIdString nodeId)
      searchLoop P wanted rest (if node_id_string = wanted then true else found)

/-- The search for the object of the function block, from `node_found = 0`. -/
def objectSearch (P : Platform) (bResp : RawBrowseResponse) (fb_id : Name) : Routine Bool :=
  searchLoop P fb_id.text bResp.targets false

/-- The search for the variable, from `var_found = 0`. -/
def variableSearch (P : Platform) (bResp : RawBrowseResponse) (fb_id var_id : Name) :
    Routine Bool :=
  searchLoop P (varBrowseId fb_id var_id) bResp.targets false

namespace Formatting

/-- `createFBNode`. -/
def createFBNode (P : Platform) (client : Handle) (fb_id : Name) : Routine Unit := do
  let _display ← sprintf P (.objectDisplay fb_id)
  let _retval ← request (.addNode client (objectItem fb_id))

/-- `createVariableNode`. -/
def createVariableNode (P : Platform) (client : Handle) (fb_id var_id : Name) :
    Routine Unit := do
  let _display ← sprintf P (.variableDisplay var_id)
  let _browse ← sprintf P (.browse fb_id var_id)
  let _retval ← request (.addNode client (variableItem fb_id var_id))

/-- The three texts of a source port: the instance name of its block, its own name and the name of
its type. -/
structure SourcePoint where
  sourceFBName : Name
  sourceDataPointName : Name
  sourceDataPointTypeName : Name
  deriving DecidableEq

/-- `FORTE_OPC_UA_PUBLISH::executeEvent`. -/
def executeEvent (P : Platform) (pa_nEIID : ℕ) (connection : Option SourcePoint) :
    Routine Unit := do
  if pa_nEIID = eventREQ then
    match connection with
    | none => request (.sendOutputEvent eventCNF)
    | some source =>
        -- The first two texts are written before there is a client.
        let _message ← sprintf P
          (.message source.sourceFBName source.sourceDataPointName source.sourceDataPointTypeName)
        -- The pointers `fb_id` and `var_id` are never set.
        let fb_id ← strcpy source.sourceFBName
        let var_id ← strcpy source.sourceDataPointName
        let _varBrowse_id ← sprintf P (.varBrowseId fb_id var_id)
        let client ← request .clientNew
        let retval ← request (.connect client localServer)
        if retval ≠ StatusCode.good then
          -- `break`
          request (.clientDelete client)
          request (.sendOutputEvent eventCNF)
        else
          let bResp ← request (.browse client objectsFolder)
          let node_found ← objectSearch P bResp fb_id
          -- A bad pointer in the loop ends the process before any of the branches.
          if node_found = false then
            createFBNode P client fb_id
            createVariableNode P client fb_id var_id
          else
            let bResp ← request (.browse client (objectId fb_id))
            let var_found ← variableSearch P bResp fb_id var_id
            if var_found then
              let _retval ← request
                (.deleteNode client (NodeId.string 1 (varBrowseId fb_id var_id)) false)
            createVariableNode P client fb_id var_id
          let _retval ← request (.disconnect client)
          request (.clientDelete client)
          request (.sendOutputEvent eventCNF)

end Formatting

end OpcUaPublish

end ForteOpcUa
