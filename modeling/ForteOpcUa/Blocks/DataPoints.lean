import Mathlib.Data.List.Nodup
import ForteOpcUa.Blocks.Traces

/-!
# DataPoints — the node ids of the data points of a device

A publisher composes its node ids from the instance name and the port name of its source.  The
module says when two ids coincide:

- `variableId_inj`         : a variable id determines both names, as instance names have no dot,
- `variableId_ne_objectId` : a variable id is never an object id,
- `Device`                 : resources whose instance names are unique within the resource only.

Within one resource different ports get different variable nodes.  The resource is no part of an
id, so equal names in two resources of a device share their nodes.
-/

namespace ForteOpcUa

open Interaction
open Interaction.Prog

namespace OpcUaPublish

/-! ## Composition of ids -/

/-- The id of the variable of a data point, as `createVariableNode` composes it. -/
def variableId (fb_id var_id : Name) : NodeId :=
  NodeId.string 1 (browseText fb_id var_id)

/-- The id compared while browsing is the one `createVariableNode` composes. -/
theorem varBrowseId_eq_browseText (fb_id var_id : Name) :
    varBrowseId fb_id var_id = browseText fb_id var_id :=
  rfl

theorem browseText_inj {fb fb' var var' : Name} (hfb : fb.DotFree) (hvar : var.DotFree) :
    browseText fb var = browseText fb' var' ↔ fb = fb' ∧ var = var' := by
  constructor
  · intro heq
    -- Neither name of the left side has a dot, so the two sides split at the same place.
    have hparts := (List.append_cons_inj_of_notMem hfb hvar).1 heq
    exact ⟨Name.ext hparts.1, Name.ext hparts.2.2⟩
  · rintro ⟨rfl, rfl⟩
    rfl

theorem variableId_inj {fb fb' var var' : Name} (hfb : fb.DotFree) (hvar : var.DotFree) :
    variableId fb var = variableId fb' var' ↔ fb = fb' ∧ var = var' := by
  rw [variableId, variableId, NodeId.string_inj, browseText_inj hfb hvar]
  simp

theorem objectId_inj {fb fb' : Name} : objectId fb = objectId fb' ↔ fb = fb' := by
  rw [objectId, objectId, NodeId.string_inj]
  constructor
  · rintro ⟨-, heq⟩
    exact Name.ext heq
  · rintro rfl
    exact ⟨rfl, rfl⟩

theorem variableId_ne_objectId {fb fb' var : Name} (h' : fb'.DotFree) :
    variableId fb var ≠ objectId fb' := by
  intro heq
  have htext : browseText fb var = fb'.text := (NodeId.string_inj.1 heq).2
  -- The composed text has a dot, the instance name has none.
  apply h'
  rw [← htext]
  simp [browseText]

/-! ## Ids in a trace -/

/-- The ids of the variable nodes that a trace adds or deletes. -/
def variableIds (tr : List ClientEvent) : List NodeId :=
  tr.filterMap fun e =>
    match e.op with
    | .addNode _ item => if item.isVariable then some item.requestedNewNodeId else none
    | .deleteNode _ id _ => some id
    | _ => none

/-- The ids of the object nodes that a trace adds. -/
def objectIds (tr : List ClientEvent) : List NodeId :=
  tr.filterMap fun e =>
    match e.op with
    | .addNode _ item => if item.isVariable then none else some item.requestedNewNodeId
    | _ => none

section Trace

variable {sameText : SameText} {inputs : Inputs} {source : ConnectionPoint}
variable {tr : List ClientEvent}

theorem executeEvent_issued (hconn : inputs.connection = some source)
    (h : Run (executeEvent sameText eventREQ inputs) tr ()) :
    ∀ e ∈ tr, Issued source.sourceFBName source.sourceDataPointName e.op := by
  rw [executeEvent_connected hconn] at h
  exact h.always (newStage_issued sameText _ _)

/-- A request adds and deletes no variable but the one of its data point. -/
theorem mem_variableIds (hconn : inputs.connection = some source)
    (h : Run (executeEvent sameText eventREQ inputs) tr ()) {id : NodeId}
    (hid : id ∈ variableIds tr) :
    id = variableId source.sourceFBName source.sourceDataPointName := by
  rcases List.mem_filterMap.1 hid with ⟨⟨o, r⟩, he, hval⟩
  have hissued := executeEvent_issued hconn h _ he
  -- Only two kinds of request count here, and `Issued` names their ids.
  cases o with
  | addNode c item =>
      rcases hissued with rfl | rfl
      · cases hval
      · simpa [variableItem, Server.AddNodesItem.isVariable, variableId, eq_comm] using hval
  | deleteNode c id' refs =>
      rcases hissued with ⟨rfl, -⟩
      exact (Option.some.inj hval).symm
  | _ => cases hval

/-- A request adds no object but the one of its source block. -/
theorem mem_objectIds (hconn : inputs.connection = some source)
    (h : Run (executeEvent sameText eventREQ inputs) tr ()) {id : NodeId}
    (hid : id ∈ objectIds tr) : id = objectId source.sourceFBName := by
  rcases List.mem_filterMap.1 hid with ⟨⟨o, r⟩, he, hval⟩
  have hissued := executeEvent_issued hconn h _ he
  cases o with
  | addNode c item =>
      rcases hissued with rfl | rfl
      · simpa [objectItem, Server.AddNodesItem.isVariable, eq_comm] using hval
      · cases hval
  | _ => cases hval

end Trace

end OpcUaPublish

/-! ## Devices -/

/-- A resource: a network of function blocks with dot-free names, unique within the resource, and
dot-free port names, unique within the block. -/
structure Resource where
  fBNetwork : List FunctionBlock
  unique : (fBNetwork.map FunctionBlock.instanceName).Nodup
  dotFree : ∀ fb ∈ fBNetwork, fb.instanceName.DotFree
  portsUnique : ∀ fb ∈ fBNetwork, (fb.outputs.map OutputPort.name).Nodup
  portsDotFree : ∀ fb ∈ fBNetwork, ∀ p ∈ fb.outputs, p.name.DotFree

/-- A device: any number of resources. -/
structure Device where
  resources : List Resource

/-- Positions of a list that agree under a map without repetitions are equal. -/
theorem index_eq_of_nodup_map {α β : Type} {f : α → β} {l : List α} (h : (l.map f).Nodup)
    {i j : Fin l.length} (heq : f (l.get i) = f (l.get j)) : i = j := by
  -- The entries agree as the map is injective on the list, the positions as it has no repetition.
  have hget : l.get i = l.get j :=
    List.inj_on_of_nodup_map h (List.get_mem l i) (List.get_mem l j) heq
  exact (List.Nodup.of_map f h).get_inj_iff.1 hget

/-- An output port of a device, by the positions of its resource, block and port. -/
structure Device.Port (d : Device) where
  resource : Fin d.resources.length
  block : Fin (d.resources.get resource).fBNetwork.length
  port : Fin ((d.resources.get resource).fBNetwork.get block).outputs.length

namespace Device.Port

variable {d : Device}

/-- The function block of a port. -/
def functionBlock (p : d.Port) : FunctionBlock :=
  (d.resources.get p.resource).fBNetwork.get p.block

/-- The connection that starts at a port. -/
def source (p : d.Port) : ConnectionPoint :=
  { mFB := p.functionBlock, mPortId := p.port }

/-- Two ports belong to the same function block. -/
def SameBlock (p q : d.Port) : Prop :=
  p.resource = q.resource ∧ p.block.val = q.block.val

theorem functionBlock_mem (p : d.Port) :
    p.functionBlock ∈ (d.resources.get p.resource).fBNetwork :=
  List.get_mem ..

theorem dotFree (p : d.Port) : p.source.sourceFBName.DotFree :=
  (d.resources.get p.resource).dotFree _ p.functionBlock_mem

theorem portDotFree (p : d.Port) : p.source.sourceDataPointName.DotFree :=
  (d.resources.get p.resource).portsDotFree _ p.functionBlock_mem _ (List.get_mem ..)

/-- In one resource equal instance names are one block. -/
theorem sameBlock_iff {p q : d.Port} (h : p.resource = q.resource) :
    p.source.sourceFBName = q.source.sourceFBName ↔ p.SameBlock q := by
  rcases p with ⟨r, b, i⟩
  rcases q with ⟨r', b', i'⟩
  cases h
  constructor
  · intro hname
    have hb : b = b' := index_eq_of_nodup_map (d.resources.get r).unique hname
    exact ⟨rfl, congrArg Fin.val hb⟩
  · rintro ⟨-, hblock⟩
    cases Fin.ext hblock
    rfl

/-- In one block equal port names are one port. -/
theorem eq_of_sameBlock {p q : d.Port} (h : p.SameBlock q)
    (hname : p.source.sourceDataPointName = q.source.sourceDataPointName) : p = q := by
  rcases p with ⟨r, b, i⟩
  rcases q with ⟨r', b', i'⟩
  rcases h with ⟨hr, hb⟩
  cases hr
  cases Fin.ext hb
  have hi : i = i' :=
    index_eq_of_nodup_map ((d.resources.get r).portsUnique _ (List.get_mem _ b)) hname
  cases hi
  rfl

/-- Within a resource a variable id determines the port. -/
theorem eq_iff_names {p q : d.Port} (h : p.resource = q.resource) :
    p = q ↔ p.source.sourceFBName = q.source.sourceFBName ∧
      p.source.sourceDataPointName = q.source.sourceDataPointName := by
  constructor
  · rintro rfl
    exact ⟨rfl, rfl⟩
  · rintro ⟨hfb, hport⟩
    exact eq_of_sameBlock ((sameBlock_iff h).1 hfb) hport

/-- The variable node that a publisher of the port creates and deletes. -/
def variableId (p : d.Port) : NodeId :=
  OpcUaPublish.variableId p.source.sourceFBName p.source.sourceDataPointName

/-- The object node that a publisher of the port creates. -/
def objectId (p : d.Port) : NodeId :=
  OpcUaPublish.objectId p.source.sourceFBName

/-- Ids of two ports, anywhere in the device: they are made of the names and nothing else. -/
theorem ids_iff (p q : d.Port) :
    (p.variableId = q.variableId ↔ p.source.sourceFBName = q.source.sourceFBName ∧
      p.source.sourceDataPointName = q.source.sourceDataPointName) ∧
    (p.objectId = q.objectId ↔ p.source.sourceFBName = q.source.sourceFBName) ∧
    p.variableId ≠ q.objectId :=
  ⟨OpcUaPublish.variableId_inj p.dotFree p.portDotFree, OpcUaPublish.objectId_inj,
    OpcUaPublish.variableId_ne_objectId q.dotFree⟩

/-- Ids of two ports of one resource: different ports have different variables, and only the
ports of one block share their object. -/
theorem ids_iff_of_resource {p q : d.Port} (h : p.resource = q.resource) :
    (p.variableId = q.variableId ↔ p = q) ∧ (p.objectId = q.objectId ↔ p.SameBlock q) :=
  ⟨(ids_iff p q).1.trans (eq_iff_names h).symm, (ids_iff p q).2.1.trans (sameBlock_iff h)⟩

end Device.Port

open OpcUaPublish in
/-- Any two publishers of a device.  Each adds and deletes the variable of its port and adds the
object of its block, and compares the id that it adds; the variables coincide exactly when
instance name and port name agree, the objects exactly when the instance names agree, and no
variable is an object.  In one resource this means different variables for different ports and
a common object for one block only. -/
theorem data_point_nodes {sameText : SameText} {d : Device} (p q : d.Port)
    {inputs inputs' : Inputs} {tr tr' : List ClientEvent}
    (hp : inputs.connection = some p.source) (hq : inputs'.connection = some q.source)
    (h : Run (executeEvent sameText eventREQ inputs) tr ())
    (h' : Run (executeEvent sameText eventREQ inputs') tr' ()) :
    (∀ id ∈ variableIds tr, ∀ id' ∈ variableIds tr',
      (id = id' ↔ p.source.sourceFBName = q.source.sourceFBName ∧
        p.source.sourceDataPointName = q.source.sourceDataPointName) ∧
      (p.resource = q.resource → (id = id' ↔ p = q))) ∧
    (∀ id ∈ objectIds tr, ∀ id' ∈ objectIds tr',
      (id = id' ↔ p.source.sourceFBName = q.source.sourceFBName) ∧
      (p.resource = q.resource → (id = id' ↔ p.SameBlock q))) ∧
    (∀ id ∈ variableIds tr, ∀ id' ∈ objectIds tr ++ objectIds tr', id ≠ id') ∧
    (∀ id ∈ variableIds tr, id = NodeId.string 1
      (varBrowseId p.source.sourceFBName p.source.sourceDataPointName)) := by
  have hvar : ∀ id ∈ variableIds tr, id = p.variableId := fun id hid => mem_variableIds hp h hid
  have hvar' : ∀ id ∈ variableIds tr', id = q.variableId :=
    fun id hid => mem_variableIds hq h' hid
  have hobj : ∀ id ∈ objectIds tr, id = p.objectId := fun id hid => mem_objectIds hp h hid
  have hobj' : ∀ id ∈ objectIds tr', id = q.objectId := fun id hid => mem_objectIds hq h' hid
  have hids := Device.Port.ids_iff p q
  -- Every id of a trace is the one of its port, so only the ids of the two ports matter.
  refine ⟨?_, ?_, ?_, ?_⟩
  · intro id hid id' hid'
    rw [hvar id hid, hvar' id' hid']
    exact ⟨hids.1, fun hr => (Device.Port.ids_iff_of_resource hr).1⟩
  · intro id hid id' hid'
    rw [hobj id hid, hobj' id' hid']
    exact ⟨hids.2.1, fun hr => (Device.Port.ids_iff_of_resource hr).2⟩
  · intro id hid id' hid'
    rw [hvar id hid]
    rcases List.mem_append.1 hid' with hmem | hmem
    · rw [hobj id' hmem]
      exact (Device.Port.ids_iff p p).2.2
    · rw [hobj' id' hmem]
      exact hids.2.2
  · intro id hid
    calc
      id = NodeId.string 1 (browseText p.source.sourceFBName p.source.sourceDataPointName) :=
        hvar id hid
      _ = NodeId.string 1 (varBrowseId p.source.sourceFBName p.source.sourceDataPointName) := by
        rw [varBrowseId_eq_browseText]

/-! ## Equal names in two resources -/

/-- A network of one block `START` with one output port `QO`. -/
def startNetwork : Resource where
  fBNetwork := [{
    instanceName := { text := ascii "START", nonempty := by decide, zeroFree := by decide }
    outputs := [{
      name := { text := ascii "QO", nonempty := by decide, zeroFree := by decide }
      dataType := .bool }] }]
  unique := by decide
  dotFree := by decide
  portsUnique := by decide
  portsDotFree := by decide

/-- A device with two resources, each with a block `START`. -/
def twoStarts : Device :=
  { resources := [startNetwork, startNetwork] }

/-- The port `START.QO` of resource `r`. -/
def startPort (r : Fin 2) : twoStarts.Port :=
  match r with
  | 0 => { resource := (0 : Fin 2), block := (0 : Fin 1), port := (0 : Fin 1) }
  | 1 => { resource := (1 : Fin 2), block := (0 : Fin 1), port := (0 : Fin 1) }

/-- A publisher connected to that port. -/
def startInputs (r : Fin 2) : OpcUaPublish.Inputs where
  connection := some (startPort r).source
  IN := .bool true
  typed := by
    rintro p ⟨⟩
    match r with
    | 0 => rfl
    | 1 => rfl

/-- Its trace against a server without nodes. -/
def startTrace (r : Fin 2) : List ClientEvent :=
  (exec handler (OpcUaPublish.executeEvent OpcUaPublish.exactText eventREQ (startInputs r))
    (Station.init, fun _ => some Server.empty)).trace

open OpcUaPublish in
/-- Publishers of different ports can use one variable node. -/
theorem ports_share_variable :
    ¬ ∀ (d : Device) (p q : d.Port) (inputs inputs' : Inputs) (tr tr' : List ClientEvent),
      inputs.connection = some p.source → inputs'.connection = some q.source →
      Run (executeEvent exactText eventREQ inputs) tr () →
      Run (executeEvent exactText eventREQ inputs') tr' () →
      p ≠ q → ∀ id ∈ variableIds tr, ∀ id' ∈ variableIds tr', id ≠ id' := by
  intro h
  -- Resources 0 and 1 have a block of the same name, and a port of the same name on it.
  have hports : startPort 0 ≠ startPort 1 := fun heq => by
    cases congrArg Device.Port.resource heq
  have hadded : ∀ r, variableIds (startTrace r) = [NodeId.string 1 (ascii "START.QO")] := by
    decide
  have hmem : ∀ r, NodeId.string 1 (ascii "START.QO") ∈ variableIds (startTrace r) := by
    intro r
    simp [hadded r]
  exact h twoStarts (startPort 0) (startPort 1) (startInputs 0) (startInputs 1) (startTrace 0)
    (startTrace 1) rfl rfl (exec_run ..) (exec_run ..) hports _ (hmem 0) _ (hmem 1) rfl

open OpcUaPublish in
/-- The two publishers of the device. -/
theorem twoStarts_nodes :
    (∀ id ∈ variableIds (startTrace 0), ∀ id' ∈ variableIds (startTrace 1),
      (id = id' ↔ (startPort 0).source.sourceFBName = (startPort 1).source.sourceFBName ∧
        (startPort 0).source.sourceDataPointName = (startPort 1).source.sourceDataPointName) ∧
      ((startPort 0).resource = (startPort 1).resource → (id = id' ↔ startPort 0 = startPort 1))) ∧
    (∀ id ∈ objectIds (startTrace 0), ∀ id' ∈ objectIds (startTrace 1),
      (id = id' ↔ (startPort 0).source.sourceFBName = (startPort 1).source.sourceFBName) ∧
      ((startPort 0).resource = (startPort 1).resource →
        (id = id' ↔ (startPort 0).SameBlock (startPort 1)))) ∧
    (∀ id ∈ variableIds (startTrace 0),
      ∀ id' ∈ objectIds (startTrace 0) ++ objectIds (startTrace 1), id ≠ id') ∧
    (∀ id ∈ variableIds (startTrace 0), id = NodeId.string 1
      (varBrowseId (startPort 0).source.sourceFBName
        (startPort 0).source.sourceDataPointName)) :=
  data_point_nodes (startPort 0) (startPort 1) rfl rfl (exec_run ..)
    (exec_run ..)

end ForteOpcUa
