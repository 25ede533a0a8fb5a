import ForteOpcUa.Blocks.Alone
import ForteOpcUa.Blocks.DataPoints

/-!
# Publisher — the publishers of data points with dot-free names

`DataPoint` carries the two names of a data point together with the fact that they have no dot,
so its two node ids determine each other.  `Published.get_object` and `Published.get_of_ne` say
what a request all of whose calls succeed leaves under every node id.
-/

namespace ForteOpcUa

open Interaction
open Interaction.Prog

/-- A data point: a function block and one of its output ports, both with dot-free names. -/
structure DataPoint where
  fb_id : Name
  var_id : Name
  fbDotFree : fb_id.DotFree
  varDotFree : var_id.DotFree
  deriving DecidableEq

namespace DataPoint

/-- The object node of the function block. -/
def objectId (p : DataPoint) : NodeId :=
  OpcUaPublish.objectId p.fb_id

/-- The variable node of the port. -/
def variableId (p : DataPoint) : NodeId :=
  OpcUaPublish.variableId p.fb_id p.var_id

/-- The request that adds the object node. -/
def objectItem (p : DataPoint) : Server.AddNodesItem :=
  OpcUaPublish.objectItem p.fb_id

/-- The request that adds the variable node. -/
def variableItem (p : DataPoint) : Server.AddNodesItem :=
  OpcUaPublish.variableItem p.fb_id p.var_id

@[simp]
theorem variableId_inj {p q : DataPoint} : p.variableId = q.variableId ↔ p = q := by
  rw [variableId, variableId, OpcUaPublish.variableId_inj p.fbDotFree p.varDotFree]
  cases p
  cases q
  simp

@[simp]
theorem objectId_inj {p q : DataPoint} : p.objectId = q.objectId ↔ p.fb_id = q.fb_id :=
  OpcUaPublish.objectId_inj

@[simp]
theorem variableId_ne_objectId (p q : DataPoint) : p.variableId ≠ q.objectId :=
  OpcUaPublish.variableId_ne_objectId q.fbDotFree

@[simp]
theorem objectId_ne_variableId (p q : DataPoint) : p.objectId ≠ q.variableId :=
  (variableId_ne_objectId q p).symm

@[simp]
theorem objectId_ne_objectsFolder (p : DataPoint) : p.objectId ≠ objectsFolder :=
  OpcUaPublish.objectId_ne_objectsFolder p.fb_id

@[simp]
theorem objectsFolder_ne_objectId (p : DataPoint) : objectsFolder ≠ p.objectId :=
  (objectId_ne_objectsFolder p).symm

@[simp]
theorem variableId_ne_objectsFolder (p : DataPoint) : p.variableId ≠ objectsFolder := by
  simp [variableId, OpcUaPublish.variableId, objectsFolder]

@[simp]
theorem objectsFolder_ne_variableId (p : DataPoint) : objectsFolder ≠ p.variableId :=
  (variableId_ne_objectsFolder p).symm

@[simp]
theorem variableItem_inj {p q : DataPoint} : p.variableItem = q.variableItem ↔ p = q := by
  constructor
  · intro h
    exact variableId_inj.1 (congrArg Server.AddNodesItem.requestedNewNodeId h)
  · rintro rfl
    rfl

@[simp]
theorem objectItem_ne_variableItem (p q : DataPoint) : p.objectItem ≠ q.variableItem := by
  intro h
  exact objectId_ne_variableId p q (congrArg Server.AddNodesItem.requestedNewNodeId h)

/-- The server with the object node added below the objects folder. -/
theorem get_adopt_objectItem {p : DataPoint} {σ : Server} {folder : Node}
    (h : σ.get objectsFolder = some folder) (id : NodeId) :
    (σ.adopt p.objectItem folder).get id =
      if id = objectsFolder then
        some (Server.withReference folder (Server.childReference p.objectItem))
      else if id = p.objectId then some (Server.childNode p.objectItem)
      else σ.get id :=
  Server.get_adopt h id

/-- The server with the variable node added below the object. -/
theorem get_adopt_variableItem {p : DataPoint} {σ : Server} {parent : Node}
    (h : σ.get p.objectId = some parent) (id : NodeId) :
    (σ.adopt p.variableItem parent).get id =
      if id = p.objectId then
        some (Server.withReference parent (Server.childReference p.variableItem))
      else if id = p.variableId then some (Server.childNode p.variableItem)
      else σ.get id :=
  Server.get_adopt h id

end DataPoint

namespace OpcUaPublish

/-- At this request `IN` is connected to the data point. -/
def Inputs.Publishes (inputs : Inputs) (p : DataPoint) : Prop :=
  ∃ source, inputs.connection = some source ∧ source.sourceFBName = p.fb_id ∧
    source.sourceDataPointName = p.var_id

/-- Such a request is the first stage of a publisher of the data point. -/
theorem Inputs.Publishes.executeEvent_eq {sameText : SameText} {inputs : Inputs} {p : DataPoint}
    (h : inputs.Publishes p) :
    executeEvent sameText eventREQ inputs = newStage sameText p.fb_id p.var_id := by
  rcases h with ⟨source, hconn, hfb, hvar⟩
  rw [executeEvent_connected hconn, hfb, hvar]

namespace Published

variable {p : DataPoint} {σ σ' : Server}

/-- The effect of a request, in the words of its data point: the object is new, or it was there
and at most the variable was taken out before it was added. -/
theorem cases (h : Published p.fb_id p.var_id σ σ') :
    (∃ folder, σ.get objectsFolder = some folder ∧ σ.get p.objectId = none ∧
      (σ.adopt p.objectItem folder).get p.objectId = some (Server.childNode p.objectItem) ∧
      σ' = (σ.adopt p.objectItem folder).adopt p.variableItem (Server.childNode p.objectItem)) ∨
    (∃ τ parent, (τ = σ ∨ τ = σ.without p.variableId) ∧ σ.get p.objectId = some parent ∧
      τ.get p.objectId = some parent ∧ σ' = τ.adopt p.variableItem parent) := by
  rcases h.effect with ⟨τ, parent, hprep, -, -, hparent, rfl⟩
  -- The three ways to get the server ready for the variable.
  cases hprep with
  | createdObject folder hfolder habsent hadd =>
      have hcreated : (σ.adopt p.objectItem folder).get p.objectId =
          some (Server.childNode p.objectItem) := by
        simp [DataPoint.get_adopt_objectItem hfolder]
      have hnew : parent = Server.childNode p.objectItem :=
        Option.some.inj (hparent.symm.trans hcreated)
      subst hnew
      exact Or.inl ⟨folder, hfolder, habsent, hcreated, rfl⟩
  | foundObject =>
      exact Or.inr ⟨σ, parent, Or.inl rfl, hparent, hparent, rfl⟩
  | deletedItem n hpresent =>
      -- Taking the variable out does not touch the object.
      have hkept : (σ.without p.variableId).get p.objectId = σ.get p.objectId := by
        simp [Server.get_without]
      exact Or.inr ⟨_, parent, Or.inr rfl, hkept.symm.trans hparent, hparent, rfl⟩

/-- A server without the variable differs only there. -/
theorem get_of_eq_or {τ : Server} (h : τ = σ ∨ τ = σ.without p.variableId) {id : NodeId}
    (hne : id ≠ p.variableId) : τ.get id = σ.get id := by
  rcases h with rfl | rfl
  · rfl
  · rw [Server.get_without, if_neg hne]

/-- The object has one forward reference more, and if it was missing it is there now. -/
theorem get_object (h : Published p.fb_id p.var_id σ σ') :
    ∃ n, (σ.get p.objectId = some n ∨
        σ.get p.objectId = none ∧ n = Server.childNode p.objectItem) ∧
      σ'.get p.objectId =
        some (Server.withReference n (Server.childReference p.variableItem)) := by
  rcases h.cases with ⟨folder, -, habsent, hcreated, rfl⟩ | ⟨τ, parent, -, hget, hparent, rfl⟩
  · refine ⟨_, Or.inr ⟨habsent, rfl⟩, ?_⟩
    simp [DataPoint.get_adopt_variableItem hcreated]
  · refine ⟨parent, Or.inl hget, ?_⟩
    simp [DataPoint.get_adopt_variableItem hparent]

/-- The variable is there, new. -/
theorem get_variable (h : Published p.fb_id p.var_id σ σ') :
    σ'.get p.variableId = some (Server.childNode p.variableItem) := by
  rcases h.cases with ⟨folder, -, -, hparent, rfl⟩ | ⟨τ, parent, -, -, hparent, rfl⟩ <;>
    simp [DataPoint.get_adopt_variableItem hparent]

/-- The objects folder is as it was, or the object was created below it. -/
theorem get_objectsFolder (h : Published p.fb_id p.var_id σ σ') :
    (σ.get p.objectId ≠ none ∧ σ'.get objectsFolder = σ.get objectsFolder) ∨
    (σ.get p.objectId = none ∧ ∃ folder, σ.get objectsFolder = some folder ∧
      σ'.get objectsFolder =
        some (Server.withReference folder (Server.childReference p.objectItem))) := by
  rcases h.cases with ⟨folder, hfolder, habsent, hparent, rfl⟩ | ⟨τ, parent, hτ, hget, hparent, rfl⟩
  · refine Or.inr ⟨habsent, folder, hfolder, ?_⟩
    simp [DataPoint.get_adopt_variableItem hparent, DataPoint.get_adopt_objectItem hfolder]
  · refine Or.inl ⟨by simp [hget], ?_⟩
    simpa [DataPoint.get_adopt_variableItem hparent] using
      get_of_eq_or hτ p.objectsFolder_ne_variableId

/-- Every other node is as it was. -/
theorem get_of_ne (h : Published p.fb_id p.var_id σ σ') {id : NodeId}
    (hobj : id ≠ p.objectId) (hvar : id ≠ p.variableId) (hfolder : id ≠ objectsFolder) :
    σ'.get id = σ.get id := by
  rcases h.cases with ⟨folder, hget, -, hparent, rfl⟩ | ⟨τ, parent, hτ, -, hparent, rfl⟩
  · simp [DataPoint.get_adopt_variableItem hparent, DataPoint.get_adopt_objectItem hget, hobj,
      hvar, hfolder]
  · simpa [DataPoint.get_adopt_variableItem hparent, hobj, hvar] using get_of_eq_or hτ hvar

end Published

end OpcUaPublish

open OpcUaPublish in
/-- The data point of the flip-flop. -/
def flipFlopPoint : DataPoint where
  fb_id := (flipFlop .sint).sourceFBName
  var_id := (flipFlop .sint).sourceDataPointName
  fbDotFree := by decide
  varDotFree := by decide

end ForteOpcUa
