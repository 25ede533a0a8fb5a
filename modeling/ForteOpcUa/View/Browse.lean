import ForteOpcUa.View.Subtypes

/-!
# Browse — the references of a node in pages

`Service_Browse` and `Service_BrowseNext` in `ua_services_view.c`.  A client that limits the number of
references gets a continuation point with a full page, and asks for the next page with it.  The
session keeps the points.

- `browsePage` : the part of `Service_Browse_single` that both services share,
- `browse`     : the first page, and perhaps a continuation point,
- `browseNext` : the next page of a continuation point,
- `release`    : `Service_BrowseNext` with `releaseContinuationPoints`.
-/

namespace ForteOpcUa

namespace StatusCode

def badContinuationPointInvalid : StatusCode := 0x804a0000
def badNoContinuationPoints : StatusCode := 0x804b0000
def badBrowseDirectionInvalid : StatusCode := 0x804d0000

end StatusCode

namespace View

/-- `UA_BrowseDescription`. -/
structure BrowseDescription where
  nodeId : NodeId
  browseDirection : UInt32
  referenceTypeId : NodeId
  includeSubtypes : Bool
  nodeClassMask : UInt32
  resultMask : UInt32
  deriving DecidableEq

/-- `UA_ReferenceDescription`; an id that is not asked for is null. -/
structure ReferenceDescription where
  nodeId : NodeId
  referenceTypeId : NodeId
  isForward : Bool
  nodeClass : UInt32
  browseName : QualifiedName
  displayName : LocalizedText
  typeDefinition : NodeId
  deriving DecidableEq

/-- `UA_NodeClass`. -/
def nodeClass : NodeBody → UInt32
  | .object => 1
  | .variable _ => 2
  | .method => 4
  | .objectType => 8
  | .variableType _ => 16
  | .referenceType _ => 32
  | .dataType => 64
  | .view => 128

/-- `UA_NodeId_isNull`. -/
def isNull (id : NodeId) : Bool :=
  id.namespaceIndex = 0 && id.isUnnamed

/-- `UA_NS0ID_HASTYPEDEFINITION`. -/
def hasTypeDefinition : UInt32 := 40

/-- The target of the first reference of an object or a variable to a type. -/
def typeDefinition (n : Node) : NodeId :=
  if nodeClass n.body = 1 ∨ nodeClass n.body = 2 then
    match n.references.find? fun r =>
        Identifier.asNumeric r.referenceTypeId.identifier = hasTypeDefinition with
    | none => .null
    | some r => r.targetId
  else
    .null

/-- `fillReferenceDescription`, the fields that the mask asks for. -/
def fillReferenceDescription (curr : Node) (ref : ReferenceNode) (mask : UInt32) :
    ReferenceDescription where
  nodeId := curr.nodeId
  referenceTypeId := if mask &&& 1 ≠ 0 then ref.referenceTypeId else .null
  isForward := if mask &&& 2 ≠ 0 then !ref.isInverse else false
  nodeClass := if mask &&& 4 ≠ 0 then nodeClass curr.body else 0
  browseName := if mask &&& 8 ≠ 0 then curr.browseName else ⟨0, []⟩
  displayName := if mask &&& 16 ≠ 0 then curr.displayName else ⟨[], []⟩
  typeDefinition := if mask &&& 32 ≠ 0 then typeDefinition curr else .null

/-- `returnRelevantNode`. -/
def returnRelevantNode (ns : NodeStore) (descr : BrowseDescription) (returnAll : Bool)
    (reference : ReferenceNode) (relevant : List NodeId) : Option Node :=
  if reference.isInverse = true ∧ descr.browseDirection = 0 then
    none
  else if reference.isInverse = false ∧ descr.browseDirection = 1 then
    none
  else if returnAll = false ∧ reference.referenceTypeId ∉ relevant then
    none
  else
    match ns.get reference.targetId with
    | none => none
    | some node =>
        if descr.nodeClassMask ≠ 0 ∧ nodeClass node.body &&& descr.nodeClassMask = 0 then none
        else some node

/-- What a call gets of the surroundings: memory for the array of `findSubTypes`, for the references
and for a continuation point. -/
structure Surroundings where
  subTypes : ℕ → Bool
  references : Bool
  point : Bool

/-- The reference types that match the description, when not all do. -/
def relevantRefs (ns : NodeStore) (memory : ℕ → Bool) (fuel : ℕ) (descr : BrowseDescription) :
    Option (StatusCode × List NodeId) :=
  if isNull descr.referenceTypeId then
    some (.good, [])
  else if descr.includeSubtypes then
    findSubTypes ns memory fuel descr.referenceTypeId
  else
    match ns.get descr.referenceTypeId with
    | none => some (.badReferenceTypeIdInvalid, [])
    | some rootRef =>
        if isReferenceType rootRef then some (.good, [descr.referenceTypeId])
        else some (.badReferenceTypeIdInvalid, [])

/-- The loop over the references of the node: what goes into the page, and the references that the
loop did not get to. -/
def browseLoop (describe : ReferenceNode → Option ReferenceDescription)
    (maxrefs continuationIndex : ℕ) : List ReferenceNode → ℕ → List ReferenceDescription →
      List ReferenceDescription × List ReferenceNode
  | [], _, page => (page, [])
  | r :: rs, skipped, page =>
      if page.length < maxrefs then
        match describe r with
        | none => browseLoop describe maxrefs continuationIndex rs skipped page
        | some d =>
            if skipped < continuationIndex then
              browseLoop describe maxrefs continuationIndex rs (skipped + 1) page
            else
              browseLoop describe maxrefs continuationIndex rs skipped (page ++ [d])
      else
        (page, r :: rs)

/-- A page, or the status with which the service stopped before it looked at continuation points. -/
inductive Page
  | stopped (statusCode : StatusCode)
  | references (page : List ReferenceDescription) (done : Bool)
  deriving DecidableEq

/-- `Service_Browse_single` up to the continuation points; none is a search that is not over yet. -/
def browsePage (ns : NodeStore) (fuel : ℕ) (m : Surroundings) (descr : BrowseDescription)
    (maxrefs : UInt32) (continuationIndex : ℕ) : Option Page :=
  if descr.browseDirection ≠ 2 ∧ descr.browseDirection ≠ 0 ∧ descr.browseDirection ≠ 1 then
    some (.stopped .badBrowseDirectionInvalid)
  else do
    let relevant ← relevantRefs ns m.subTypes fuel descr
    if relevant.1 ≠ .good then
      some (.stopped relevant.1)
    else
      match ns.get descr.nodeId with
      | none => some (.stopped .badNodeIdUnknown)
      | some node =>
          if node.references = [] then
            some (.stopped .good)
          else if m.references = false then
            some (.stopped .badOutOfMemory)
          else
            let realMaxrefs :=
              if maxrefs = 0 then node.references.length
              else min maxrefs.toNat node.references.length
            let r := browseLoop (fun reference =>
              (returnRelevantNode ns descr (isNull descr.referenceTypeId) reference relevant.2).map
                fun current => fillReferenceDescription current reference descr.resultMask)
              realMaxrefs continuationIndex node.references 0 []
            some (.references r.1 r.2.isEmpty)

/-! ## Continuation points -/

/-- `ContinuationPointEntry`. -/
structure ContinuationPoint where
  identifier : ByteString
  browseDescription : BrowseDescription
  continuationIndex : ℕ
  maxReferences : UInt32
  deriving DecidableEq

/-- `UA_Session`, what browsing uses of it. -/
structure Session where
  continuationPoints : List ContinuationPoint
  availableContinuationPoints : ℕ
  deriving DecidableEq

/-- `UA_Session_init`. -/
def Session.init : Session :=
  ⟨[], 5⟩

/-- `UA_BrowseResult`. -/
structure BrowseResult where
  statusCode : StatusCode
  references : List ReferenceDescription
  continuationPoint : Option ByteString
  deriving DecidableEq

/-- `Service_Browse_single` without a continuation point. -/
def browse (ns : NodeStore) (fuel : ℕ) (m : Surroundings) (s : Session) (descr : BrowseDescription)
    (maxrefs : UInt32) (identifier : ByteString) : Option (BrowseResult × Session) :=
  match browsePage ns fuel m descr maxrefs 0 with
  | none => none
  | some (.stopped statusCode) => some (⟨statusCode, [], none⟩, s)
  | some (.references page _) =>
      if maxrefs ≠ 0 ∧ maxrefs.toNat ≤ page.length then
        if s.availableContinuationPoints = 0 ∨ m.point = false then
          some (⟨.badNoContinuationPoints, page, none⟩, s)
        else
          some (⟨.good, page, some identifier⟩,
            { continuationPoints := ⟨identifier, descr, page.length, maxrefs⟩ :: s.continuationPoints
              availableContinuationPoints := s.availableContinuationPoints - 1 })
      else
        some (⟨.good, page, none⟩, s)

/-- The first continuation point with the identifier moves on. -/
def advance (identifier : ByteString) (n : ℕ) : List ContinuationPoint → List ContinuationPoint
  | [] => []
  | cp :: cps =>
      if cp.identifier = identifier then
        { cp with continuationIndex := cp.continuationIndex + n } :: cps
      else
        cp :: advance identifier n cps

/-- `Service_BrowseNext` for one continuation point, with `Service_Browse_single`. -/
def browseNext (ns : NodeStore) (fuel : ℕ) (m : Surroundings) (s : Session)
    (identifier : ByteString) : Option (BrowseResult × Session) :=
  match s.continuationPoints.find? fun cp => cp.identifier = identifier with
  | none => some (⟨.badContinuationPointInvalid, [], none⟩, s)
  | some cp =>
      match browsePage ns fuel m cp.browseDescription cp.maxReferences cp.continuationIndex with
      | none => none
      | some (.stopped statusCode) => some (⟨statusCode, [], none⟩, s)
      | some (.references page true) =>
          some (⟨.good, page, none⟩,
            { continuationPoints := s.continuationPoints.eraseP fun cp => cp.identifier = identifier
              availableContinuationPoints := s.availableContinuationPoints + 1 })
      | some (.references page false) =>
          some (⟨.good, page, some identifier⟩,
            { s with continuationPoints := advance identifier page.length s.continuationPoints })

/-- `Service_BrowseNext` with `releaseContinuationPoints`, for one continuation point.  The comparison
stands the wrong way in the source. -/
def release (s : Session) (identifier : ByteString) : BrowseResult × Session :=
  if s.continuationPoints.any fun cp => cp.identifier ≠ identifier then
    (⟨.good, [], none⟩,
      { continuationPoints := s.continuationPoints.eraseP fun cp => cp.identifier ≠ identifier
        availableContinuationPoints := s.availableContinuationPoints + 1 })
  else
    (⟨.badContinuationPointInvalid, [], none⟩, s)

/-! ## The calls of a session -/

/-- A call of a client.  The identifier of a browse is the random one that its continuation point
gets. -/
inductive Call
  | browse (m : Surroundings) (descr : BrowseDescription) (maxrefs : UInt32)
      (identifier : ByteString)
  | next (m : Surroundings) (identifier : ByteString)
  | release (identifier : ByteString)

/-- The answer to a call. -/
def answer (ns : NodeStore) (fuel : ℕ) (s : Session) : Call → Option (BrowseResult × Session)
  | .browse m descr maxrefs identifier => browse ns fuel m s descr maxrefs identifier
  | .next m identifier => browseNext ns fuel m s identifier
  | .release identifier => some (release s identifier)

/-- The calls one after the other, with their answers. -/
def answers (ns : NodeStore) (fuel : ℕ) : Session → List Call →
    Option (List (Call × BrowseResult) × Session)
  | s, [] => some ([], s)
  | s, call :: calls =>
      match answer ns fuel s call with
      | none => none
      | some (reply, s') => (answers ns fuel s' calls).map fun r => ((call, reply) :: r.1, r.2)

end View

end ForteOpcUa
