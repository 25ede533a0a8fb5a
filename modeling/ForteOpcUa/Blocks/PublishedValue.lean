import ForteOpcUa.Blocks.Alone

/-!
# PublishedValue — which input a publish request publishes

The variable node of a publisher gets the value that `createVariableNode` puts into its request:
the global `write_value`, zero, with the entry of `UA_TYPES` at index `UA_NS0ID_BOOLEAN`.  Node ids
of types start at one and the table at zero, so the entry is `SByte`, and `IN` is never read.  A
request therefore publishes its input exactly when that is the `SINT` zero.
-/

namespace ForteOpcUa

open Interaction
open Interaction.Prog

namespace OpcUaPublish

/-- The value every accepted variable node starts with. -/
def writtenValue : Variant :=
  Variant.setScalarCopy writeValue (uaTypes writeType)

/-- The table entry that `write_type` selects is `SByte`, and the value is its zero. -/
theorem writtenValue_eq :
    writtenValue = { type := uaTypes TYPES.sbyte, arrayLength := -1, data := some [0] } :=
  rfl

/-- The variable node of the source holds a scalar with the value `IN` and the counterpart of the
source port's type. -/
def HoldsInput (net : Network) (source : ConnectionPoint) (IN : CiecAny) : Prop :=
  ∃ σ n value, net localServer = some σ ∧
    σ.get (NodeId.string 1
      (browseText source.sourceFBName source.sourceDataPointName)) = some n ∧
    n.body = .variable value ∧ value.isScalar = true ∧
    value.type = uaTypes source.dataType.counterpart ∧ value.data = some IN.bytes

/-- Only `SINT` has the counterpart `SByte`. -/
theorem eq_sint_of_counterpart {t : CiecType}
    (h : uaTypes TYPES.sbyte = uaTypes t.counterpart) : t = .sint := by
  cases t <;> first | rfl | exact absurd h (by decide)

/-- Only the zero of `SINT` is stored as one zero byte. -/
theorem eq_sint_zero {v : CiecAny} (htype : v.type = .sint) (hbytes : v.bytes = [0]) :
    v = .sint 0 := by
  cases v with
  | sint value =>
      have hlt : value.toBitVec.toNat < 256 ^ 1 := value.toBitVec.isLt
      -- One byte determines the number below 256 that it stores.
      have hzero : value.toBitVec.toNat = 0 := Memory.toBytes_inj hlt (by decide) hbytes
      have hval : value = 0 := by
        apply Int8.toBitVec_inj.1
        apply BitVec.eq_of_toNat_eq
        simpa using hzero
      rw [hval]
  | _ => cases htype

/-- After a successful request the variable node holds the written value. -/
theorem Published.variableNode {fb_id var_id : Name} {σ σ' : Server}
    (h : Published fb_id var_id σ σ') :
    ∃ n, σ'.get (NodeId.string 1 (browseText fb_id var_id)) = some n ∧
      n.body = .variable writtenValue := by
  rcases h.effect with ⟨τ, parent, -, -, hfree, hparent, rfl⟩
  -- The variable was free and the object was not, so they are two nodes.
  have hne : NodeId.string 1 (browseText fb_id var_id) ≠ objectId fb_id := by
    intro heq
    have hfree' : τ.get (objectId fb_id) = none := heq ▸ hfree
    rw [hparent] at hfree'
    cases hfree'
  refine ⟨Server.childNode (variableItem fb_id var_id), ?_, rfl⟩
  rw [Server.get_adopt hparent]
  exact (if_neg hne).trans (if_pos rfl)

/-- One successful request publishes its input exactly when that is the `SINT` zero. -/
theorem Published.holdsInput_iff {net : Network} {inputs : Inputs} {source : ConnectionPoint}
    {σ σ' : Server} (hconn : inputs.connection = some source)
    (h : Published source.sourceFBName source.sourceDataPointName σ σ') :
    HoldsInput (net.set localServer σ') source inputs.IN ↔ inputs.IN = .sint 0 := by
  rcases h.variableNode with ⟨n, hget, hbody⟩
  have htyped : inputs.IN.type = source.dataType := inputs.typed source hconn
  constructor
  · rintro ⟨σ'', n', value, hnet, hget', hbody', -, htype, hdata⟩
    rw [Network.set_self, Option.some.injEq] at hnet
    subst hnet
    rw [hget, Option.some.injEq] at hget'
    subst hget'
    rw [hbody, NodeBody.variable.injEq] at hbody'
    subst hbody'
    rw [writtenValue_eq] at htype hdata
    -- the table entry is `SByte`, which leaves `SINT`, and its one byte is zero
    have hsint : source.dataType = .sint := eq_sint_of_counterpart htype
    exact eq_sint_zero (htyped.trans hsint) (Option.some.inj hdata).symm
  · intro hIN
    have hsint : source.dataType = .sint := by rw [← htyped, hIN]; rfl
    refine ⟨σ', n, writtenValue, Network.set_self .., hget, hbody, rfl, ?_, ?_⟩
    · rw [hsint]
      rfl
    · rw [hIN]
      rfl

/-! ## Any inputs -/

/-- A publisher handles any sequence of requests with any inputs: after every request all of whose
calls succeed the variable node holds the input of that request with the type of the source port,
exactly when the input of each of these requests is the `SINT` zero. -/
theorem publishes_inputs_iff (sameText : SameText) (source : ConnectionPoint) (w : World)
    (requests : List Inputs) (hconn : ∀ r ∈ requests, r.connection = some source) :
    (∀ pre r post, requests = pre ++ r :: post →
      Succeeds (exec handler (executeEvent sameText eventREQ r)
        (worldAfter sameText w pre)).trace →
      HoldsInput (worldAfter sameText w (pre ++ [r])).2 source r.IN) ↔
    ∀ pre r post, requests = pre ++ r :: post →
      Succeeds (exec handler (executeEvent sameText eventREQ r)
        (worldAfter sameText w pre)).trace →
      r.IN = .sint 0 := by
  refine forall_congr' fun pre => forall_congr' fun r => forall_congr' fun post => ?_
  refine forall_congr' fun hsplit => forall_congr' fun hsucc => ?_
  -- One request at a time: what came before it is only the world it starts from.
  have hsource : r.connection = some source := hconn r (by simp [hsplit])
  rw [executeEvent_connected hsource] at hsucc
  rcases exec_published hsucc with ⟨σ, σ', -, hpub, hnet⟩
  rw [worldAfter_append, executeEvent_connected hsource, hnet]
  exact hpub.holdsInput_iff hsource

/-! ## A flag and a counter -/

/-- Every call of a request that publishes `TRUE` succeeds, and the node does not hold it. -/
theorem true_not_published :
    Succeeds (exec handler (executeEvent exactText eventREQ (flipFlopInputs (.bool true)))
      oneServer).trace ∧
    ¬ HoldsInput (worldAfter exactText oneServer [flipFlopInputs (.bool true)]).2
      (flipFlop .bool) (.bool true) := by
  have hok : Succeeds (exec handler
      (executeEvent exactText eventREQ (flipFlopInputs (.bool true))) oneServer).trace := by
    decide
  refine ⟨hok, ?_⟩
  have hconn : (flipFlopInputs (.bool true)).connection = some (flipFlop .bool) := rfl
  rw [executeEvent_connected hconn] at hok
  rcases exec_published hok with ⟨σ, σ', -, hpub, hnet⟩
  intro hholds
  have hworld := worldAfter_append exactText oneServer [] (flipFlopInputs (.bool true))
  rw [List.nil_append] at hworld
  rw [hworld, executeEvent_connected hconn] at hholds
  simp only [worldAfter, List.map_nil, execAll_nil, hnet] at hholds
  have hzero := (hpub.holdsInput_iff hconn).1 hholds
  cases hzero

/-- Two requests with the `SINT` zero: the first creates the object and the variable, the second
deletes the variable and creates it again. -/
theorem zero_published_twice :
    (∀ pre r post, [flipFlopInputs (.sint 0), flipFlopInputs (.sint 0)] = pre ++ r :: post →
      Succeeds (exec handler (executeEvent exactText eventREQ r)
        (worldAfter exactText oneServer pre)).trace →
      HoldsInput (worldAfter exactText oneServer (pre ++ [r])).2 (flipFlop .sint) r.IN) ↔
    ∀ pre r post, [flipFlopInputs (.sint 0), flipFlopInputs (.sint 0)] = pre ++ r :: post →
      Succeeds (exec handler (executeEvent exactText eventREQ r)
        (worldAfter exactText oneServer pre)).trace →
      r.IN = .sint 0 := by
  refine publishes_inputs_iff exactText (flipFlop .sint) oneServer _ ?_
  intro r hr
  have hr' : r = flipFlopInputs (.sint 0) := by simpa using hr
  rw [hr']
  rfl

end OpcUaPublish

end ForteOpcUa
