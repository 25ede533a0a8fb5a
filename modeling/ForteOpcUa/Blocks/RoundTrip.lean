import ForteOpcUa.Blocks.Alone
import ForteOpcUa.Blocks.Traces
import ForteOpcUa.Interaction.Hazard

/-!
# RoundTrip — when a read gets back what a write wrote

`OPC_UA_WRITE` has the inputs `SERVER` and `NODE` and uses neither: it writes the node
`the.answer` of the local server.  `OPC_UA_READ` reads the node it is asked for.  So a write
followed by a read with the same inputs returns the written value, and changes nothing else,
exactly when the inputs happen to name that node of the local server, or when the named node holds
the value already and so does `the.answer`.

Between its write and its confirmation the block frees a local variable.  Only where the process
survives that, there is a write request that confirms.
-/

namespace ForteOpcUa

open Interaction
open Interaction.Prog

/-! ## Outputs of a request -/

/-- The value of the last assignment to `OUT` in a trace. -/
def lastOUT (tr : List ClientEvent) : Option Int32 :=
  tr.foldl (fun out e =>
    match e.op with
    | .assignOUT value => some value
    | _ => out) none

/-- The request ends with `CNF`, and `OUT`, a `CIEC_INT`, holds the low 16 bits of the last value
assigned to it. -/
def ConfirmsWith (tr : List ClientEvent) (v : Int16) : Prop :=
  tr.getLast? = some (answered (.sendOutputEvent eventCNF) ()) ∧
    (lastOUT tr).map Int32.toInt16 = some v

/-- The node under `id` at address `url`. -/
def Network.node (net : Network) (url : ByteString) (id : NodeId) : Option Node :=
  (net url).bind fun σ => σ.get id

theorem Network.node_set_self (net : Network) (url : ByteString) (σ : Server) (id : NodeId) :
    (net.set url σ).node url id = σ.get id := by
  simp [Network.node]

theorem Network.node_set_of_ne (net : Network) {url url' : ByteString} (σ : Server) (id : NodeId)
    (h : url' ≠ url) : (net.set url σ).node url' id = net.node url' id := by
  simp [Network.node, Network.set_of_ne net σ h]

/-- A network in which one node was replaced. -/
theorem Network.node_set_put {net : Network} {url : ByteString} {σ : Server}
    (h : net url = some σ) (m : Node) (url' : ByteString) (id : NodeId) :
    (net.set url (σ.put m)).node url' id =
      if url' = url ∧ id = m.nodeId then some m else net.node url' id := by
  by_cases hurl : url' = url
  · subst hurl
    rw [node_set_self, Server.get_put]
    simp [node, h]
  · rw [node_set_of_ne net _ id hurl, if_neg (fun hboth => hurl hboth.1)]

/-! ## OPC_UA_READ alone -/

/-- A connected client is released without complaint. -/
theorem exec_finish_trace {url : ByteString} {c : Handle} {w : World} {σ : Server}
    (hat : Attached url c w.1 w.2 σ) :
    (exec handler (finish c eventCNF) w).trace = release c StatusCode.good eventCNF := by
  have hclosed : (handler (.disconnect c) w).1 = StatusCode.good := by
    simp only [handler, hat.disconnect]
  simp only [finish, exec_call_trace, exec_ret, hclosed, release]

/-- The reply a connected read gets. -/
def readReply (σ : Server) (NODE : ByteString) : ReadResponse :=
  { serviceResult := StatusCode.good, results := [σ.readSingle (NodeId.string 1 NODE)] }

/-- The read stage of a connected client. -/
theorem exec_readStage {c : Handle} {w : World} {SERVER : ByteString} {σ : Server}
    (hat : Attached SERVER c w.1 w.2 σ) (NODE : ByteString) :
    (exec handler (readStage eventCNF c NODE) w).trace =
      answered (.read c (NodeId.string 1 NODE)) (readReply σ NODE) ::
        takeValue eventCNF (readReply σ NODE) :: release c StatusCode.good eventCNF ∧
    (exec handler (readStage eventCNF c NODE) w).state.2 = w.2 := by
  have hread : handler (.read c (NodeId.string 1 NODE)) w = (readReply σ NODE, w) := by
    simp only [handler, hat.read, readReply]
  have hfinish : (exec handler (finish c eventCNF) w).trace =
      release c StatusCode.good eventCNF := exec_finish_trace hat
  have hnet := exec_finish_network c eventCNF w
  have hassign : ∀ value, handler (.assignOUT value) w = ((), w) := fun _ => rfl
  have hsend : handler (.sendOutputEvent eventCNF) w = ((), w) := rfl
  simp only [readStage, exec_call_trace, exec_call_state, hread, takeValue]
  -- Taking the value and complaining both leave the world as it is.
  cases (readReply σ NODE).firstInt32 with
  | some value =>
      simp only [exec_call_trace, exec_call_state, hassign, hfinish, hnet, and_self]
  | none =>
      simp only [exec_call_trace, exec_call_state, hsend, hfinish, hnet, and_self]

/-- A read request to a server that is there: its trace, and that it changes no server. -/
theorem exec_readValue {w : World} {SERVER NODE : ByteString} {σ : Server}
    (h : w.2 SERVER = some σ) :
    (exec handler (readValue eventCNF SERVER NODE) w).trace =
      readTrace eventCNF SERVER NODE w.1.next StatusCode.good (readReply σ NODE)
        StatusCode.good ∧
    (exec handler (readValue eventCNF SERVER NODE) w).state.2 = w.2 := by
  have hassign : handler (.assignOUT 0) w = ((), w) := rfl
  have hread := exec_readStage (attached_connectedTo h) NODE
  rw [readValue_eq]
  simp only [exec_call_trace, exec_call_state, hassign, handler_clientNew, handler_connect h,
    if_true, hread, readTrace, refusal, List.nil_append]
  exact ⟨trivial, rfl⟩

/-- The reply that finds a scalar `Int32`. -/
theorem firstInt32_readReply {σ : Server} {NODE : ByteString} {value : Variant} {n : Node}
    (hget : σ.get (NodeId.string 1 NODE) = some n) (hvalue : n.value? = some value)
    (hscalar : value.isScalar = true) (htype : value.type = uaTypes TYPES.int32) :
    (readReply σ NODE).firstInt32 = some value.int32 := by
  simp [readReply, ReadResponse.firstInt32, Server.readSingle_value hget hvalue, hscalar, htype]

/-- A read that finds an `Int32` confirms with its low 16 bits. -/
theorem confirmsWith_readTrace {SERVER NODE : ByteString} {c : Handle} {rResp : ReadResponse}
    {closed : StatusCode} {value : Int32} (h : rResp.firstInt32 = some value) (v : Int16) :
    ConfirmsWith (readTrace eventCNF SERVER NODE c StatusCode.good rResp closed) v ↔
      value.toInt16 = v := by
  simp [ConfirmsWith, readTrace, refusal, takeValue, h, release, lastOUT]

/-! ## OPC_UA_WRITE alone -/

namespace OpcUaWrite

/-- Storing the `Int32` `x` into a variable that holds `old` leaves it as it is: `old` is the
scalar with the bytes of `x`, an `Int32` or of an enumeration type. -/
def AlreadyStores (old : Variant) (x : Int32) : Prop :=
  old.arrayLength = -1 ∧ old.data = some (int32Bytes x) ∧
    (old.type = uaTypes TYPES.int32 ∨ old.type.typeId ≠ (uaTypes TYPES.int32).typeId)

instance (old : Variant) (x : Int32) : Decidable (AlreadyStores old x) :=
  inferInstanceAs (Decidable (_ ∧ _ ∧ _))

theorem castValue_int32 {old : Variant} (htype : old.type = uaTypes TYPES.int32) (x : Int32) :
    Server.castValue old (requestValue x) = .ok (requestValue x) := by
  simp [Server.castValue, requestValue, htype]

/-- An accepted `Int32` is stored as it is, or under the enumeration type of the variable. -/
theorem castValue_requestValue {old value : Variant} {x : Int32}
    (h : Server.castValue old (requestValue x) = .ok value) :
    value = old ↔ AlreadyStores old x := by
  rcases old with ⟨type, arrayLength, data⟩
  -- The three casts of `MoveValueIntoNode`, of which an `Int32` can get the first two.
  unfold Server.castValue at h
  split at h
  · rename_i hid
    cases h
    simp only [AlreadyStores, requestValue, Variant.mk.injEq] at hid ⊢
    constructor
    · rintro ⟨rfl, rfl, rfl⟩
      exact ⟨rfl, rfl, Or.inl rfl⟩
    · rintro ⟨rfl, rfl, htype⟩
      exact ⟨(htype.resolve_right (not_not.2 hid)).symm, rfl, rfl⟩
  split at h
  · rename_i hid _
    cases h
    simp only [AlreadyStores, requestValue, Variant.mk.injEq, true_and] at hid ⊢
    constructor
    · rintro ⟨rfl, rfl⟩
      exact ⟨rfl, rfl, Or.inr hid⟩
    · rintro ⟨rfl, rfl, -⟩
      exact ⟨rfl, rfl⟩
  split at h
  · rename_i hbytes
    have hne : uaTypes TYPES.int32 ≠ uaTypes TYPES.byteString := by decide
    simp [requestValue, hne] at hbytes
  · cases h

/-- A write request all of whose calls succeed stores its value in `the.answer` of the local
server, whatever its inputs `SERVER` and `NODE` say. -/
theorem exec_executeEvent {w : World} {SERVER NODE : ByteString} {IN : Int16}
    (h : Succeeds (exec handler (executeEvent eventREQ SERVER NODE IN) w).trace) :
    ∃ σ n old value, w.2 localServer = some σ ∧ σ.get theAnswer = some n ∧
      n.value? = some old ∧ Server.castValue old (requestValue IN.toInt32) = .ok value ∧
      (exec handler (executeEvent eventREQ SERVER NODE IN) w).state.2 =
        w.2.set localServer (σ.put (n.setValue value)) := by
  rw [executeEvent_eq] at h ⊢
  simp only [exec_call_trace, exec_call_state, handler_clientNew] at h ⊢
  cases hnet : w.2 localServer with
  | none =>
      have hconn : (handler (.connect w.1.next localServer) (w.1.create, w.2)).1 =
          StatusCode.good := h.tail.head
      simp only [handler, serve_connect w.1.create_link_self, hnet] at hconn
      exact absurd hconn StatusCode.badConnectionClosed_ne_good
  | some σ =>
      have hat := attached_connectedTo hnet
      simp only [handler_connect hnet, if_true] at h ⊢
      -- The service result is good for any write, so it is the single result that counts.
      have hgood : (σ.writeSingle theAnswer (requestValue IN.toInt32)).1 = StatusCode.good := by
        have hwrite := h.tail.tail.head
        simp only [Successful, handler, hat.write] at hwrite
        exact hwrite.2 _ (by simp)
      rcases Server.writeSingle_good hgood with ⟨n, old, value, hget, hold, hcast, hput⟩
      refine ⟨σ, n, old, value, rfl, hget, hold, hcast, ?_⟩
      simp only [exec_call_state, exec_finish_network, handler, hat.write, hput]
      rfl

end OpcUaWrite

/-! ## The round trip -/

/-- Server `s` has a variable `n` in namespace 1 that holds the scalar `Int32` in `value`. -/
structure HoldsInt32 (net : Network) (s n : ByteString) (value : Variant) : Prop where
  node : ∃ m, net.node s (NodeId.string 1 n) = some m ∧ m.body = .variable value
  scalar : value.isScalar = true
  type : value.type = uaTypes TYPES.int32

/-- What a read of such a variable confirms with. -/
theorem HoldsInt32.read_confirmsWith {w : World} {s n : ByteString} {value : Variant}
    (h : HoldsInt32 w.2 s n value) (v : Int16) :
    ConfirmsWith (exec handler (OpcUaRead.executeEvent eventREQ s n) w).trace v ↔
      value.int32.toInt16 = v := by
  rcases h.node with ⟨m, hm, hbody⟩
  rcases Option.bind_eq_some_iff.1 hm with ⟨σ, hs, hget⟩
  have hvalue : m.value? = some value := by simp [Node.value?, hbody]
  have hread : (exec handler (OpcUaRead.executeEvent eventREQ s n) w).trace = _ :=
    (exec_readValue hs).1
  rw [hread]
  exact confirmsWith_readTrace (firstInt32_readReply hget hvalue h.scalar h.type) v

/-- Writing `v` to node `n` of server `s` and reading it back: a read that finds the node as the
write left it confirms with `v`, and the write changed no other node of any server. -/
def RoundTrip (w : World) (s n : ByteString) (v : Int16) : Prop :=
  (∀ w' : World,
    w'.2.node s (NodeId.string 1 n) =
      (exec handler (OpcUaWrite.executeEvent eventREQ s n v) w).state.2.node s
        (NodeId.string 1 n) →
    ConfirmsWith (exec handler (OpcUaRead.executeEvent eventREQ s n) w').trace v) ∧
  ∀ url id, (url, id) ≠ (s, NodeId.string 1 n) →
    (exec handler (OpcUaWrite.executeEvent eventREQ s n v) w).state.2.node url id =
      w.2.node url id

namespace OpcUaWrite

/-- The value of `the.answer` at the local server. -/
def answerValue (net : Network) : Option Variant :=
  (net.node localServer theAnswer).bind Node.value?

/-- `w'` is `w` with `new` stored in `the.answer` of the local server, which was node `m` with
value `old`. -/
structure Wrote (w w' : World) (v : Int16) (m : Node) (old new : Variant) : Prop where
  answer : w.2.node localServer theAnswer = some m
  value : m.value? = some old
  cast : Server.castValue old (requestValue v.toInt32) = .ok new
  after : ∀ url id, w'.2.node url id =
    if url = localServer ∧ id = theAnswer then some (m.setValue new) else w.2.node url id

theorem wrote {w : World} {s n : ByteString} {v : Int16}
    (h : Succeeds (exec handler (executeEvent eventREQ s n v) w).trace) :
    ∃ m old new, Wrote w (exec handler (executeEvent eventREQ s n v) w).state v m old new := by
  rcases exec_executeEvent h with ⟨σ, m, old, new, hlocal, hget, hold, hcast, hnet⟩
  refine ⟨m, old, new, ?_, hold, hcast, ?_⟩
  · simp [Network.node, hlocal, hget]
  · intro url id
    rw [hnet, Network.node_set_put hlocal, Node.setValue_nodeId, Server.nodeId_of_get hget]

section

variable {w : World} {s n : ByteString} {v : Int16} {value old new : Variant} {m : Node}

/-- With inputs that name `the.answer` of the local server the round trip works. -/
theorem roundTrip_named (hnode : HoldsInt32 w.2 localServer (ascii "the.answer") value)
    (hwrote : Wrote w (exec handler (executeEvent eventREQ localServer (ascii "the.answer") v)
      w).state v m old new) :
    RoundTrip w localServer (ascii "the.answer") v := by
  rcases hnode.node with ⟨m', hm', hbody⟩
  -- The node that is read is the node that was written.
  have hmm : m' = m := Option.some.inj (hm'.symm.trans hwrote.answer)
  subst hmm
  have hold : old = value := by
    have hvalue : m'.value? = some value := by simp [Node.value?, hbody]
    exact Option.some.inj (hwrote.value.symm.trans hvalue)
  have hcast := hwrote.cast
  rw [hold, castValue_int32 hnode.type, Except.ok.injEq] at hcast
  refine ⟨?_, ?_⟩
  · intro w' hw'
    have hholds : HoldsInt32 w'.2 localServer (ascii "the.answer") (requestValue v.toInt32) := by
      refine ⟨⟨m'.setValue new, ?_, ?_⟩, rfl, rfl⟩
      · rw [hw', hwrote.after, if_pos ⟨rfl, rfl⟩]
      · simp [Node.setValue, hbody, hcast]
    rw [hholds.read_confirmsWith]
    simp [requestValue]
  · intro url id hne
    rw [hwrote.after, if_neg]
    rintro ⟨rfl, rfl⟩
    exact hne rfl

/-- With other inputs the read finds the old value of its node, and the node that changes is
`the.answer`. -/
theorem roundTrip_other_iff (hother : ¬ (s = localServer ∧ n = ascii "the.answer"))
    (hnode : HoldsInt32 w.2 s n value)
    (hwrote : Wrote w (exec handler (executeEvent eventREQ s n v) w).state v m old new) :
    RoundTrip w s n v ↔ value.int32.toInt16 = v ∧ AlreadyStores old v.toInt32 := by
  have hne : ¬ (s = localServer ∧ NodeId.string 1 n = theAnswer) := by
    rintro ⟨hs, hid⟩
    exact hother ⟨hs, (NodeId.string_inj.1 hid).2⟩
  -- The write went elsewhere, so the node still holds its old value.
  have hstays : ∀ w' : World, w'.2.node s (NodeId.string 1 n) =
      (exec handler (executeEvent eventREQ s n v) w).state.2.node s (NodeId.string 1 n) →
        HoldsInt32 w'.2 s n value := by
    intro w' hw'
    rw [hwrote.after, if_neg hne] at hw'
    rcases hnode.node with ⟨m', hm', hbody⟩
    exact ⟨⟨m', hw'.trans hm', hbody⟩, hnode.scalar, hnode.type⟩
  have hread : (∀ w' : World, w'.2.node s (NodeId.string 1 n) =
      (exec handler (executeEvent eventREQ s n v) w).state.2.node s (NodeId.string 1 n) →
        ConfirmsWith (exec handler (OpcUaRead.executeEvent eventREQ s n) w').trace v) ↔
      value.int32.toInt16 = v := by
    constructor
    · intro h
      exact ((hstays _ rfl).read_confirmsWith v).1 (h _ rfl)
    · intro hv w' hw'
      exact ((hstays w' hw').read_confirmsWith v).2 hv
  -- The node that was written is not the one named, so it may not have changed.
  have hframe : (∀ url id, (url, id) ≠ (s, NodeId.string 1 n) →
      (exec handler (executeEvent eventREQ s n v) w).state.2.node url id = w.2.node url id) ↔
      new = old := by
    constructor
    · intro h
      have hsame := h localServer theAnswer fun heq =>
        hne ⟨(Prod.mk.inj heq).1.symm, (Prod.mk.inj heq).2.symm⟩
      rw [hwrote.after, if_pos ⟨rfl, rfl⟩, hwrote.answer, Option.some.injEq] at hsame
      exact (Node.setValue_eq_self_iff hwrote.value new).1 hsame
    · intro heq url id _
      rw [hwrote.after, (Node.setValue_eq_self_iff hwrote.value new).2 heq]
      split
      · rename_i hpos
        rw [hpos.1, hpos.2, hwrote.answer]
      · rfl
  calc
    RoundTrip w s n v
        ↔ value.int32.toInt16 = v ∧ new = old := and_congr hread hframe
    _ ↔ value.int32.toInt16 = v ∧ AlreadyStores old v.toInt32 :=
        and_congr_right fun _ => castValue_requestValue hwrote.cast

end

/-- The last event of the trace is the confirmation. -/
def Confirms (tr : List ClientEvent) : Prop :=
  tr.getLast? = some (answered (.sendOutputEvent eventCNF) ())

/-- A request that confirms has survived what C leaves undefined. -/
theorem eq_of_confirms {tr seen : List ClientEvent} (hseen : Seen UndefinedCall tr seen)
    (hconf : Confirms seen) : seen = tr :=
  hseen.eq_of_not_breaks <| not_breaks_of_getLast hconf fun past => by
    simp [UndefinedCall, Call.Undefined, Call.client?]

/-- For a write request that confirms, all of its calls succeeding, to a server `s` that has the
variable `n` with a scalar `Int32`: the round trip works exactly when the inputs name `the.answer` of
the local server, or when the node they name already holds `v` in its low 16 bits and `the.answer`
already stores `v`. -/
theorem roundTrip_iff (w : World) (s n : ByteString) (v : Int16) (value : Variant)
    (hnode : HoldsInt32 w.2 s n value) (seen : List ClientEvent)
    (hseen : Seen UndefinedCall (exec handler (executeEvent eventREQ s n v) w).trace seen)
    (hconf : Confirms seen) (hok : Succeeds seen) :
    RoundTrip w s n v ↔
      (s = localServer ∧ n = ascii "the.answer") ∨
      (value.int32.toInt16 = v ∧
        ∃ old, answerValue w.2 = some old ∧ AlreadyStores old v.toInt32) := by
  rw [eq_of_confirms hseen hconf] at hok
  rcases wrote hok with ⟨m, old, new, hwrote⟩
  have hvalue : answerValue w.2 = some old := by
    simp [answerValue, hwrote.answer, hwrote.value]
  by_cases hnamed : s = localServer ∧ n = ascii "the.answer"
  · rcases hnamed with ⟨rfl, rfl⟩
    exact iff_of_true (roundTrip_named hnode hwrote) (Or.inl ⟨rfl, rfl⟩)
  · rw [roundTrip_other_iff hnamed hnode hwrote]
    simp [hnamed, hvalue]

/-! ## Two variables on the local server -/

/-- A variable of namespace 1 that holds the `Int32` zero. -/
def zeroVariable (name : ByteString) : Node :=
  { nodeId := NodeId.string 1 name
    browseName := { namespaceIndex := 1, name := name }
    displayName := { locale := ascii "en_US", text := name }
    references := []
    body := .variable (requestValue 0) }

/-- The local server with the variables `the.answer` and `the.question`. -/
def answerAndQuestion : World :=
  (Station.init, Network.set (fun _ => none) localServer
    ((Server.new.put (zeroVariable (ascii "the.answer"))).put
      (zeroVariable (ascii "the.question"))))

/-- All calls of a write request succeed there, whatever its inputs name. -/
theorem answerAndQuestion_succeeds (s n : ByteString) :
    Succeeds (exec handler (executeEvent eventREQ s n 7) answerAndQuestion).trace := by
  have h : Succeeds (exec handler (executeEvent eventREQ [] [] 7) answerAndQuestion).trace := by
    decide
  exact h

/-- Where the process survives it confirms. -/
theorem answerAndQuestion_confirms (s n : ByteString) :
    Confirms (exec handler (executeEvent eventREQ s n 7) answerAndQuestion).trace := by
  have h : Confirms (exec handler (executeEvent eventREQ [] [] 7) answerAndQuestion).trace := rfl
  exact h

/-- Writing 7 to `the.answer` and reading it back. -/
theorem roundTrip_answer :
    RoundTrip answerAndQuestion localServer (ascii "the.answer") 7 ↔
      (localServer = localServer ∧ ascii "the.answer" = ascii "the.answer") ∨
      ((requestValue 0).int32.toInt16 = 7 ∧
        ∃ old, answerValue answerAndQuestion.2 = some old ∧
          AlreadyStores old (7 : Int16).toInt32) :=
  roundTrip_iff answerAndQuestion localServer (ascii "the.answer") 7 (requestValue 0)
    ⟨⟨zeroVariable (ascii "the.answer"), by decide, rfl⟩, rfl, rfl⟩ _ .whole
    (answerAndQuestion_confirms _ _) (answerAndQuestion_succeeds _ _)

/-- Writing 7 to `the.question` succeeds and confirms, where the process survives, and a read of it
does not get 7 back. -/
theorem question_not_written :
    HoldsInt32 answerAndQuestion.2 localServer (ascii "the.question") (requestValue 0) ∧
    (∃ seen, Seen UndefinedCall (exec handler (executeEvent eventREQ localServer
        (ascii "the.question") 7) answerAndQuestion).trace seen ∧ Confirms seen ∧ Succeeds seen) ∧
    ¬ RoundTrip answerAndQuestion localServer (ascii "the.question") 7 := by
  have hnode : HoldsInt32 answerAndQuestion.2 localServer (ascii "the.question")
      (requestValue 0) := ⟨⟨zeroVariable (ascii "the.question"), by decide, rfl⟩, rfl, rfl⟩
  have hok := answerAndQuestion_succeeds localServer (ascii "the.question")
  have hconf := answerAndQuestion_confirms localServer (ascii "the.question")
  refine ⟨hnode, ⟨_, .whole, hconf, hok⟩, ?_⟩
  rcases wrote hok with ⟨m, old, new, hwrote⟩
  intro h
  have hread := ((roundTrip_other_iff (by decide) hnode hwrote).1 h).1
  exact absurd hread (by decide)

end OpcUaWrite

end ForteOpcUa
