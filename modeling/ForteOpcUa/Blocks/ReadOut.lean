import ForteOpcUa.Blocks.Traces
import ForteOpcUa.Interaction.Register
import Mathlib.Data.List.Forall2

/-!
# ReadOut — what `OPC_UA_READ` leaves in `OUT`

`OUT` is a `CIEC_INT` of 16 bits, and the value taken from a reply is a `UA_Int32`.  Every request
first clears `OUT`, so what an earlier one left plays no role; but the assignment of the value keeps
its low 16 bits only, and after a failed connect the handler still takes what the read answers.

- `outRegister`       : `OUT` along a trace, sampled at `CNF`,
- `HandledRead`       : a request of the block, with what its reply delivers,
- `readsFaithful_iff` : in a run of requests `OUT` is right at every last `CNF` exactly when every
  delivered value is an `INT` and nothing but multiples of 65536 comes from a deleted client.
-/

namespace ForteOpcUa

open Interaction
open Interaction.Prog

/-! ## The output -/

/-- `OUT` under the events of the block: `CIEC_INT` keeps the low 16 bits. -/
def outRegister : Register ClientEvent Int16 where
  write
    | _, ⟨.assignOUT value, _⟩ => value.toInt16
    | out, _ => out

/-- The event is the output event `CNF`. -/
def isCNF (e : ClientEvent) : Bool :=
  e.op = .sendOutputEvent eventCNF

/-- The reply is good and its first result is a scalar `Int32` with value `v`. -/
def ReadResponse.Carries (rResp : ReadResponse) (v : Int32) : Prop :=
  rResp.serviceResult = StatusCode.good ∧
    ∃ result rest, rResp.results = result :: rest ∧ result.hasValue = true ∧
      result.value.isScalar = true ∧ result.value.type = uaTypes TYPES.int32 ∧
      result.value.int32 = v

/-- The handler's condition picks exactly the carried value. -/
theorem ReadResponse.carries_iff {rResp : ReadResponse} {v : Int32} :
    rResp.Carries v ↔ rResp.firstInt32 = some v := by
  rcases rResp with ⟨serviceResult, results⟩
  cases results with
  | nil =>
      simp [Carries, firstInt32]
  | cons result rest =>
      -- The conjunction of the source, from left to right.
      simp only [Carries, firstInt32, List.cons.injEq]
      constructor
      · rintro ⟨hgood, _, _, ⟨rfl, rfl⟩, hvalue, hscalar, htype, rfl⟩
        simp [hgood, hvalue, hscalar, htype]
      · intro h
        split at h
        · rename_i hall
          simp only [Bool.and_eq_true, decide_eq_true_eq] at hall
          rcases hall with ⟨⟨⟨hgood, hvalue⟩, hscalar⟩, htype⟩
          exact ⟨hgood, result, rest, ⟨rfl, rfl⟩, hvalue, hscalar, htype, Option.some.inj h⟩
        · cases h

/-! ## One request -/

/-- A `REQ` of `OPC_UA_READ` that was handled. -/
structure HandledRead where
  SERVER : ByteString
  NODE : ByteString
  trace : List ClientEvent
  ran : Run (OpcUaRead.executeEvent eventREQ SERVER NODE) trace ()

namespace HandledRead

/-- The connect of the request succeeded. -/
def Connects (x : HandledRead) : Prop :=
  ∃ c url, answered (.connect c url) StatusCode.good ∈ x.trace

/-- The read of the request was answered by `rResp`. -/
def Replies (x : HandledRead) (rResp : ReadResponse) : Prop :=
  ∃ c id, answered (.read c id) rResp ∈ x.trace

/-- The request's own reply delivers `v`. -/
def Delivers (x : HandledRead) (v : Int32) : Prop :=
  x.Connects ∧ ∃ rResp, x.Replies rResp ∧ rResp.Carries v

/-- `out` is what the request should leave: the delivered value, or else zero. -/
def Reports (x : HandledRead) (out : Int16) : Prop :=
  (∀ v, x.Delivers v → out.toInt = v.toInt) ∧ ((∀ v, ¬ x.Delivers v) → out.toInt = 0)

/-- A value read on a connection is an `INT`, and one read on the deleted client after a failed
connect has no low 16 bits. -/
def InRange (x : HandledRead) : Prop :=
  ∀ rResp v, x.Replies rResp → rResp.Carries v →
    (x.Connects → -2 ^ 15 ≤ v.toInt ∧ v.toInt < 2 ^ 15) ∧ (¬ x.Connects → 2 ^ 16 ∣ v.toInt)

end HandledRead

/-- What the handler leaves in `OUT` for a reply. -/
def ReadResponse.left (rResp : ReadResponse) : Int16 :=
  (rResp.firstInt32.map Int32.toInt16).getD 0

/-- The trace of a read request up to its last `CNF`. -/
def readBody (SERVER NODE : ByteString) (c : Handle) (connected : StatusCode)
    (rResp : ReadResponse) (closed : StatusCode) : List ClientEvent :=
  (answered (.assignOUT 0) () :: answered .clientNew c ::
    answered (.connect c SERVER) connected :: refusal eventCNF c connected) ++
      [answered (.read c (NodeId.string 1 NODE)) rResp, takeValue eventCNF rResp,
        answered (.disconnect c) closed, answered (.clientDelete c) ()]

section ReadTrace

variable {SERVER NODE : ByteString} {c : Handle} {connected closed : StatusCode}
variable {rResp : ReadResponse}

/-- A refused connect assigns nothing. -/
theorem held_refusal (out : Int16) :
    outRegister.held out (refusal eventCNF c connected) = out := by
  unfold refusal
  split <;> rfl

/-- `OUT` was cleared before the value is taken, so it ends with what the reply leaves. -/
theorem write_takeValue : outRegister.write 0 (takeValue eventCNF rResp) = rResp.left := by
  unfold takeValue ReadResponse.left
  cases rResp.firstInt32 with
  | none => rfl
  | some value => rfl

/-- A request ends with `CNF`. -/
theorem readTrace_eq_concat :
    readTrace eventCNF SERVER NODE c connected rResp closed =
      readBody SERVER NODE c connected rResp closed ++
        [answered (.sendOutputEvent eventCNF) ()] := by
  simp [readTrace, readBody, release]

theorem held_readBody (out : Int16) :
    outRegister.held out (readBody SERVER NODE c connected rResp closed) = rResp.left := by
  calc
    outRegister.held out (readBody SERVER NODE c connected rResp closed)
        = outRegister.write (outRegister.held 0 (refusal eventCNF c connected))
            (takeValue eventCNF rResp) := by rw [readBody, Register.held_append]; rfl
    _ = outRegister.write 0 (takeValue eventCNF rResp) := by rw [held_refusal]
    _ = rResp.left := write_takeValue

/-- At the last `CNF` of a request `OUT` depends on the reply to its read only. -/
theorem lastSample_readTrace (out : Int16) :
    outRegister.lastSample isCNF out
        (readTrace eventCNF SERVER NODE c connected rResp closed) =
      some rResp.left := by
  rw [readTrace_eq_concat, outRegister.lastSample_concat rfl, Register.held_append,
    held_readBody]
  rfl

/-- The one read of a request. -/
theorem read_mem_readTrace {c' : Handle} {id : NodeId} {rResp' : ReadResponse} :
    answered (.read c' id) rResp' ∈
        readTrace eventCNF SERVER NODE c connected rResp closed ↔
      c' = c ∧ id = NodeId.string 1 NODE ∧ rResp' = rResp := by
  have hrefusal : answered (.read c' id) rResp' ∉ refusal eventCNF c connected := by
    unfold refusal
    split <;> simp
  have htake : answered (.read c' id) rResp' ≠ takeValue eventCNF rResp := by
    unfold takeValue
    split <;> simp
  simp [readTrace, release, hrefusal, htake, and_assoc]

end ReadTrace

/-! ## Narrowing -/

/-- The low 16 bits are the whole value exactly in the range of an `INT`. -/
theorem toInt_toInt16_eq_iff (v : Int32) :
    v.toInt16.toInt = v.toInt ↔ -2 ^ 15 ≤ v.toInt ∧ v.toInt < 2 ^ 15 := by
  rw [Int32.toInt_toInt16]
  constructor
  · intro h
    have hlow := Int.le_bmod (x := v.toInt) (m := 2 ^ 16) (by decide)
    have hhigh := Int.bmod_lt (x := v.toInt) (m := 2 ^ 16) (by decide)
    omega
  · rintro ⟨hlow, hhigh⟩
    exact Int.bmod_eq_of_le (by omega) (by omega)

/-- The low 16 bits are zero exactly for multiples of 65536. -/
theorem toInt_toInt16_eq_zero_iff (v : Int32) :
    v.toInt16.toInt = 0 ↔ 2 ^ 16 ∣ v.toInt := by
  rw [Int32.toInt_toInt16]
  exact (Int.dvd_iff_bmod_eq_zero (a := 2 ^ 16)).symm

/-! ## Runs of requests -/

namespace HandledRead

/-- What a request amounts to: the reply to its read, and `OUT` at its last `CNF`. -/
theorem summary (x : HandledRead) :
    ∃ rResp, (∀ rResp', x.Replies rResp' ↔ rResp' = rResp) ∧
      ∀ out, outRegister.lastSample isCNF out x.trace = some rResp.left := by
  rcases readValue_run x.ran with ⟨c, connected, rResp, closed, htrace⟩
  refine ⟨rResp, ?_, ?_⟩
  · intro rResp'
    simp [Replies, htrace, read_mem_readTrace]
  · intro out
    rw [htrace, lastSample_readTrace]

/-- A request leaves what it should exactly if its value is in range. -/
theorem reports_iff (x : HandledRead) (OUT : Int16) :
    (∃ out, outRegister.lastSample isCNF OUT x.trace = some out ∧ x.Reports out) ↔
      x.InRange := by
  rcases x.summary with ⟨rResp, hreply, hsample⟩
  have hdelivers : ∀ v, x.Delivers v ↔ x.Connects ∧ rResp.firstInt32 = some v := by
    intro v
    simp [Delivers, hreply, ReadResponse.carries_iff]
  have hrange : x.InRange ↔ ∀ v, rResp.firstInt32 = some v →
      (x.Connects → -2 ^ 15 ≤ v.toInt ∧ v.toInt < 2 ^ 15) ∧
        (¬ x.Connects → 2 ^ 16 ∣ v.toInt) := by
    constructor
    · intro h v hv
      exact h rResp v ((hreply rResp).2 rfl) (ReadResponse.carries_iff.2 hv)
    · intro h rResp' v hr hv
      rw [(hreply rResp').1 hr] at hv
      exact h v (ReadResponse.carries_iff.1 hv)
  have hout : (∃ out, outRegister.lastSample isCNF OUT x.trace = some out ∧ x.Reports out) ↔
      x.Reports rResp.left := by
    simp [hsample]
  rw [hout, hrange, Reports]
  simp only [hdelivers]
  cases hval : rResp.firstInt32 with
  | none =>
      simp [ReadResponse.left, hval]
  | some value =>
      have hleft : rResp.left = value.toInt16 := by simp [ReadResponse.left, hval]
      rw [hleft]
      -- Only a connected request delivers the value its reply carries.
      by_cases hc : x.Connects
      · simpa [hc] using toInt_toInt16_eq_iff value
      · simpa [hc] using toInt_toInt16_eq_zero_iff value

end HandledRead

/-- `OUT` at the last `CNF` of each request of a run that starts with `OUT` as given. -/
def outsAtCNF (OUT : Int16) (run : List HandledRead) : List (Option Int16) :=
  outRegister.lastSamples isCNF OUT (run.map HandledRead.trace)

/-- At the last `CNF` of each request `OUT` is what its own reply delivers, or else zero. -/
def ReadsFaithful (OUT : Int16) (run : List HandledRead) : Prop :=
  List.Forall₂ (fun x sample => ∃ out, sample = some out ∧ x.Reports out) run
    (outsAtCNF OUT run)

/-- Each request leaves in `OUT` what it leaves on its own, from any earlier value. -/
def ReadsIndependent (OUT : Int16) (run : List HandledRead) : Prop :=
  ∀ OUT', outsAtCNF OUT run = run.flatMap fun x => outsAtCNF OUT' [x]

theorem outsAtCNF_eq (OUT OUT' : Int16) (run : List HandledRead) :
    outsAtCNF OUT run =
      run.map fun x => outRegister.lastSample isCNF OUT' x.trace := by
  -- Every request clears `OUT` before it samples it.
  have hreset : ∀ tr ∈ run.map HandledRead.trace, ∀ out out',
      outRegister.lastSample isCNF out tr = outRegister.lastSample isCNF out' tr := by
    intro tr htr out out'
    rcases List.mem_map.1 htr with ⟨x, -, rfl⟩
    rcases x.summary with ⟨_, _, hsample⟩
    rw [hsample, hsample]
  rw [outsAtCNF, Register.lastSamples_eq hreset OUT OUT', List.map_map]
  rfl

/-- No request is influenced by an earlier one. -/
theorem readsIndependent (OUT : Int16) (run : List HandledRead) : ReadsIndependent OUT run := by
  intro OUT'
  have hsingle : ∀ x : HandledRead,
      outsAtCNF OUT' [x] = [outRegister.lastSample isCNF OUT' x.trace] := fun x => rfl
  simp only [hsingle]
  rw [outsAtCNF_eq OUT OUT', List.map_eq_flatMap]

/-- In a run of requests `OUT` is right at the last `CNF` of each, whatever came before, exactly
when in each the value read on a connection is an `INT` and the value read on a deleted client is a
multiple of 65536. -/
theorem readsFaithful_iff (OUT : Int16) (run : List HandledRead) :
    (ReadsFaithful OUT run ∧ ReadsIndependent OUT run) ↔ ∀ x ∈ run, x.InRange := by
  rw [and_iff_left (readsIndependent OUT run), ReadsFaithful, outsAtCNF_eq OUT OUT,
    List.forall₂_map_right_iff, List.forall₂_same]
  exact forall₂_congr fun x _ => x.reports_iff OUT

/-- A reply that carries an `Int32` above the range of an `INT`. -/
def dintReply : ReadResponse where
  serviceResult := StatusCode.good
  results := [{ Server.DataValue.init with
    hasValue := true
    value := OpcUaWrite.requestValue 70000 }]

/-- A read that gets this reply. -/
def readOfDint : HandledRead where
  SERVER := localServer
  NODE := ascii "the.answer"
  trace := readTrace eventCNF localServer (ascii "the.answer") 0 StatusCode.good dintReply
    StatusCode.good
  ran := readTrace_run ..

/-- It is confirmed with 4464 in place of 70000. -/
theorem readOfDint_narrowed :
    outsAtCNF 0 [readOfDint] = [some 4464] ∧ readOfDint.Delivers 70000 ∧
      ¬ ReadsFaithful 0 [readOfDint] := by
  -- 70000 = 65536 + 4464.
  have houts : outsAtCNF 0 [readOfDint] = [some 4464] := by decide
  have hcarries : dintReply.Carries 70000 := ReadResponse.carries_iff.2 (by decide)
  have hdelivers : readOfDint.Delivers 70000 :=
    ⟨⟨0, localServer, by simp [readOfDint, readTrace]⟩, dintReply,
      ⟨0, _, read_mem_readTrace.2 ⟨rfl, rfl, rfl⟩⟩, hcarries⟩
  refine ⟨houts, hdelivers, ?_⟩
  rw [ReadsFaithful, houts, List.forall₂_cons]
  rintro ⟨⟨out, hout, hreports⟩, -⟩
  cases hout
  have hwrong : (4464 : Int16).toInt = (70000 : Int32).toInt := hreports.1 70000 hdelivers
  revert hwrong
  decide

end ForteOpcUa
