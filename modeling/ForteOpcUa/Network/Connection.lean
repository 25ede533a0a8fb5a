import ForteOpcUa.Encoding.Builtin
import ForteOpcUa.Serial.Framing

/-!
# Connection — messages from a stream of bytes

`UA_Connection_completeMessages` in `ua_connection.c`.  What `recv` returns may begin and end in the
middle of messages; the connection keeps the beginning of a message that is not complete yet.

- `checkMessage`     : a look at the header of a message,
- `scan`             : the loop over the messages in a buffer,
- `completeMessages` : a job with the complete messages, and the connection with the rest.

Whether memory is granted is told by a `Heap`, which may be another one at each call.
-/

namespace ForteOpcUa

namespace Network

open Memory Serial Encoding

/-- `UA_ConnectionConfig`, the field that the receiver looks at. -/
structure ConnectionConfig where
  maxMessageSize : UInt32
  deriving DecidableEq

/-- `UA_Connection`, the receiving side.  No bytes are no incomplete message. -/
structure Connection where
  localConf : ConnectionConfig
  incompleteMessage : ByteString
  deriving DecidableEq

/-- `UA_Job` as the receiver returns it. -/
inductive Job
  | nothing
  | networkLayer (message : ByteString)
  | allocated (message : ByteString)
  deriving DecidableEq

/-- The bytes of a job. -/
def Job.message : Job → ByteString
  | .nothing => []
  | .networkLayer message => message
  | .allocated message => message

/-- Three letters as a number. -/
def messageType (bs : ByteString) : ℕ :=
  ofBytes (bs.take 3)

/-- `MSG`, `OPN`, `HEL`, `ACK` and `CLO`. -/
def isMessageType (msgtype : ℕ) : Bool :=
  msgtype = 0x47534d || msgtype = 0x4e504f || msgtype = 0x4c4548 || msgtype = 0x4b4341 ||
    msgtype = 0x4f4c43

/-- A round of the loop: the message at a position is incomplete, garbage, or so long. -/
def checkMessage (conf : ConnectionConfig) (current : ByteString) (pos : ℕ) : Verdict :=
  if current.length - pos < 16 then
    .wait
  else if !isMessageType (messageType (current.drop pos)) then
    .garbage
  else
    match Int32.decodeBinary current (pos + 4) with
    | .fault => .garbage
    | .bad _ _ => .garbage
    | .good length _ =>
        if length < 16 ∨ int32 conf.maxMessageSize.toNat < length then .garbage
        else if (current.length : ℤ) < int32 (length + int32 pos) then .wait
        else .frame length.toNat

/-- The loop: the buffer, shortened where garbage begins, and the position behind the last complete
message.  No message is empty, so that the length of the buffer is enough rounds. -/
def scan (conf : ConnectionConfig) : ℕ → ByteString → ℕ → ByteString × ℕ
  | 0, current, pos => (current, pos)
  | rounds + 1, current, pos =>
      match checkMessage conf current pos with
      | .wait => (current, pos)
      | .garbage => (current.take pos, pos)
      | .frame n => scan conf rounds current (pos + n)

/-- What is done with the buffer behind the loop.  `relocated` tells that the buffer is not that of
the network layer any more. -/
def finish (heap : Heap) (c : Connection) (relocated : Bool) (current : ByteString) (pos : ℕ) :
    Connection × Job :=
  if current.length = 0 then
    (c, .nothing)
  else if pos = 0 then
    if relocated then
      ({ c with incompleteMessage := current }, .nothing)
    else
      ({ c with incompleteMessage := if heap current.length then current else [] }, .nothing)
  else
    ({ c with
        incompleteMessage :=
          if current.length ≠ pos ∧ heap (current.length - pos) then current.drop pos
          else c.incompleteMessage },
      if relocated then .allocated (current.take pos) else .networkLayer (current.take pos))

/-- `UA_Connection_completeMessages`; no bytes at all are a failed `recv`. -/
def completeMessages (heap : Heap) (c : Connection) (received : Option ByteString) :
    Connection × Job :=
  match received with
  | none => (c, .nothing)
  | some bs =>
      if c.incompleteMessage = [] then
        let r := scan c.localConf bs.length bs 0
        finish heap c false r.1 r.2
      else if heap (c.incompleteMessage.length + bs.length) then
        let current := c.incompleteMessage ++ bs
        let r := scan c.localConf current.length current 0
        finish heap { c with incompleteMessage := [] } true r.1 r.2
      else
        ({ c with incompleteMessage := [] }, .nothing)

/-- The chunks of a stream one after the other, each with the memory there is. -/
def receiveAll : Connection → List (Heap × Option ByteString) → Connection × List Job
  | c, [] => (c, [])
  | c, (heap, received) :: chunks =>
      let r := completeMessages heap c received
      let rest := receiveAll r.1 chunks
      (rest.1, r.2 :: rest.2)

end Network

end ForteOpcUa
