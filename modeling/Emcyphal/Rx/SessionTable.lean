import Emcyphal.Endpoint
import Emcyphal.Gather.Reassembly
import Emcyphal.Utils.IndexQueue

/-!
# Sessions of a receive buffer

The two receive buffers of the stack, `RxPriorityFifoInner` and the `Inner` of `Watch`, receive the
frames of nodes in the same way and with the same code: each node that is tracked owns a session,
that is a `Gather` and one of the buffers, and a queue keeps the sessions in the order of their last
start of transfer.  `SessionTable` holds the fields that this part of the code works on.

`reassemble` is the part of `push_regular_frame` up to the call of `Gather::push_frame`, and `touch`
the part after the delivery of a transfer, which is where the two buffers differ.
-/

set_option autoImplicit false

namespace Emcyphal

open Rust

/-- A transfer as an endpoint receives it. -/
abbrev Item := TransferMeta × List Byte

instance : IntoUsize NodeId := ⟨Fin.val, Fin.val_injective⟩

structure Session where
  gather : Gather
  bufferIdx : ℕ

/-- The largest number of a node. -/
def NODE_ID_MAX : ℕ := 127

structure SessionTable (SN : ℕ) where
  dataSpecifier : DataSpecifier
  buffers : List (List Byte)
  sessions : IndexQueue NodeId Session NODE_ID_MAX SN
  sessionBufferBase : ℕ
  timeout : Duration

/-- A frame that was given to the `Gather` of a session: the session afterwards, the contents of its
buffer and the transfer the frame has completed. -/
structure Received where
  session : Session
  buffer : List Byte
  transfer : Option Transfer

namespace SessionTable

variable {SN : ℕ}

def allocateSessionBuffer (t : SessionTable SN) : Option ℕ × SessionTable SN :=
  if t.sessionBufferBase < SN then
    (some t.sessionBufferBase, { t with sessionBufferBase := t.sessionBufferBase + 1 })
  else (none, t)

/-- The buffer of the session that was started longest ago, if it has expired. -/
def evictOldestSession (t : SessionTable SN) (timestamp : Instant) :
    Exec (Option ℕ × SessionTable SN) := do
  let oldestSource ← unwrap (← t.sessions.front)
  let oldestSession ← unwrap (← t.sessions.get oldestSource)
  let expired := (← oldestSession.gather.lastTransferTimestamp).all fun ts ↦
    decide (Instant.saturatingAdd ts t.timeout < timestamp)
  if expired then
    let (session, sessions) ← t.sessions.remove oldestSource
    return (some (← unwrap session).bufferIdx, { t with sessions := sessions })
  else return (none, t)

def tryStartNewSession (t : SessionTable SN) (source : NodeId) (timestamp : Instant) :
    Exec (SessionTable SN) := do
  assert ((← t.sessions.contains source) = false)
  let (bufferIdx, t) ← match t.allocateSessionBuffer with
    | (some idx, t) => pure (some idx, t)
    | (none, t) => t.evictOldestSession timestamp
  match bufferIdx with
  | none => return t
  | some idx =>
    let (_, sessions) ← unwrap (← t.sessions.insert source ⟨Gather.default, idx⟩)
    let sessions ← unwrap (← sessions.enqueueFront source)
    return { t with sessions := sessions }

/-- The frame starts a transfer. -/
def sot (data : Data) : Bool := data.bytes.getLast?.any fun byte ↦ TailByte.sot ⟨byte⟩

/-- Starts a session for a node that has none, if the frame starts a transfer. -/
def ensureSession (t : SessionTable SN) (source : NodeId) (data : Data) (timestamp : Instant) :
    Exec (SessionTable SN) := do
  if (← t.sessions.get source).isNone && sot data then t.tryStartNewSession source timestamp
  else return t

/-- Gives a frame to the `Gather` of the session of its node, if there is one. -/
def reassemble (t : SessionTable SN) (source : NodeId) (priority : Priority) (data : Data)
    (timestamp : Instant) : Exec (SessionTable SN × Option Received) := do
  let t ← t.ensureSession source data timestamp
  match ← t.sessions.get source with
  | none => return (t, none)
  | some session =>
    let buffer ← index t.buffers session.bufferIdx
    let (transfer, gather, buffer) ←
      session.gather.pushFrame t.timeout buffer priority data.bytes timestamp
    let session := { session with gather := gather }
    let sessions ← t.sessions.set source session
    let buffers ← assign t.buffers session.bufferIdx buffer
    return ({ t with buffers := buffers, sessions := sessions }, some ⟨session, buffer, transfer⟩)

/-- A session that was started by the frame with this timestamp moves to the end of the queue. -/
def touch (t : SessionTable SN) (source : NodeId) (session : Session) (timestamp : Instant) :
    Exec (SessionTable SN) := do
  if (← session.gather.lastTransferTimestamp) = some timestamp then
    return { t with sessions := ← unwrap (← t.sessions.enqueueBack source) }
  else return t

/-! ## What a frame leads to -/

/-- What a receive buffer does with a frame. -/
inductive Reception
  /-- It is not for this buffer, starts no session or is not valid. -/
  | ignored
  /-- It is given to the `Gather` of a session, and may complete a transfer. -/
  | regular (source : NodeId) (call : Call) (delivery : Option Delivery)
  /-- It is a whole transfer without a source. -/
  | anonymous (transferId : TransferId) (payload : List Byte)

/-- A frame as a call of `Gather::push_frame`. -/
def callOf (frame : Frame) : Call := ⟨frame.header.priority, frame.data.bytes, frame.timestamp⟩

/-- The valid anonymous frames: those that hold a whole transfer. -/
def anonymousPayload (data : Data) : Option (TransferId × List Byte) :=
  match splitLast data.bytes with
  | none => none
  | some (tailByte, payload) =>
    let tail : TailByte := ⟨tailByte⟩
    if tail.sot && tail.eot && (tail.toggle == SOT_TOGGLE_BIT) then some (tail.transferId, payload)
    else none

/-- What the frame leads to, from the state before it is pushed. -/
def receive (t : SessionTable SN) (frame : Frame) : Exec Reception :=
  if frame.header.dataSpec ≠ t.dataSpecifier then .ok .ignored
  else match frame.header.source with
  | some source => do
    let (_, received) ←
      t.reassemble source frame.header.priority frame.data frame.timestamp
    match received with
    | none => return .ignored
    | some r =>
      return .regular source (callOf frame) (r.transfer.map fun t ↦ (t, r.buffer.take t.length))
  | none => return match anonymousPayload frame.data with
    | none => .ignored
    | some (transferId, payload) => .anonymous transferId payload

/-- The frame is one that a session is started for, if its source has none. -/
def NeedsSession (dataSpecifier : DataSpecifier) (frame : Frame) : Prop :=
  frame.header.dataSpec = dataSpecifier ∧ frame.header.source.isSome ∧ sot frame.data = true

instance (dataSpecifier : DataSpecifier) (frame : Frame) :
    Decidable (NeedsSession dataSpecifier frame) := inferInstanceAs (Decidable (_ ∧ _ ∧ _))

def subject0 : SubjectId := ⟨0, by decide⟩

/-- A transfer of one byte to subject 0, in a single frame. -/
def singleFrame (source : NodeId) : Frame where
  header := ⟨.nominal, .message subject0, some source, none⟩
  data := ⟨[7, 0xE0], by decide⟩
  timestamp := Instant.MIN
  loopBack := false

example : NeedsSession (.message subject0) (singleFrame 1) := by decide

/-- The transfer a frame completes, with as much of its payload as a buffer has room for. -/
def Reception.completed (capacity : ℕ) (frame : Frame) : Reception → Option Item
  | .ignored => none
  | .regular source _ delivery => delivery.map fun d ↦
    (⟨d.1.priority, some source, d.1.id, d.1.timestamp, frame.loopBack⟩, d.2)
  | .anonymous transferId payload =>
    some (⟨frame.header.priority, none, transferId, frame.timestamp, frame.loopBack⟩,
      payload.take capacity)

end SessionTable

/-! ## Histories -/

/-- The operations of a receive buffer that change it. -/
inductive Op
  | pushFrame (frame : Frame)
  | tryPop (priorityMask : PrioritySet)
  | pollPopReadiness (waker : Waker) (priorityMask : PrioritySet)

/-- An operation that was carried out, and what came of it. -/
inductive Event
  | pushed (frame : Frame) (reception : SessionTable.Reception)
  | popped (priorityMask : PrioritySet) (item : Option Item)
  /-- The priorities that are ready, or `none` if the poll is pending. -/
  | polled (priorityMask : PrioritySet) (ready : Option PrioritySet)

/-- The operation is a frame that a session is started for, if its source has none. -/
def Op.NeedsSession (dataSpecifier : DataSpecifier) : Op → Prop
  | .pushFrame frame => SessionTable.NeedsSession dataSpecifier frame
  | _ => False

instance (dataSpecifier : DataSpecifier) (op : Op) : Decidable (op.NeedsSession dataSpecifier) := by
  cases op <;> unfold Op.NeedsSession <;> infer_instance

end Emcyphal
