import Emcyphal.Rx.SessionTable
import Emcyphal.Utils.PriorityQueue

/-!
# The priority FIFO

`emcyphal/src/buffer/rx_priority_fifo.rs`.  `RxPriorityFifoInner` reassembles the transfers of `SN`
nodes and queues `TN` of them.  All buffers are handed around by index: a session that has completed
a transfer queues its own buffer and goes on with another one, which is either free or was taken
from the least urgent transfer of the queue, and a transfer that is popped keeps its buffer until
the next one is popped.
-/

set_option autoImplicit false

namespace Emcyphal

open Rust

/-- A transfer in the queue.  Its payload is the start of its buffer. -/
structure TransferEntry where
  source : Option NodeId
  transferId : TransferId
  timestamp : Instant
  loopBack : Bool
  bufferLength : ℕ
  bufferIdx : ℕ

structure TransferQueue (N : ℕ) where
  queue : PriorityQueue TransferEntry N
  /-- A `heapless::Vec` with room for `N` indexes. -/
  freeBuffers : List ℕ

namespace TransferQueue

variable {N : ℕ}

def new (N bufferIndexBase : ℕ) : Exec (Option (TransferQueue N)) := do
  if bufferIndexBase + N > 255 + 1 then return none
  let bufferIndexes ← (List.range N).mapM fun i ↦ do
    unwrap (u8TryFrom (bufferIndexBase + (← unwrap (u8TryFrom i))))
  return some ⟨← PriorityQueue.new TransferEntry N, bufferIndexes⟩

def allocateBuffer (q : TransferQueue N) (priority : Priority) :
    Exec (Option ℕ × TransferQueue N) :=
  match splitLast q.freeBuffers with
  | some (idx, freeBuffers) => .ok (some idx, { q with freeBuffers := freeBuffers })
  | none => do
    let maxPriority ← unwrap q.queue.maxPriority
    if priority ≤ maxPriority then
      let (entry, queue) ← q.queue.pop maxPriority
      return (some (← unwrap entry).bufferIdx, { q with queue := queue })
    else return (none, q)

def freeBuffer (q : TransferQueue N) (idx : ℕ) : Option (TransferQueue N) :=
  if q.freeBuffers.length < N then some { q with freeBuffers := q.freeBuffers ++ [idx] } else none

def push (q : TransferQueue N) (priority : Priority) (transfer : TransferEntry) :
    Exec (Option (TransferQueue N)) := do
  return (← q.queue.push priority transfer).map fun queue ↦ { q with queue := queue }

def priorities (q : TransferQueue N) : PrioritySet := q.queue.priorities

def pop (q : TransferQueue N) (priorityMask : PrioritySet) :
    Exec (Option (Priority × TransferEntry) × TransferQueue N) :=
  match (q.queue.priorities &&& priorityMask).first with
  | none => .ok (none, q)
  | some priority => do
    let (entry, queue) ← q.queue.pop priority
    return (some (priority, ← unwrap entry), { q with queue := queue })

end TransferQueue

structure RxPriorityFifoInner (SN TN : ℕ) extends SessionTable SN where
  transfers : TransferQueue TN
  readoutBufferIdx : ℕ
  priorityTrigger : PriorityTrigger

namespace RxPriorityFifoInner

open SessionTable

variable {SN TN : ℕ}

def new (SN TN : ℕ) (dataSpecifier : DataSpecifier) (timeout : Duration)
    (buffers : List (List Byte)) : Exec (RxPriorityFifoInner SN TN) := do
  assert (buffers.length = SN + TN + 1)
  let sessions ← IndexQueue.new NodeId Session NODE_ID_MAX SN
  let transfers ← unwrap (← TransferQueue.new TN (← unwrap (u8TryFrom SN)))
  let readoutBufferIdx ← unwrap (u8TryFrom (SN + TN))
  return {
    dataSpecifier := dataSpecifier
    buffers := buffers
    sessions := sessions
    sessionBufferBase := 0
    transfers := transfers
    readoutBufferIdx := readoutBufferIdx
    timeout := timeout
    priorityTrigger := .new }

/-- Queues a completed transfer together with the buffer of its session, which goes on with a new
one.  Without a new buffer the transfer is dropped. -/
def enqueueTransfer (r : RxPriorityFifoInner SN TN) (source : NodeId) (priority : Priority)
    (loopBack : Bool) (session : Session) (buffer : List Byte) (transfer : Transfer) :
    Exec (RxPriorityFifoInner SN TN × Session) := do
  let transferBufferLength := min transfer.length buffer.length
  let (newBufferIdx, transfers) ← r.transfers.allocateBuffer transfer.priority
  match newBufferIdx with
  | none => return ({ r with transfers := transfers }, session)
  | some idx =>
    let entry : TransferEntry := {
      source := some source
      transferId := transfer.id
      timestamp := transfer.timestamp
      loopBack := loopBack
      bufferLength := transferBufferLength
      bufferIdx := session.bufferIdx }
    let session := { session with bufferIdx := idx }
    let sessions ← r.sessions.set source session
    let transfers ← unwrap (← transfers.push priority entry)
    return ({ r with
      sessions := sessions
      transfers := transfers
      priorityTrigger := r.priorityTrigger.wake (.newEq priority) }, session)

/-- What happens to a frame once it was given to the `Gather` of a session. -/
def deliver (r : RxPriorityFifoInner SN TN) (source : NodeId) (priority : Priority)
    (timestamp : Instant) (loopBack : Bool) (received : Received) :
    Exec (RxPriorityFifoInner SN TN) := do
  let (r, session) ← match received.transfer with
    | none => pure (r, received.session)
    | some transfer =>
      r.enqueueTransfer source priority loopBack received.session received.buffer transfer
  return { r with toSessionTable := ← r.toSessionTable.touch source session timestamp }

def pushRegularFrame (r : RxPriorityFifoInner SN TN) (source : NodeId) (priority : Priority)
    (data : Data) (timestamp : Instant) (loopBack : Bool) : Exec (RxPriorityFifoInner SN TN) := do
  let (table, received) ← r.toSessionTable.reassemble source priority data timestamp
  let r := { r with toSessionTable := table }
  match received with
  | none => return r
  | some received => r.deliver source priority timestamp loopBack received

def pushAnonymousFrame (r : RxPriorityFifoInner SN TN) (priority : Priority) (data : Data)
    (timestamp : Instant) (loopBack : Bool) : Exec (RxPriorityFifoInner SN TN) :=
  match anonymousPayload data with
  | none => .ok r
  | some (transferId, payload) => do
    let (newBufferIdx, transfers) ← r.transfers.allocateBuffer priority
    match newBufferIdx with
    | none => return { r with transfers := transfers }
    | some idx =>
      let buffer ← index r.buffers idx
      let length := min payload.length buffer.length
      let buffers ← assign r.buffers idx (overwrite buffer 0 (payload.take length))
      let entry : TransferEntry := {
        source := none
        transferId := transferId
        timestamp := timestamp
        loopBack := loopBack
        bufferLength := length
        bufferIdx := idx }
      let transfers ← unwrap (← transfers.push priority entry)
      return { r with
        buffers := buffers
        transfers := transfers
        priorityTrigger := r.priorityTrigger.wake (.newEq priority) }

/-- The `mtu` argument of the code is not read. -/
def pushFrame (r : RxPriorityFifoInner SN TN) (frame : Frame) : Exec (RxPriorityFifoInner SN TN) :=
  if frame.header.dataSpec ≠ r.dataSpecifier then .ok r
  else match frame.header.source with
  | some node =>
    r.pushRegularFrame node frame.header.priority frame.data frame.timestamp frame.loopBack
  | none => r.pushAnonymousFrame frame.header.priority frame.data frame.timestamp frame.loopBack

def popReadiness (r : RxPriorityFifoInner SN TN) : PrioritySet := r.transfers.priorities

/-- `none` is `Poll::Pending`. -/
def pollPopReadiness (r : RxPriorityFifoInner SN TN) (waker : Waker) (priorityMask : PrioritySet) :
    Option PrioritySet × RxPriorityFifoInner SN TN :=
  let priorities := r.popReadiness &&& priorityMask
  if !priorities.isEmpty then (some priorities, r)
  else (none, { r with priorityTrigger := r.priorityTrigger.register waker priorityMask })

def tryPop (r : RxPriorityFifoInner SN TN) (priorityMask : PrioritySet) :
    Exec (Option Item × RxPriorityFifoInner SN TN) := do
  let (popped, transfers) ← r.transfers.pop priorityMask
  match popped with
  | none => return (none, { r with transfers := transfers })
  | some (priority, transfer) =>
    let prevBuffer := r.readoutBufferIdx
    let transfers ← unwrap (transfers.freeBuffer prevBuffer)
    let transferMeta : TransferMeta := {
      priority := priority
      address := transfer.source
      transferId := transfer.transferId
      timestamp := transfer.timestamp
      loopBack := transfer.loopBack }
    let buffer ← index r.buffers transfer.bufferIdx
    let validBuffer ← sliceTo buffer transfer.bufferLength
    return (some (transferMeta, validBuffer),
      { r with transfers := transfers, readoutBufferIdx := transfer.bufferIdx })

/-- An operation as a step that shows what came of it. -/
def step (r : RxPriorityFifoInner SN TN) : Op → Exec (RxPriorityFifoInner SN TN × Event)
  | .pushFrame frame => do
    let reception ← r.toSessionTable.receive frame
    return (← r.pushFrame frame, .pushed frame reception)
  | .tryPop priorityMask => do
    let (item, r) ← r.tryPop priorityMask
    return (r, .popped priorityMask item)
  | .pollPopReadiness waker priorityMask =>
    let (ready, r) := r.pollPopReadiness waker priorityMask
    .ok (r, .polled priorityMask ready)

end RxPriorityFifoInner

end Emcyphal
